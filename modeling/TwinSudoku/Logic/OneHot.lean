import TwinSudoku.Logic.Formula

/-!
# Exactly one of several literals

`oneHot literals` are the clauses that hold when the literals of the list hold at exactly one
position: one clause of them all, then for every two positions a clause that denies one of
them.
-/

namespace TwinSudoku

/-- For every two positions, in lexicographic order, the clause that denies one of them. -/
def excludeTwo : List Int → List Clause
  | [] => []
  | l :: rest => rest.map (fun m => [-l, -m]) ++ excludeTwo rest

/-- The clauses that hold when exactly one position of the list holds. -/
def oneHot (literals : List Int) : List Clause := literals :: excludeTwo literals

theorem length_excludeTwo (literals : List Int) :
    (excludeTwo literals).length = literals.length * (literals.length - 1) / 2 := by
  induction literals with
  | nil => rfl
  | cons l rest ih =>
    rw [excludeTwo, List.length_append, List.length_map, ih, List.length_cons,
      Nat.add_sub_cancel]
    generalize rest.length = n
    cases n with
    | zero => rfl
    | succ n =>
      rw [Nat.add_sub_cancel]
      rw [Nat.add_mul n 2 (n + 1), Nat.add_mul_div_left _ _ (by decide), Nat.mul_comm n,
        Nat.add_comm]

theorem length_oneHot (literals : List Int) :
    (oneHot literals).length = 1 + literals.length * (literals.length - 1) / 2 := by
  rw [oneHot, List.length_cons, length_excludeTwo, Nat.add_comm]

end TwinSudoku
