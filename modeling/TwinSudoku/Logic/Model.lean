import TwinSudoku.Logic.Formula

/-!
# Models

A model is given by the variables it makes true, in increasing order and without repetition.

* `Model.ofLiterals`: the model of a list of literals in any order, of which only the positive
  ones count. `mem_ofLiterals` says which variables it makes true.
* `Model.isTrue`: looks a variable up by halving the range of positions.
* `Model.assignment`: the truth values that a model stands for.
-/

namespace TwinSudoku

/-- Keeps one of several equal neighbours. -/
def dropRepeats : List Nat → List Nat
  | [] => []
  | [v] => [v]
  | v :: w :: rest => if v = w then dropRepeats (w :: rest) else v :: dropRepeats (w :: rest)

theorem mem_dropRepeats {v : Nat} {vs : List Nat} : v ∈ dropRepeats vs ↔ v ∈ vs := by
  induction vs using dropRepeats.induct with
  | case1 => rfl
  | case2 => rfl
  | case3 w rest ih => simp [dropRepeats, ih]
  | case4 u w rest h ih => simp [dropRepeats, h, ih]

theorem pairwise_dropRepeats {vs : List Nat} (h : vs.Pairwise (· ≤ ·)) :
    (dropRepeats vs).Pairwise (· < ·) := by
  induction vs using dropRepeats.induct with
  | case1 => exact .nil
  | case2 => simp [dropRepeats]
  | case3 w rest ih =>
    rw [dropRepeats, if_pos rfl]
    exact ih h.tail
  | case4 u w rest hne ih =>
    rw [dropRepeats, if_neg hne]
    refine List.pairwise_cons.2 ⟨fun x hx => ?_, ih h.tail⟩
    have hw : u ≤ w := List.rel_of_pairwise_cons h (by simp)
    have hx' : w ≤ x := by
      rcases List.mem_cons.1 (mem_dropRepeats.1 hx) with rfl | hr
      · exact Nat.le_refl _
      · exact List.rel_of_pairwise_cons h.tail hr
    omega

/-- The variables of the positive literals of a list, increasing and without repetition. -/
def positives (literals : List Int) : List Nat :=
  dropRepeats (((literals.filter (0 < ·)).map Int.toNat).mergeSort fun v w => decide (v ≤ w))

theorem mem_positives {v : Nat} {literals : List Int} :
    v ∈ positives literals ↔ 0 < v ∧ (v : Int) ∈ literals := by
  rw [positives, mem_dropRepeats, List.mem_mergeSort, List.mem_map]
  constructor
  · rintro ⟨l, hl, rfl⟩
    have hmem := List.mem_filter.1 hl
    have hpos : 0 < l := by simpa using hmem.2
    exact ⟨by omega, by rw [Int.toNat_of_nonneg (Int.le_of_lt hpos)]; exact hmem.1⟩
  · rintro ⟨hv, hmem⟩
    exact ⟨v, List.mem_filter.2 ⟨hmem, by simpa using hv⟩, Int.toNat_natCast v⟩

theorem pairwise_sorted (values : List Nat) :
    (values.mergeSort fun v w => decide (v ≤ w)).Pairwise (· ≤ ·) := by
  have h := @List.pairwise_mergeSort Nat (fun v w => decide (v ≤ w))
    (by simpa using fun a b c => Nat.le_trans) (by simpa using Nat.le_total) values
  simpa using h

theorem pairwise_positives (literals : List Int) : (positives literals).Pairwise (· < ·) :=
  pairwise_dropRepeats (pairwise_sorted _)

/-- A model: the variables that it makes true. -/
structure Model where
  selected : Array Nat
  increasing : selected.toList.Pairwise (· < ·)
deriving DecidableEq

namespace Model

/-- The model that makes the variables of the positive literals true and no others. -/
def ofLiterals (literals : List Int) : Model :=
  ⟨(positives literals).toArray, by simpa using pairwise_positives literals⟩

/-- The variables that the model makes true, in increasing order. -/
def trueVariables (m : Model) : List Nat := m.selected.toList

theorem mem_ofLiterals {v : Nat} {literals : List Int} :
    v ∈ (ofLiterals literals).trueVariables ↔ 0 < v ∧ (v : Int) ∈ literals := by
  rw [← mem_positives]
  rfl

/-- Looks for a variable at the positions from `lo` up to but not including `hi`. -/
def findIn (sorted : Array Nat) (v : Nat) (lo hi : Nat) : Bool :=
  if lo < hi then
    let mid := lo + (hi - lo) / 2
    match sorted[mid]? with
    | none => false
    | some w =>
      if v < w then findIn sorted v lo mid
      else if w < v then findIn sorted v (mid + 1) hi
      else true
  else false
termination_by hi - lo

/-- Whether the model makes the variable true. -/
def isTrue (m : Model) (v : Nat) : Bool := findIn m.selected v 0 m.selected.size

/-- The assignment that makes exactly the variables of the model true. -/
def assignment (m : Model) : Assignment := fun v => decide (v ∈ m.trueVariables)

end Model

end TwinSudoku
