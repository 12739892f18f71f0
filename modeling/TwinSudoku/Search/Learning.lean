import TwinSudoku.Search.Propagation

/-!
# Learning from conflicts

A conflict on a level above 0 teaches a clause that follows from the clauses at hand: the
conflict, resolved with the reasons of its literals, latest first, until only one literal of
the present level is left.

* `Weights`: for each variable, how often and how lately it has played a part in a conflict.
* `lessonOf`: the literal that is left, the others, and the weights after the conflict.
-/

namespace TwinSudoku.Search

/-! ## Weights -/

/-- The weights of variables. -/
structure Weights where
  values : Array Nat
  /-- What a part in the next conflict counts. -/
  unit : Nat

namespace Weights

def even (top : Nat) : Weights := ⟨Array.replicate (top + 1) 0, 64⟩

@[inline] def of (weights : Weights) (v : Nat) : Nat := weights.values.getD v 0

@[inline] def add (weights : Weights) (v : Nat) : Weights :=
  let ⟨values, unit⟩ := weights
  ⟨values.modify v (· + unit), unit⟩

def greatestUnit : Nat := 0x1000000000000

def age (weights : Weights) : Weights :=
  let ⟨values, unit⟩ := weights
  if unit ≤ greatestUnit then ⟨values, unit + unit / 16⟩
  else ⟨values.map (· / greatestUnit), 64⟩

end Weights

/-! ## Lessons -/

/-- What is known in the middle of resolving a conflict. -/
structure Inquiry where
  /-- For each variable, 1 if it has come up. -/
  seen : ByteArray
  /-- The number of variables of the present level that have come up and are not resolved. -/
  pending : Nat
  /-- The literals of lower levels, but not of level 0. -/
  others : Array Nat
  weights : Weights

/-- Notes the literals of a clause, from position `i` on; all but the one resolved on are
denied. -/
def Inquiry.noteFrom (t : Trail) (clause : Array Nat) (i : Nat) (q : Inquiry) : Inquiry :=
  if h : i < clause.size then
    let x := clause[i]
    let v := x / 2
    let level := t.levelOf x
    let ⟨seen, pending, others, weights⟩ := q
    if level == 0 || markOf seen v != 0 then
      noteFrom t clause (i + 1) ⟨seen, pending, others, weights⟩
    else
      let seen := seen.set! v 1
      let weights := weights.add v
      if level == t.level then noteFrom t clause (i + 1) ⟨seen, pending + 1, others, weights⟩
      else noteFrom t clause (i + 1) ⟨seen, pending, others.push x, weights⟩
  else q
termination_by clause.size - i

/-- The clause that made a literal hold. -/
def Trail.reasonFor (t : Trail) (w : Watches) (x : Nat) : Array Nat :=
  match t.reasons.getD (x / 2) .given with
  | .given => #[]
  | .implied y => #[opposite y]
  | .clause place => filedUnder w.clauses place

/-- Resolves the first `n` literals of the trail, the latest first, until one of the present
level is left. -/
def Inquiry.resolve (t : Trail) (w : Watches) : (n : Nat) → Inquiry → Nat × Inquiry
  | 0, q => (0, q)
  | n + 1, q =>
    let x := t.literals.getD n 0
    if markOf q.seen (x / 2) == 0 then resolve t w n q
    else if q.pending ≤ 1 then (x, q)
    else
      let ⟨seen, pending, others, weights⟩ := q
      resolve t w n (noteFrom t (t.reasonFor w x) 0 ⟨seen, pending - 1, others, weights⟩)

/-- What a conflict teaches. -/
structure Lesson where
  /-- The literal that must hold where the others are denied. -/
  literal : Nat
  /-- The other literals of the clause learned. -/
  others : Array Nat
  weights : Weights

def lessonOf (t : Trail) (w : Watches) (weights : Weights) (conflict : Conflict) : Lesson :=
  let blank : ByteArray := ⟨Array.replicate t.levels.size 0⟩
  let q := Inquiry.noteFrom t conflict 0 ⟨blank, 0, #[], weights⟩
  let (x, q) := q.resolve t w t.literals.size
  ⟨opposite x, q.others, q.weights.age⟩

end TwinSudoku.Search
