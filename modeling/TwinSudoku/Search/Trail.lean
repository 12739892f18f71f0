import TwinSudoku.Search.Index

/-!
# The trail of a search

A trail holds the literals that a search takes to hold, in the order in which it came to them,
and for each of them the reason and the level. Each choice opens a level; what follows from it
belongs to that level. What holds on level 0 follows without any choice.

* `Trail.assign` takes one more literal to hold, `Trail.descend` chooses one.
* `Trail.backTo` gives up all levels above one.
-/

namespace TwinSudoku.Search

/-! ## Marks -/

/-- The mark of a literal that neither holds nor is denied. -/
def unmarked : UInt8 := 0

def holds : UInt8 := 1

/-- The mark of a literal that is denied. -/
def denied : UInt8 := 2

@[inline] def markOf (marks : ByteArray) (x : Nat) : UInt8 :=
  if h : x < marks.size then marks[x] else unmarked

/-! ## Trails -/

/-- Why a literal is taken to hold. -/
inductive Reason
  | given
  /-- It is filed under a literal that holds. -/
  | implied (literal : Nat)
  /-- All other literals of a watched clause are denied. -/
  | clause (place : Nat)

/-- The literals taken to hold. -/
structure Trail where
  marks : ByteArray
  /-- The literals that hold, in the order in which they came. -/
  literals : Array Nat
  /-- How many of them have been followed up. -/
  followed : Nat
  /-- For each level from 1 on, the number of literals that came before it. -/
  starts : Array Nat
  /-- For each variable that is decided, its level. -/
  levels : Array Nat
  /-- For each variable that is decided, the reason. -/
  reasons : Array Reason
  /-- For each variable, 0 if it was asserted when it was decided last, and 1 if it was denied. -/
  habits : ByteArray

namespace Trail

/-- The trail of a search that has not begun, over the variables up to `top`. -/
def blank (top : Nat) : Trail where
  marks := ⟨Array.replicate (2 * top + 2) unmarked⟩
  literals := #[]
  followed := 0
  starts := #[]
  levels := Array.replicate (top + 1) 0
  reasons := Array.replicate (top + 1) .given
  habits := ⟨Array.replicate (top + 1) 0⟩

@[inline] def level (t : Trail) : Nat := t.starts.size

/-- The level of the variable of a literal. -/
@[inline] def levelOf (t : Trail) (x : Nat) : Nat := t.levels.getD (x / 2) 0

/-- Takes a literal to hold that is unmarked. -/
@[inline] def assign (t : Trail) (x : Nat) (reason : Reason) : Trail :=
  let ⟨marks, literals, followed, starts, levels, reasons, habits⟩ := t
  ⟨(marks.set! x holds).set! (opposite x) denied, literals.push x, followed, starts,
    levels.setIfInBounds (x / 2) starts.size, reasons.setIfInBounds (x / 2) reason, habits⟩

def descend (t : Trail) (x : Nat) : Trail :=
  let ⟨marks, literals, followed, starts, levels, reasons, habits⟩ := t
  let starts := starts.push literals.size
  assign ⟨marks, literals, followed, starts, levels, reasons, habits⟩ x .given

def dropLast (t : Trail) : (n : Nat) → Trail
  | 0 => t
  | n + 1 =>
    let ⟨marks, literals, followed, starts, levels, reasons, habits⟩ := t
    let x := literals.back?.getD 0
    dropLast ⟨(marks.set! x unmarked).set! (opposite x) unmarked, literals.pop, followed, starts,
      levels, reasons, habits.set! (x / 2) (if x % 2 = 0 then 0 else 1)⟩ n

def backTo (t : Trail) (level : Nat) : Trail :=
  match t.starts[level]? with
  | none => t
  | some start =>
    let ⟨marks, literals, followed, starts, levels, reasons, habits⟩ :=
      t.dropLast (t.literals.size - start)
    ⟨marks, literals, min followed start, starts.take level, levels, reasons, habits⟩

end Trail

end TwinSudoku.Search
