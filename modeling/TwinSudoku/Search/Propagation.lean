import TwinSudoku.Search.Trail

/-!
# What follows from the literals that hold

* `propagate` draws the consequences of the literals on a trail until nothing new follows: of a
  clause whose other literals are all denied, the last one must hold. A clause all of whose
  literals are denied is a conflict, and ends it.

The number of steps is bounded by the number of variables, since each is followed up once.
-/

namespace TwinSudoku.Search

/-- A clause all of whose literals are denied. -/
abbrev Conflict := Array Nat

/-- Takes the literals filed under `x` to hold, from position `i` on. -/
def implyFrom (x : Nat) (ys : Array Nat) (i : Nat) (t : Trail) : Trail × Option Conflict :=
  if h : i < ys.size then
    let y := ys[i]
    let mark := markOf t.marks y
    if mark == holds then implyFrom x ys (i + 1) t
    else if mark == denied then (t, some #[opposite x, y])
    else implyFrom x ys (i + 1) (t.assign y (.implied x))
  else (t, none)
termination_by ys.size - i

/-- A literal of a clause, from position `i` on, that is not denied and is not the other one
that is watched. -/
def substitute? (marks : ByteArray) (clause : Array Nat) (other : Nat) (i : Nat) : Option Nat :=
  if h : i < clause.size then
    let x := clause[i]
    if x != other && markOf marks x != denied then some x
    else substitute? marks clause other (i + 1)
  else none
termination_by clause.size - i

/-- Visits the clauses in which the denied literal `x` is watched, from position `i` on. Those
for which no other literal can be watched are kept. -/
def visitFrom (x : Nat) (places : Array Nat) (i : Nat) (kept : Array Nat) (t : Trail)
    (w : Watches) : Trail × Watches × Array Nat × Option Conflict :=
  if h : i < places.size then
    let place := places[i]
    let other := w.sums.getD place 0 - x
    let mark := markOf t.marks other
    if mark == holds then visitFrom x places (i + 1) (kept.push place) t w
    else
      match substitute? t.marks (filedUnder w.clauses place) other 0 with
      | some y =>
        let ⟨clauses, sums, table⟩ := w
        visitFrom x places (i + 1) kept t
          ⟨clauses, sums.setIfInBounds place (other + y), table.modify y (·.push place)⟩
      | none =>
        if mark == denied then
          (t, w, kept ++ places.extract i places.size, some (filedUnder w.clauses place))
        else visitFrom x places (i + 1) (kept.push place) (t.assign other (.clause place)) w
  else (t, w, kept, none)
termination_by places.size - i

/-- Follows up at most `fuel` literals of the trail. -/
def propagateWithin (implied : Array (Array Nat)) :
    (fuel : Nat) → Trail → Watches → Trail × Watches × Option Conflict
  | 0, t, w => (t, w, none)
  | fuel + 1, t, w =>
    if h : t.followed < t.literals.size then
      let x := t.literals[t.followed]
      let ⟨marks, literals, followed, starts, levels, reasons, habits⟩ := t
      let t : Trail := ⟨marks, literals, followed + 1, starts, levels, reasons, habits⟩
      match implyFrom x (filedUnder implied x) 0 t with
      | (t, some conflict) => (t, w, some conflict)
      | (t, none) =>
        let ⟨clauses, sums, table⟩ := w
        let places := filedUnder table (opposite x)
        let w : Watches := ⟨clauses, sums, table.setIfInBounds (opposite x) #[]⟩
        match visitFrom (opposite x) places 0 #[] t w with
        | (t, ⟨clauses, sums, table⟩, kept, conflict) =>
          let w : Watches := ⟨clauses, sums, table.setIfInBounds (opposite x) kept⟩
          match conflict with
          | some conflict => (t, w, some conflict)
          | none => propagateWithin implied fuel t w
    else (t, w, none)

/-- Draws all consequences of the literals on a trail. -/
def propagate (ix : Index) (t : Trail) (w : Watches) : Trail × Watches × Option Conflict :=
  propagateWithin ix.implied (ix.top + 1) t w

end TwinSudoku.Search
