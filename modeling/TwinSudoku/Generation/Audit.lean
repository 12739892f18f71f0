import TwinSudoku.Generation

/-!
# Audits of puzzles

* `Generation.audit` checks a puzzle against the solution it was made from, with queries of its
  own: that the solution keeps the rules, that it is the only completion of the puzzle, and that
  no digit of the puzzle can be spared. A solution that is empty where the puzzle is empty is
  refused.
* `Tally.visited`, `Tally.queriesAgree`, `Tally.givensAgree` check the tally of a session in
  which one puzzle was made.
-/

namespace TwinSudoku

/-- What an audit has found. -/
structure Audit where
  valid : Bool
  /-- No empty cell of the puzzle can hold another digit than that of the solution. -/
  forced : Bool
  /-- The digits of the puzzle are those of the solution, and without any one of them there is
  a completion with another digit in its place. -/
  needed : Bool
deriving DecidableEq

namespace Tally

/-- The digits that minimizing has visited. -/
def visited (t : Tally) : Nat := t.removed + t.restored

/-- Each query was for a set of placements or for a visited digit. -/
def queriesAgree (t : Tally) : Bool := t.queries == t.attempts + t.visited

/-- The digits of the puzzle are those that were kept, and as many as the puzzle holds. -/
def givensAgree (t : Tally) (held : Nat) : Bool := t.givens == held && t.givens == t.restored

end Tally

namespace Pair

variable {s : Size}

/-- The cells that hold no digit, in order. -/
def blanks (p : Pair s) : List Cell := (Cell.all s).filter fun c => p.digit c == 0

theorem mem_blanks {p : Pair s} {c : Cell} : c ∈ p.blanks ↔ c.Inside s ∧ p.digit c = 0 := by
  simp [blanks]

end Pair

namespace Generation

variable {σ ρ : Type}

/-- Loads clauses on top of the rules. -/
def extend (o : Oracle σ) (clauses : List Clause) : Step σ ρ Unit :=
  fun ⟨session, random, tally⟩ =>
    let (result, session) := (o.load clauses).run session
    (result.mapError .oracle, ⟨session, random, tally⟩)

/-- Whether every cell passes a test; the cells after one that does not are not tested. -/
def allCells (test : Cell → Step σ ρ Bool) : List Cell → Step σ ρ Bool
  | [] => return true
  | c :: rest => do if ← test c then allCells test rest else return false

/-- Whether the digit in a cell of a puzzle is that of the solution and cannot be spared. -/
def isNeeded (o : Oracle σ) (plan : Plan) (solution puzzle : Pair plan.size) (c : Cell) :
    Step σ ρ Bool := do
  if puzzle.digit c != solution.digit c then return false
  else hasAlternative o plan (puzzle.without c) c (puzzle.digit c)

/-- Whether a puzzle has a completion that differs from the solution where the puzzle is empty.
The clause that says so stays loaded. -/
def hasOther (o : Oracle σ) (plan : Plan) (solution puzzle : Pair plan.size) :
    Step σ ρ Bool := do
  let givens ← Failure.ofMisuse (plan.size.givens puzzle)
  let difference ← Failure.ofMisuse
    (puzzle.blanks.mapM fun c => plan.size.denied c (solution.digit c))
  extend o [difference]
  return (← ask o givens).isSome

/-- Checks a puzzle against its solution, as the last thing in a session. -/
def audit (o : Oracle σ) (plan : Plan) (solution puzzle : Pair plan.size) : Step σ ρ Audit := do
  let needed ← allCells (isNeeded o plan solution puzzle) puzzle.filled
  let forced := !(← hasOther o plan solution puzzle)
  return ⟨solution.isSolution plan.diagonal, forced, needed⟩

end Generation

end TwinSudoku
