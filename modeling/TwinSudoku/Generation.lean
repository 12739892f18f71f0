import TwinSudoku.Placement
import TwinSudoku.Random.Shuffle
import TwinSudoku.Solving

/-!
# Generating puzzles

A generating session makes pairs that keep the rules, and puzzles with a single completion
from them.

* `Generation.solution`: asks for a completion of random placements until a set of them has
  one.
* `Generation.minimize`: visits the digits of a pair in random order and removes each one
  unless a completion with another digit there would appear. What is left depends on the
  order; `Generation.minimizeIn` takes the order as an argument.
* `Generation.hasAlternative`: whether a pair has a completion without a given digit in a given
  cell.
* `Generation.generate`: a solution and the puzzle made from it.
* `Tally`: what a session has done so far. It is kept also when a run fails.
-/

namespace TwinSudoku

/-- What a session has done so far. -/
structure Tally where
  clauses : Nat
  /-- The sets of placements tried by the latest search for a solution. -/
  attempts : Nat
  queries : Nat
  removed : Nat
  restored : Nat
  /-- The digits of the latest puzzle generated. -/
  givens : Nat
deriving DecidableEq

/-- What a session is to generate. -/
structure Plan where
  size : Size
  /-- Whether the diagonals hold every digit too. -/
  diagonal : Bool
  /-- The sets of placements tried before giving up. -/
  attempts : Nat

/-- The number of attempts where none is given. -/
def Plan.usualAttempts : Nat := 10000

/-- The state of a generating session: that of its oracle, that of its dice, and its tally. -/
structure Generator (σ ρ : Type) where
  session : σ
  random : ρ
  tally : Tally

/-- A solution and a puzzle made from it. -/
structure Generated (s : Size) where
  solution : Pair s
  puzzle : Pair s
  tally : Tally

namespace Generation

variable {σ ρ : Type}

/-! ## Steps of a session -/

abbrev Step (σ ρ α : Type) := Run (Generator σ ρ) Failure α

def ask (o : Oracle σ) (assumptions : List Int) : Step σ ρ (Option Model) :=
  fun ⟨session, random, tally⟩ =>
    let (answer, session) := (o.solve assumptions).run session
    (answer.mapError .oracle, ⟨session, random, tally⟩)

def roll {α : Type} (draw : StateM ρ α) : Step σ ρ α :=
  fun ⟨session, random, tally⟩ =>
    let (drawn, random) := draw.run random
    (.ok drawn, ⟨session, random, tally⟩)

def note (change : Tally → Tally) : Step σ ρ Unit :=
  fun ⟨session, random, tally⟩ => (.ok (), ⟨session, random, change tally⟩)

/-- Loads the rules into a new session and opens its tally. -/
def start (o : Oracle σ) (plan : Plan) : Run σ OracleError Tally := do
  let clauses := (ClauseSet.rules plan.size plan.diagonal).clauses
  o.start clauses
  return ⟨clauses.length, 0, 0, 0, 0, 0⟩

/-! ## Finding a solution -/

/-- Tries at most `left` more sets of placements. The check of the pair that is read off a model is
an assertion for debugging, and a build made for speed leaves it out. It never fails where the
oracle answers right. -/
def solutionWithin (o : Oracle σ) (dice : Random.Dice ρ) (plan : Plan) :
    (left : Nat) → Step σ ρ (Pair plan.size)
  | 0 => throw (.attemptsExhausted plan.attempts)
  | left + 1 => do
    let placements ← roll (Placement.drawSet dice plan.size)
    note fun tally =>
      { tally with attempts := plan.attempts - left, queries := tally.queries + 1 }
    match ← ask o (placements.map Placement.literal) with
    | none => solutionWithin o dice plan left
    | some m =>
      let pair := (Pair.ofPlacements placements).write m
      if pair.isSolution plan.diagonal then return pair
      else throw (.rulesBroken plan.size pair)

/-- A pair that keeps the rules, from random placements. -/
def solution (o : Oracle σ) (dice : Random.Dice ρ) (plan : Plan) : Step σ ρ (Pair plan.size) :=
  solutionWithin o dice plan plan.attempts

/-! ## Removing digits -/

/-- Whether the digits of the pair have a completion in which the cell does not hold the
digit. -/
def hasAlternative (o : Oracle σ) (plan : Plan) {e : Size} (p : Pair e) (c : Cell) (d : Nat) :
    Step σ ρ Bool := do
  let givens ← Failure.ofMisuse (plan.size.givens p)
  let denial ← Failure.ofMisuse (plan.size.denied c d)
  note fun tally => { tally with queries := tally.queries + 1 }
  return (← ask o (givens ++ [denial])).isSome

/-- Visits the cells in the given order and removes each digit that no completion of the rest
can replace. -/
def minimizeIn (o : Oracle σ) (plan : Plan) {e : Size} :
    (order : List Cell) → Pair e → Step σ ρ (Pair e)
  | [], p => return p
  | c :: rest, p => do
    if ← hasAlternative o plan (p.without c) c (p.digit c) then
      note fun tally => { tally with restored := tally.restored + 1 }
      minimizeIn o plan rest p
    else
      note fun tally => { tally with removed := tally.removed + 1 }
      minimizeIn o plan rest (p.without c)

def minimize (o : Oracle σ) (dice : Random.Dice ρ) (plan : Plan) {e : Size} (p : Pair e) :
    Step σ ρ (Pair e) := do
  let order ← roll (Random.shuffle dice p.filled)
  minimizeIn o plan order p

/-- A solution and a puzzle made from it. -/
def generate (o : Oracle σ) (dice : Random.Dice ρ) (plan : Plan) :
    Step σ ρ (Generated plan.size) := do
  let solution ← solution o dice plan
  let puzzle ← minimize o dice plan solution
  note fun tally => { tally with givens := puzzle.filledCount }
  return ⟨solution, puzzle, (← get).tally⟩

end Generation

end TwinSudoku
