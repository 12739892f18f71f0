import TwinSudoku.Clauses
import TwinSudoku.Failure

/-!
# Completing pairs of boards

A solving session loads the rules of one size once, and then completes any number of partial
pairs of that size with one query each. Whether a completion is the only one is not asked.

* `Solving.start`: loads the rules.
* `Solving.complete`: a pair that keeps the rules and has all digits of the given one, `none`
  when there is no such pair. A pair of another size is refused before any query.
* `Solving.session`: the whole session, from loading the rules to the release.
-/

namespace TwinSudoku.Solving

variable {σ : Type}

/-- Loads the rules into a new session. -/
def start (o : Oracle σ) (s : Size) (diagonal : Bool) : Run σ OracleError Unit :=
  o.start (ClauseSet.rules s diagonal).clauses

def complete (o : Oracle σ) (s : Size) {e : Size} (p : Pair e) : Run σ Failure (Option (Pair s)) :=
  if h : e = s then do
    let givens ← Failure.ofMisuse (s.givens p)
    match ← (o.solve givens).adapt .oracle with
    | some m => return some ((h ▸ p).write m)
    | none => return none
  else throw (.misuse (.sizeMismatch e s))

/-- Completes pairs one after another in a session of their own, whatever happens to each. -/
def session (o : Oracle σ) (s : Size) (diagonal : Bool) (pairs : List (Sigma Pair)) :
    StateM σ (Except OracleError (List (Except Failure (Option (Pair s))))) := do
  match ← (start o s diagonal).run with
  | .error e => return .error e
  | .ok () =>
    let results ← pairs.mapM fun p => (complete o s p.2).run
    o.release
    return .ok results

end TwinSudoku.Solving
