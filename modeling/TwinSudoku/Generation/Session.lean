import TwinSudoku.Generation

/-!
# Generating sessions

* `Generation.Call`, `Generation.Reply`: what a session can be asked for, and its answers.
* `Generation.respond`: answers one call; `Generation.respondAll` answers several in order,
  whatever happens to each, and shows the tally after each of them.
* `Generation.session`: a whole session, from loading the rules to the release.
-/

namespace TwinSudoku.Generation

/-- What a generating session can be asked for. -/
inductive Call
  | solution
  /-- What is left of a pair when digits are removed. -/
  | minimize (p : Sigma Pair)
  | generate
  /-- Whether a pair has a completion without the digit in the cell. -/
  | alternative (p : Sigma Pair) (c : Cell) (d : Nat)

/-- The answer to a call. -/
inductive Reply (s : Size)
  | solution (p : Pair s)
  | minimized (p : Sigma Pair)
  | generated (g : Generated s)
  | alternative (found : Bool)

variable {σ ρ : Type}

def respond (o : Oracle σ) (dice : Random.Dice ρ) (plan : Plan) :
    Call → Step σ ρ (Reply plan.size)
  | .solution => return .solution (← solution o dice plan)
  | .minimize ⟨e, p⟩ => return .minimized ⟨e, ← minimize o dice plan p⟩
  | .generate => return .generated (← generate o dice plan)
  | .alternative ⟨_, p⟩ c d => return .alternative (← hasAlternative o plan p c d)

def respondAll (o : Oracle σ) (dice : Random.Dice ρ) (plan : Plan) :
    (calls : List Call) →
      StateM (Generator σ ρ) (List (Except Failure (Reply plan.size) × Tally))
  | [] => return []
  | call :: rest => do
    let reply ← (respond o dice plan call).run
    let tally := (← get).tally
    let replies ← respondAll o dice plan rest
    return (reply, tally) :: replies

/-- Answers calls in a session of their own. -/
def session (o : Oracle σ) (dice : Random.Dice ρ) (plan : Plan) (random : ρ)
    (calls : List Call) :
    StateM σ (Except OracleError (List (Except Failure (Reply plan.size) × Tally))) := do
  match ← (start o plan).run with
  | .error e => return .error e
  | .ok tally =>
    let (replies, generator) := (respondAll o dice plan calls).run ⟨← get, random, tally⟩
    set generator.session
    o.release
    return .ok replies

end TwinSudoku.Generation
