import TwinSudoku.Oracle.Basic
import TwinSudoku.Pair.Drawing

/-!
# Failures of solving and generating

`Failure` lists the reasons for which a session gives no result: an argument it does not take,
an oracle that fails, random placements that never fit, and a model that breaks the rules.
-/

namespace TwinSudoku

/-- Why a session gave no result. -/
inductive Failure
  /-- The argument is not one that the session takes. -/
  | misuse (cause : Misuse)
  /-- The oracle failed. -/
  | oracle (cause : OracleError)
  /-- None of the random placements tried has a completion. -/
  | attemptsExhausted (attempts : Nat)
  /-- The oracle's model does not give a pair that keeps the rules. -/
  | rulesBroken (s : Size) (pair : Pair s)

namespace Failure

/-- The text of a failure, if it has one. -/
def message? : Failure → Option String
  | misuse cause => cause.message?
  | oracle cause => some cause.message
  | attemptsExhausted attempts =>
    some ("no consistent random seed set found after " ++ toString attempts ++ " attempts")
  | rulesBroken _ pair => some ("oracle model violates the rules: " ++ pair.drawing)

/-- A result that a misuse may prevent, as part of a run. -/
def ofMisuse {σ α : Type} (result : Except Misuse α) : Run σ Failure α :=
  match result with
  | .ok a => pure a
  | .error cause => throw (misuse cause)

end Failure

end TwinSudoku
