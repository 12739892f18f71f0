import TwinSudoku.Failure
import TwinSudoku.Report

/-!
# Failed commands

`CommandError` lists the reasons for which a command fails, and `CommandError.report` is what
it tells: the failure and, where another failure lies behind it, that one too.
-/

namespace TwinSudoku

/-- Why a command failed. -/
inductive CommandError
  /-- The size or the puzzle was rejected. -/
  | input (cause : InputError)
  /-- The session could not be opened. -/
  | oracle (cause : OracleError)
  /-- The session gave no result. -/
  | failure (cause : Failure)
  /-- A named result could not be written to its file. -/
  | writing (what path : String) (cause : FileError)
  /-- Something could not be written. -/
  | file (cause : FileError)
  /-- The report could not be put into words. -/
  | unreportable (cause : ReportError)

namespace CommandError

/-- The text of the failure. -/
def message : CommandError → String
  | input cause => cause.message
  | oracle cause => cause.message
  | failure cause => cause.message?.getD "index out of bounds"
  | writing what path _ => "writing " ++ what ++ " to " ++ path
  | file cause => cause.message
  | unreportable cause => cause.message

/-- The failure that lies behind, if there is one. -/
def cause? : CommandError → Option String
  | input (.unreadable _ cause) => some cause.message
  | writing _ _ cause => some cause.message
  | _ => none

/-- What a failed command tells. -/
def report (e : CommandError) : String :=
  "Error: " ++ e.message ++ "\n" ++
    match e.cause? with
    | none => ""
    | some cause => "\nCaused by:\n    " ++ cause ++ "\n"

end CommandError

end TwinSudoku
