import TwinSudoku.Command.Request
import TwinSudoku.Preferences

/-!
# What commands work with

Options where they are given, and preferences where they are not.

* `GenerateOptions.plan`: what to generate, unless the size is rejected.
* `GenerateOptions.puzzleFile`, `GenerateOptions.solutionFile`, `GenerateOptions.reportFile?`:
  where to write it.
* `SolveOptions.size`, `SolveOptions.hasDiagonals`, `SolveOptions.puzzleFile`: what to solve.
-/

namespace TwinSudoku

/-- Preferences with the block size of the command line, if it gives one. -/
def Preferences.withSize (preferences : Preferences) (k : Option UInt64) : Preferences :=
  { preferences with k := k.getD preferences.k }

namespace GenerateOptions

variable (options : GenerateOptions) (preferences : Preferences)

def plan : Except InputError Plan := do
  return {
    size := ← (preferences.withSize options.k).size
    diagonal := options.diagonal || preferences.diagonal
    attempts := (options.maxAttempts.getD preferences.maxAttempts).toNat }

def puzzleFile : String := options.puzzlePath.getD preferences.puzzlePath

def solutionFile : String := options.solutionPath.getD preferences.solutionPath

/-- Where the report goes, if one is wanted. -/
def reportFile? : Option String := options.reportPath.or preferences.reportPath

end GenerateOptions

namespace SolveOptions

variable (options : SolveOptions) (preferences : Preferences)

def size : Except InputError Size := (preferences.withSize options.k).size

/-- Whether the diagonals hold every digit too. -/
def hasDiagonals : Bool := options.diagonal || preferences.diagonal

def puzzleFile : String := options.puzzlePath.getD preferences.puzzlePath

end SolveOptions

end TwinSudoku
