import TwinSudoku.Files.Access
import TwinSudoku.Generation
import TwinSudoku.Json.Fields
import TwinSudoku.Json.Printer
import TwinSudoku.Json.Reader

/-!
# Preferences

Preferences are what the command line uses where it is not told otherwise. They are kept in a
file as a JSON record.

* `Preferences.ofText?`: the preferences of a text. A missing field has its usual value.
* `Preferences.load`: the preferences of a file, brought up to the present version. Where there
  is no file, or none that can be read, all fields have their usual values.
* `Preferences.save`: writes preferences into a file.
* `seedOf?`: the seed that the environment gives.
-/

namespace TwinSudoku

/-- What the command line uses where it is not told otherwise. -/
structure Preferences where
  version : UInt32
  k : UInt64
  diagonal : Bool
  puzzlePath : String
  solutionPath : String
  maxAttempts : UInt64
  reportPath : Option String
deriving DecidableEq

namespace Preferences

def usual : Preferences where
  version := 1
  k := 3
  diagonal := false
  puzzlePath := "TestCases/test_case.csv"
  solutionPath := "TestCases/sol_test_case.csv"
  maxAttempts := UInt64.ofNat Plan.usualAttempts
  reportPath := none

instance : Inhabited Preferences := ⟨usual⟩

def size (p : Preferences) : Except InputError Size := Size.ofNat p.k.toNat

/-! ## As JSON records -/

def fieldNames : List String :=
  ["version", "k", "diagonal", "puzzle_path", "solution_path", "max_seed_attempts",
    "report_path"]

def toJson (p : Preferences) : Json :=
  .record (fieldNames.zip
    [.ofNat p.version.toNat, .ofNat p.k.toNat, .bool p.diagonal, .ofString p.puzzlePath,
      .ofString p.solutionPath, .ofNat p.maxAttempts.toNat,
      (p.reportPath.map Json.ofString).getD .null])

/-- The value of a field, or its usual value where it is missing. -/
def field? {α : Type} (read : Json → Option α) (usualValue : α) : Option Json → Option α
  | none => some usualValue
  | some v => read v

def path? : Json → Option (Option String)
  | .null => some none
  | v => v.string?.map some

def ofJson? (v : Json) : Option Preferences := do
  match ← v.fields? fieldNames with
  | [version, k, diagonal, puzzlePath, solutionPath, maxAttempts, reportPath] =>
    return {
      version := ← field? Json.word32? usual.version version
      k := ← field? Json.word64? usual.k k
      diagonal := ← field? Json.bool? usual.diagonal diagonal
      puzzlePath := ← field? Json.string? usual.puzzlePath puzzlePath
      solutionPath := ← field? Json.string? usual.solutionPath solutionPath
      maxAttempts := ← field? Json.word64? usual.maxAttempts maxAttempts
      reportPath := ← field? path? usual.reportPath reportPath }
  | _ => none

def ofText? (text : String) : Option Preferences := (Json.parse? text).bind ofJson?

/-! ## In files -/

/-- Preferences of the version before the first are brought up to it. -/
def migrate (p : Preferences) : Preferences := if p.version = 0 then { p with version := 1 } else p

/-- The preferences that the contents of a file give. -/
def ofContents (contents : Except FileError String) : Preferences :=
  match contents with
  | .error _ => usual
  | .ok text => ((ofText? text).map migrate).getD usual

variable {m : Type → Type} [Monad m]

/-- The preferences of a file, if one is given. -/
def load (files : FileAccess m) : Option String → m Preferences
  | none => return usual
  | some path => do return ofContents (← files.readText path)

def save (files : FileAccess m) (path : String) (p : Preferences) : m (Except FileError Unit) :=
  files.save path p.toJson.print

end Preferences

def seedOf? (text : Option String) : Option UInt64 := text.bind fun t => Text.natural64? t.toList

end TwinSudoku
