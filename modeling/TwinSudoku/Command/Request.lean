import TwinSudoku.Command.Words
import TwinSudoku.Pair.Display
import TwinSudoku.Text.Decimal

/-!
# Requests

What a command line asks for.

* `Request`: to generate, to solve, or to tell the version.
* `Request.ofWords?`: the request of a command line, `none` where it is malformed. The option
  for preferences may stand before the command or after it; where it stands in both places, the
  one after the command counts. Every option but the one for verbosity is given at most once.
-/

namespace TwinSudoku

/-- What to generate and where to write it. What is left out is found elsewhere. -/
structure GenerateOptions where
  k : Option UInt64
  diagonal : Bool
  puzzlePath : Option String
  solutionPath : Option String
  seed : Option UInt64
  maxAttempts : Option UInt64
  reportPath : Option String
deriving DecidableEq

/-- What to solve and how to present it. What is left out is found elsewhere. -/
structure SolveOptions where
  k : Option UInt64
  diagonal : Bool
  puzzlePath : Option String
  layout : Layout
deriving DecidableEq

/-- A command with its options. -/
inductive Command
  | generate (options : GenerateOptions)
  | solve (options : SolveOptions)
deriving DecidableEq

/-- What a command line asks for. -/
inductive Request
  | version
  /-- A command, with preferences perhaps from a file. -/
  | run (preferences : Option String) (command : Command)
deriving DecidableEq

namespace Request

/-! ## The options -/

def plain (name : String) (letter : Option Char) : Switch := ⟨name, letter, false, false⟩

def valued (name : String) (letter : Option Char) : Switch := ⟨name, letter, true, false⟩

def everywhere : List Switch := [plain "verbose" (some 'v'), valued "config" none]

def atStart : List Switch := ⟨"version", some 'V', false, true⟩ :: everywhere

def forGenerate : List Switch :=
  [valued "k" (some 'k'), plain "diagonal" (some 'd'), valued "path" (some 'p'),
    valued "solnpath" (some 's'), valued "seed" none, valued "max-seed-attempts" none,
    valued "report" none] ++ everywhere

def forSolve : List Switch :=
  [valued "k" (some 'k'), plain "diagonal" (some 'd'), valued "path" (some 'p'),
    valued "outputformat" (some 'o')] ++ everywhere

/-! ## Values -/

def number? (text : String) : Option UInt64 := Text.natural64? text.toList

def path? (text : String) : Option String := if text = "" then none else some text

def layout? (text : String) : Option Layout := do
  let n ← Text.integer64? text.toList
  if n < 0 then none else Layout.ofIndex? n.toNat

/-! ## Requests -/

/-- The options for generating, from those given. -/
def generateOptions? (given : List Words.Given) : Option GenerateOptions := do
  return {
    k := ← Words.read? given "k" number?
    diagonal := ← Words.flag? given "diagonal"
    puzzlePath := ← Words.read? given "path" path?
    solutionPath := ← Words.read? given "solnpath" path?
    seed := ← Words.read? given "seed" number?
    maxAttempts := ← Words.read? given "max-seed-attempts" number?
    reportPath := ← Words.read? given "report" path? }

/-- The options for solving, from those given. -/
def solveOptions? (given : List Words.Given) : Option SolveOptions := do
  return {
    k := ← Words.read? given "k" number?
    diagonal := ← Words.flag? given "diagonal"
    puzzlePath := ← Words.read? given "path" path?
    layout := (← Words.read? given "outputformat" layout?).getD .framed }

/-- The file with preferences, from the options given. -/
def preferences? (given : List Words.Given) : Option (Option String) :=
  Words.read? given "config" path?

/-- The options given after the command, where nothing but options follows it. -/
def rest? (switches : List Switch) (words : List String) : Option (List Words.Given) := do
  match ← Words.scan? switches words with
  | (given, .done) => return given
  | _ => none

def ofWords? (words : List String) : Option Request := do
  let (given, stop) ← Words.scan? atStart words
  let before ← preferences? given
  match stop with
  | .ended _ => return .version
  | .done => none
  | .word command rest =>
    if command = "generate" then
      let given ← rest? forGenerate rest
      return .run ((← preferences? given).or before) (.generate (← generateOptions? given))
    else if command = "solve" then
      let given ← rest? forSolve rest
      return .run ((← preferences? given).or before) (.solve (← solveOptions? given))
    else none

end Request

end TwinSudoku
