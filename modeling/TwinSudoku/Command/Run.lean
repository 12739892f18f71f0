import TwinSudoku.Command.Error
import TwinSudoku.Command.Settings
import TwinSudoku.Pair.Files

/-!
# Running commands

* `World m`: what commands use of the world around them, as operations of a monad `m`: files,
  the console, the environment, chance and time.
* `Command.runSolve`: reads a puzzle and presents a completion of it, or says that there is none.
* `Command.runGenerate`: writes a solution, then a puzzle made from it (`Command.makeFiles`), then
  a report if one is wanted. What has been written before a failure stays.
* `Request.perform`: carries out a request.

The oracle and the source of random numbers are arguments. The state of the oracle's session is
kept also when a command fails.
-/

namespace TwinSudoku

/-- What commands use of the world around them. -/
structure World (m : Type → Type) where
  files : FileAccess m
  console : String → m Unit
  /-- The text that the environment gives for the seed. -/
  seedText : m (Option String)
  freshSeed : m UInt64
  freshId : m Uuid
  /-- The time, in seconds from the epoch. -/
  time : m Int64
  /-- The time since the command began. -/
  elapsed : m Duration

/-- The number and the time of a session. -/
structure Stamp where
  id : Uuid
  time : Int64

/-- A stamp for a session that begins now. -/
def World.stamp {m : Type → Type} [Monad m] (w : World m) : m Stamp := do
  return ⟨← w.freshId, ← w.time⟩

def versionText : String := "sudoku-pair 0.1.0\n"

/-- What is printed for a puzzle without a completion. -/
def noSolutionText : String := "None\n"

namespace Command

variable {m : Type → Type} [Monad m] {σ ρ : Type}

/-- The run of a command: it may fail, and it changes the state of an oracle session. -/
abbrev Work (σ : Type) (m : Type → Type) (α : Type) := ExceptT CommandError (StateT σ m) α

def outside {α : Type} (action : m α) : Work σ m α := ExceptT.lift (StateT.lift action)

/-- Goes on with a result, or fails with what prevents it. -/
def expect {ε α : Type} (error : ε → CommandError) (result : Except ε α) : Work σ m α :=
  match result with
  | .ok a => pure a
  | .error e => throw (error e)

def consult {α : Type} (action : StateM σ α) : Work σ m α := do
  let (a, session) := action.run (← get)
  set session
  return a

/-- Presents a completion, or tells that there is none. -/
def tell (w : World m) (layout : Layout) {s : Size} : Option (Pair s) → Work σ m Unit
  | some solution => do expect .file (← outside (solution.present w.files w.console layout))
  | none => outside (w.console noSolutionText)

/-- Presents a completion of a puzzle. -/
def runSolve (w : World m) (o : Oracle σ) (preferences : Preferences) (options : SolveOptions) :
    Work σ m Unit := do
  let s ← expect .input (options.size preferences)
  let path := options.puzzleFile preferences
  let puzzle ← expect .input (← outside (Pair.fromFile w.files s path))
  expect .oracle (← consult (Solving.start o s (options.hasDiagonals preferences)).run)
  let result ← consult (Solving.complete o s puzzle).run
  consult o.release
  tell w options.layout (← expect .failure result)

/-- Lets a step of a generating session run. -/
def continueWith {α : Type} (step : Generation.Step σ ρ α) (random : ρ) (tally : Tally) :
    Work σ m (Except Failure α × ρ × Tally) := do
  let (result, generator) := step.run ⟨← get, random, tally⟩
  set generator.session
  return (result, generator.random, generator.tally)

/-- Writes a pair into a file, under the name of a result. -/
def writePair (w : World m) (what path : String) {s : Size} (p : Pair s) : Work σ m Unit := do
  expect (.writing what path) (← outside (p.toFile w.files path))

def writeReport (w : World m) (path : String) (report : Report) : Work σ m Unit := do
  let text ← expect .unreportable report.print
  expect .file (← outside (w.files.makeParent path))
  expect (.writing "report" path) (← outside (w.files.write path text.toUTF8))

/-- The seed of the command line or else that of the environment, a fresh one where there is
neither. -/
def chooseSeed (w : World m) (given : Option UInt64) : Work σ m UInt64 := do
  match given.or (seedOf? (← outside w.seedText)) with
  | some seed => return seed
  | none => outside w.freshSeed

/-- Writes a solution and a puzzle made from it, in a session with the rules loaded. -/
def makeFiles (w : World m) (o : Oracle σ) (source : Random.Source ρ) (plan : Plan)
    (seed : UInt64) (tally : Tally) (solutionPath puzzlePath : String) :
    Work σ m (Pair plan.size × Tally) := do
  let (result, random, tally) ←
    continueWith (Generation.solution o source.dice plan) (source.ofSeed seed) tally
  let solution ← expect .failure result
  writePair w "solution" solutionPath solution
  let (result, _, tally) ←
    continueWith (Generation.minimize o source.dice plan solution) random tally
  let puzzle ← expect .failure result
  writePair w "puzzle" puzzlePath puzzle
  return (puzzle, tally)

/-- Releases the session where a step fails. -/
def releasing {α : Type} (o : Oracle σ) (step : Work σ m α) : Work σ m α :=
  tryCatch step fun e => do
    consult o.release
    throw e

/-- Writes a solution and a puzzle made from it, and perhaps a report. The stamp of the report is
that of the moment when the session began, and the time that it took ends before the release. -/
def runGenerate (w : World m) (o : Oracle σ) (source : Random.Source ρ)
    (preferences : Preferences) (options : GenerateOptions) : Work σ m Unit := do
  let plan ← expect .input (options.plan preferences)
  let seed ← chooseSeed w options.seed
  let tally ← expect .oracle (← consult (Generation.start o plan).run)
  let stamp ← outside w.stamp
  let (puzzle, tally) ← releasing o <|
    makeFiles w o source plan seed tally (options.solutionFile preferences)
      (options.puzzleFile preferences)
  let elapsed ← outside w.elapsed
  consult o.release
  match options.reportFile? preferences with
  | none => return ()
  | some path =>
    writeReport w path <|
      .ofTally plan seed { tally with givens := puzzle.filledCount } stamp.id elapsed stamp.time

def perform (w : World m) (o : Oracle σ) (source : Random.Source ρ) (preferences : Preferences) :
    Command → Work σ m Unit
  | .generate options => runGenerate w o source preferences options
  | .solve options => runSolve w o preferences options

end Command

def Request.perform {m : Type → Type} [Monad m] {σ ρ : Type} (w : World m) (o : Oracle σ)
    (source : Random.Source ρ) : Request → Command.Work σ m Unit
  | .version => Command.outside (w.console versionText)
  | .run path command => do
    let preferences ← Command.outside (Preferences.load w.files path)
    command.perform w o source preferences

end TwinSudoku
