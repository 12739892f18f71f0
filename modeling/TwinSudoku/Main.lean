import Std.Time.DateTime.Timestamp
import TwinSudoku.Command.Run
import TwinSudoku.Oracle.Incremental
import TwinSudoku.Search.Backend

/-!
# The program

The command line around the library: it gives commands the files, the console and the
environment of the operating system, asks the search of this library as their oracle, and draws
from the stream of a seed. The exit code is 0 after success, 1 after a failure, which is reported,
and 2 where the command line is malformed.
-/

namespace TwinSudoku.Program

/-! ## Files -/

/-- The failure that an operation on files ended with. Its number may come with a sign. -/
def fileError : IO.Error → FileError
  | .alreadyExists _ number report | .otherError number report | .resourceBusy number report
  | .resourceVanished number report | .unsupportedOperation number report
  | .hardwareFault number report | .unsatisfiedConstraints number report
  | .illegalOperation number report | .protocolError number report
  | .timeExpired number report | .interrupted _ number report
  | .noFileOrDirectory _ number report | .invalidArgument _ number report
  | .permissionDenied _ number report | .resourceExhausted _ number report
  | .inappropriateType _ number report | .noSuchThing _ number report =>
    .ofNumber number.toInt32.toInt.natAbs report
  | .unexpectedEof => .other "unexpected end of file"
  | .userError report => .other report

/-- Runs an operation on the files at a path. -/
def onFiles {α : Type} (path : String) (action : IO α) : IO (Except FileError α) := do
  if path.toList.contains '\x00' then return .error .zeroInName
  match ← action.toBaseIO with
  | .ok a => return .ok a
  | .error e => return .error (fileError e)

/-- The files of the operating system. -/
def files : FileAccess IO where
  read path := onFiles path (IO.FS.readBinFile path)
  write path content := onFiles path (IO.FS.writeBinFile path content)
  makeDirectory path := onFiles path (IO.FS.createDir path)
  isDirectory path := do
    return (← onFiles path (IO.FS.realPath path >>= (·.isDir))).toOption.getD false

/-! ## The world -/

/-- A number of 64 bits, drawn at random. -/
def randomWord : IO UInt64 := do
  return (← IO.getRandomBytes 8).toList.foldl (fun n byte => n * 256 + byte.toUInt64) 0

def randomId : IO Uuid := do
  let bytes ← IO.getRandomBytes 32
  return .ofRandom fun i => .ofNat ((bytes.toList[i]?).getD 0).toNat

/-- The world around a command that began at some time. -/
def world (began : Nat) : World IO where
  files
  console := IO.print
  seedText := IO.getEnv "SEED"
  freshSeed := randomWord
  freshId := randomId
  time := do return Int64.ofInt (← Std.Time.Timestamp.now).toSecondsSinceUnixEpoch.val
  elapsed := do
    let nanos := (← IO.monoNanosNow) - began
    return (Duration.ofParts? 0 nanos).getD .zero

/-! ## Running -/

/-- What is told of a malformed command line. -/
def usage : String :=
  "Usage: sudoku-pair [-v] [--config <CONFIG>] <generate|solve> [OPTIONS]\n"

/-- Carries out a request, and gives the exit code. -/
def carryOut (request : Request) : IO UInt32 := do
  let work :=
    request.perform (world (← IO.monoNanosNow)) (.incremental Search.anyModel) Random.streamSource
  match (← work.run.run (.fresh Search.anyModel)).1 with
  | .ok () => return 0
  | .error e =>
    IO.eprint e.report
    return 1

end TwinSudoku.Program

/-- Runs the program with the words of a command line. -/
def main (words : List String) : IO UInt32 := do
  match TwinSudoku.Request.ofWords? words with
  | some request => TwinSudoku.Program.carryOut request
  | none =>
    IO.eprint TwinSudoku.Program.usage
    return 2
