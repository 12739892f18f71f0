import TwinSudoku.Files.Access
import TwinSudoku.Pair.Csv
import TwinSudoku.Pair.Display

/-!
# Pairs in files

* `Pair.fromFile`, `Pair.toFile`: a pair from and to a file of comma separated values.
* `Pair.present`: shows a completed pair on the console, or writes it to `solutionFile`,
  depending on the layout.
-/

namespace TwinSudoku.Pair

variable {m : Type → Type} [Monad m]

/-- The file that completed pairs are written to, in the working directory. -/
def solutionFile : String := "sudoku_soln.csv"

def fromFile (files : FileAccess m) (s : Size) (path : String) :
    m (Except InputError (Pair s)) := do
  match ← files.readText path with
  | .error e => return .error (.unreadable path e)
  | .ok text => return ofCsv s text

def toFile {s : Size} (files : FileAccess m) (path : String) (p : Pair s) :
    m (Except FileError Unit) :=
  files.save path p.toCsv

def present {s : Size} (files : FileAccess m) (console : String → m Unit) (layout : Layout)
    (p : Pair s) : m (Except FileError Unit) :=
  match layout with
  | .file => p.toFile files solutionFile
  | _ => do
    console (p.shown layout)
    return .ok ()

end TwinSudoku.Pair
