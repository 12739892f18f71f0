import TwinSudoku.Files.Error
import TwinSudoku.Text.Pieces

/-!
# Access to files

* `FileAccess m`: reading, writing and making a directory as operations of a monad `m`.
* `Path.parent?`: the directory that a path names something in. Empty parts of a path and
  single dots count for nothing, a dot at the start apart.
* `FileAccess.makeDirectories`: makes a directory and those it lies in, as far as they are
  missing.
* `FileAccess.readText`, `FileAccess.save`: the text of a file, and a file with a given text in
  directories that are made where they are missing.
-/

namespace TwinSudoku

/-- Operations on files. -/
structure FileAccess (m : Type → Type) where
  read : String → m (Except FileError ByteArray)
  /-- Makes the bytes those of a file, which is created or replaced. -/
  write : String → ByteArray → m (Except FileError Unit)
  /-- Makes a directory in one that there is. -/
  makeDirectory : String → m (Except FileError Unit)
  isDirectory : String → m Bool

namespace Path

def isAbsolute (path : String) : Bool := path.toList.head? == some '/'

def endsWithSlash (path : String) : Bool := path.toList.getLast? == some '/'

/-- The named parts of a path, single dots among them. -/
def parts (path : String) : List String :=
  ((Text.pieces '/' path.toList).filter (· != [])).map String.ofList

/-- Some parts of a path without those at the end that count for nothing. -/
def trimmed (parts : List (List Char)) : List (List Char) :=
  (parts.reverse.dropWhile fun part => part == [] || part == ['.']).reverse

/-- The directory that the path names something in, as it is written there, if it names
anything. -/
def parent? (path : String) : Option String :=
  match Text.pieces '/' path.toList with
  | [] => none
  | first :: rest =>
    match trimmed rest with
    | [] => if first = [] then none else some ""
    | counted =>
      match trimmed counted.dropLast with
      | [] => some (if first = [] then "/" else String.ofList first)
      | above => some (String.ofList (Text.joined ['/'] (first :: above)))

end Path

namespace FileAccess

variable {m : Type → Type} [Monad m]

/-- Makes a directory, unless there is one already. -/
def ensureDirectory (files : FileAccess m) (path : String) : m (Except FileError Unit) := do
  match ← files.makeDirectory path with
  | .ok () => return .ok ()
  | .error .notFound => return .error .notFound
  | .error e => return if ← files.isDirectory path then .ok () else .error e

/-- Makes a directory after those it lies in, at most `depth` of them. What has been made before
a failure stays. -/
def makeWithin (files : FileAccess m) : (depth : Nat) → (path : String) → m (Except FileError Unit)
  | depth, path => do
    if path = "" then return .ok ()
    match ← files.ensureDirectory path with
    | .error .notFound =>
      match depth, Path.parent? path with
      | depth + 1, some directory =>
        match ← files.makeWithin depth directory with
        | .error e => return .error e
        | .ok () => files.ensureDirectory path
      | _, _ => return .error .notFound
    | result => return result

/-- Makes a directory and those it lies in, as far as they are missing. -/
def makeDirectories (files : FileAccess m) (path : String) : m (Except FileError Unit) :=
  files.makeWithin (Path.parts path).length path

def readText (files : FileAccess m) (path : String) : m (Except FileError String) := do
  match ← files.read path with
  | .error e => return .error e
  | .ok bytes =>
    match String.fromUTF8? bytes with
    | some text => return .ok text
    | none => return .error .notText

/-- Makes the directories that a path lies in. -/
def makeParent (files : FileAccess m) (path : String) : m (Except FileError Unit) :=
  match Path.parent? path with
  | some directory => if directory = "" then return .ok () else files.makeDirectories directory
  | none => return .ok ()

/-- Writes a text into a file, and makes the directories it lies in before. -/
def save (files : FileAccess m) (path text : String) : m (Except FileError Unit) := do
  match ← files.makeParent path with
  | .error e => return .error e
  | .ok () => files.write path text.toUTF8

end FileAccess

end TwinSudoku
