import TwinSudoku.Files.Access

/-!
# Files in memory

A store holds directories and files under a root. The working directory lies in the root.

* `Store.follow`: the place that a path leads to. Every part but the last has to lead to a
  directory; two dots lead to the directory above, or stay at the root.
* `Store.read`, `Store.write`, `Store.makeDirectory`, `Store.isDirectory`: the operations, each
  with the failure that an operating system would report.
* `Store.access`: the operations as `FileAccess`.
-/

namespace TwinSudoku

/-- What a store holds at a place. -/
inductive Node
  | file (content : ByteArray)
  | directory

/-- A place in a store: the names on the way from the root. -/
abbrev Place := List String

/-- Directories and files. -/
structure Store where
  nodes : List (Place × Node)

namespace Store

def home : Place := ["home"]

/-- The store with an empty working directory. -/
def empty : Store := ⟨[(home, .directory)]⟩

def node? (store : Store) (place : Place) : Option Node :=
  if place = [] then some .directory else store.nodes.lookup place

/-- The store with something at a place. -/
def put (store : Store) (place : Place) (node : Node) : Store :=
  ⟨(place, node) :: store.nodes.filter fun entry => entry.1 != place⟩

/-- The largest number of bytes of a name. -/
def maxName : Nat := 255

/-- The largest number of bytes of a path. -/
def maxPath : Nat := 4095

/-- Follows the parts of a path from a place on. -/
def follow (store : Store) (place : Place) : List String → Except FileError Place
  | [] => .ok place
  | part :: rest =>
    match store.node? place with
    | none => .error .notFound
    | some (.file _) => .error .notDirectory
    | some .directory =>
      if part = "." then store.follow place rest
      else if part = ".." then store.follow place.dropLast rest
      else if maxName < part.utf8ByteSize then .error .nameTooLong
      else store.follow (place ++ [part]) rest

/-- Refuses a path that no place can have. -/
def check (path : String) : Except FileError Unit :=
  if path.toList.contains '\x00' then .error .zeroInName
  else if path = "" then .error .notFound
  else if maxPath < path.utf8ByteSize then .error .nameTooLong
  else .ok ()

/-- The place from which a path starts. -/
def origin (path : String) : Place := if Path.isAbsolute path then [] else home

/-- The place that a path leads to; there need not be anything. -/
def locate (store : Store) (path : String) : Except FileError Place := do
  check path
  store.follow (origin path) (Path.parts path)

/-- What a path leads to. A path that ends with a slash leads to directories only. -/
def lookup (store : Store) (path : String) : Except FileError Node := do
  let place ← store.locate path
  match store.node? place with
  | none => throw .notFound
  | some (.file content) =>
    if Path.endsWithSlash path then throw .notDirectory else return .file content
  | some .directory => return .directory

def read (store : Store) (path : String) : Except FileError ByteArray := do
  match ← store.lookup path with
  | .file content => return content
  | .directory => throw .isDirectory

def isDirectory (store : Store) (path : String) : Bool :=
  match store.lookup path with
  | .ok .directory => true
  | _ => false

/-- The directory that the last part of a path is looked up in. -/
def enter (store : Store) (path : String) : Except FileError Place := do
  check path
  let place ← store.follow (origin path) (Path.parts path).dropLast
  match store.node? place with
  | none => throw .notFound
  | some (.file _) => throw .notDirectory
  | some .directory => return place

/-- The store with a file written. A path that ends with a slash names no file, whatever its
last part is. -/
def write (store : Store) (path : String) (content : ByteArray) : Except FileError Store := do
  let directory ← store.enter path
  if Path.endsWithSlash path then throw .isDirectory
  let place ← store.follow directory ((Path.parts path).getLast?.toList)
  match store.node? place with
  | some .directory => throw .isDirectory
  | _ => return store.put place (.file content)

/-- The store with one more directory. -/
def makeDirectory (store : Store) (path : String) : Except FileError Store := do
  let place ← store.locate path
  match store.node? place with
  | some _ => throw .alreadyExists
  | none => return store.put place .directory

/-- A change of a store. A failure changes nothing. -/
def change (step : Store → Except FileError Store) : StateM Store (Except FileError Unit) :=
  fun store =>
    match step store with
    | .ok store => (.ok (), store)
    | .error e => (.error e, store)

def access : FileAccess (StateM Store) where
  read path := fun store => (store.read path, store)
  write path content := change (·.write path content)
  makeDirectory path := change (·.makeDirectory path)
  isDirectory path := fun store => (store.isDirectory path, store)

end Store

end TwinSudoku
