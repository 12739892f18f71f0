import TwinSudoku.Json.Escape
import TwinSudoku.Text.Decimal

/-!
# Printing JSON values

* `Json.compact` writes a value without white space.
* `Json.print` writes it over several lines: every item of an array and every member of an
  object on a line of its own, two blanks further in than the brackets around it.

The two differ only in what stands before an item and after a colon, so that one printer takes
the depth of the value, or `none` to leave white space out.
-/

namespace TwinSudoku.Json

def Number.written : Number → List Char
  | natural n => TwinSudoku.Text.digits n
  | negative n => '-' :: TwinSudoku.Text.digits n
  | other cs => cs

/-- The text of a string with its quotes. -/
def Text.written : Text → List Char
  | plain s => '"' :: encode s.toList ++ ['"']
  | unpaired cs => '"' :: cs ++ ['"']

/-- The start of a new line at the given depth. -/
def newLine : Option Nat → List Char
  | none => []
  | some depth => '\n' :: List.replicate (2 * depth) ' '

/-- What stands between a key and its value. -/
def colonMark : Option Nat → List Char
  | none => [':']
  | some _ => [':', ' ']

/-- The depth of what stands inside a value. -/
def inner (depth : Option Nat) : Option Nat := depth.map (· + 1)

mutual

/-- The text of a value that stands at the given depth. -/
def written (depth : Option Nat) : Json → List Char
  | .null => "null".toList
  | .bool true => "true".toList
  | .bool false => "false".toList
  | .number n => n.written
  | .text t => t.written
  | .array [] => ['[', ']']
  | .array (v :: rest) =>
    '[' :: newLine (inner depth) ++ written (inner depth) v ++ writtenItems (inner depth) rest ++
      newLine depth ++ [']']
  | .object [] => ['\x7b', '\x7d']
  | .object ((key, v) :: rest) =>
    '\x7b' :: newLine (inner depth) ++ key.written ++ colonMark depth ++
      written (inner depth) v ++ writtenMembers (inner depth) rest ++ newLine depth ++ ['\x7d']

/-- The text of the items after the first. -/
def writtenItems (depth : Option Nat) : List Json → List Char
  | [] => []
  | v :: rest => ',' :: newLine depth ++ written depth v ++ writtenItems depth rest

/-- The text of the members after the first. -/
def writtenMembers (depth : Option Nat) : List (Text × Json) → List Char
  | [] => []
  | (key, v) :: rest =>
    ',' :: newLine depth ++ key.written ++ colonMark depth ++ written depth v ++
      writtenMembers depth rest

end

/-- The text of a value over several lines. -/
def print (v : Json) : String := String.ofList (v.written (some 0))

/-- The text of a value without white space. -/
def compact (v : Json) : String := String.ofList (v.written none)

end TwinSudoku.Json
