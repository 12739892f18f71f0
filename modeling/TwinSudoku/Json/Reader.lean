import TwinSudoku.Json.Token

/-!
# Reading JSON values

`Json.parse?` reads a text that holds one value and nothing else. Tokens are taken one at a
time; the arrays and objects not yet closed are kept on a stack, so that values may nest to any
depth.
-/

namespace TwinSudoku.Json

/-- An array or object not yet closed, before its next value. Finished parts are in reverse. -/
inductive Frame
  | array (items : List Json)
  | object (members : List (Text × Json)) (key : Text)

/-- What has been read, and so what may follow. -/
inductive Reading
  | value (stack : List Frame)
  /-- An array has been opened: a value or its end follows. -/
  | firstItem (stack : List Frame)
  /-- An array has a value: a comma or its end follows. -/
  | afterItem (items : List Json) (stack : List Frame)
  /-- An object has been opened: a key or its end follows. -/
  | firstKey (stack : List Frame)
  | key (members : List (Text × Json)) (stack : List Frame)
  | colon (members : List (Text × Json)) (key : Text) (stack : List Frame)
  /-- An object has a member: a comma or its end follows. -/
  | afterMember (members : List (Text × Json)) (stack : List Frame)
  | done (v : Json)

/-- Adds a finished value to what has been read. -/
def supply (v : Json) : List Frame → Reading
  | [] => .done v
  | .array items :: stack => .afterItem (v :: items) stack
  | .object members key :: stack => .afterMember ((key, v) :: members) stack

def beginValue (stack : List Frame) : Token → Option Reading
  | .word (some b) => some (supply (.bool b) stack)
  | .word none => some (supply .null stack)
  | .number n => some (supply (.number n) stack)
  | .text t => some (supply (.text t) stack)
  | .openArray => some (.firstItem stack)
  | .openObject => some (.firstKey stack)
  | _ => none

def readToken : Reading → Token → Option Reading
  | .value stack, token => beginValue stack token
  | .firstItem stack, .closeArray => some (supply (.array []) stack)
  | .firstItem stack, token => beginValue (.array [] :: stack) token
  | .afterItem items stack, .comma => some (.value (.array items :: stack))
  | .afterItem items stack, .closeArray => some (supply (.array items.reverse) stack)
  | .firstKey stack, .closeObject => some (supply (.object []) stack)
  | .firstKey stack, .text t => some (.colon [] t stack)
  | .key members stack, .text t => some (.colon members t stack)
  | .colon members key stack, .colon => some (.value (.object members key :: stack))
  | .afterMember members stack, .comma => some (.key members stack)
  | .afterMember members stack, .closeObject => some (supply (.object members.reverse) stack)
  | _, _ => none

def ofTokens? (tokens : List Token) : Option Json :=
  match tokens.foldlM readToken (.value []) with
  | some (.done v) => some v
  | _ => none

def parse? (text : String) : Option Json := (tokens? text.toList).bind ofTokens?

end TwinSudoku.Json
