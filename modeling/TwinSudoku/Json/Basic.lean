/-!
# JSON values

`Json` keeps apart what a reader of typed data has to tell apart: whole numbers from other
numbers, and texts from strings in which half of a surrogate pair stands alone. The latter are
well formed but are no texts; like the other numbers, they are kept as they are written.
-/

namespace TwinSudoku

/-- A JSON number. -/
inductive Json.Number
  | natural (n : Nat)
  /-- A minus sign and digits, other than zero. -/
  | negative (n : Nat)
  /-- A negative zero, or a number with a fraction or an exponent. -/
  | other (written : List Char)
deriving DecidableEq

/-- A JSON string. -/
inductive Json.Text
  | plain (text : String)
  | unpaired (written : List Char)
deriving DecidableEq

/-- A JSON value. -/
inductive Json
  | null
  | bool (b : Bool)
  | number (n : Json.Number)
  | text (t : Json.Text)
  | array (items : List Json)
  | object (members : List (Json.Text × Json))

end TwinSudoku
