import TwinSudoku.Json.Basic

/-!
# Typed data in JSON values

* `Json.fields?`: the fields of a record. It may be written as an object, where the order is
  free, unknown members count for nothing and a known one must not occur twice, or as an array
  of the fields in order, of which the last ones may be missing.
* `Json.natural?`, `Json.integer?`, `Json.bool?`, `Json.string?`: single values. A number counts
  as whole only where it is written without fraction and exponent, and a negative zero does
  not.
* `Json.record`, `Json.ofNat`, `Json.ofInt`, `Json.ofString`: the values to write.
-/

namespace TwinSudoku.Json

/-! ## Reading -/

/-- The value of a member that occurs at most once. -/
def member? (members : List (Text × Json)) (name : String) : Option (Option Json) :=
  match members.filter fun m => m.1 == .plain name with
  | [] => some none
  | [m] => some (some m.2)
  | _ => none

def Text.isPlain : Text → Bool
  | plain _ => true
  | unpaired _ => false

/-- The fields of a record with the given names, those that are missing as `none`. -/
def fields? (names : List String) : Json → Option (List (Option Json))
  | .object members =>
    if members.all fun m => m.1.isPlain then names.mapM (member? members) else none
  | .array items =>
    if items.length ≤ names.length then
      some (items.map some ++ List.replicate (names.length - items.length) none)
    else none
  | _ => none

def bool? : Json → Option Bool
  | .bool b => some b
  | _ => none

def string? : Json → Option String
  | .text (.plain s) => some s
  | _ => none

def natural? (bound : Nat) : Json → Option Nat
  | .number (.natural n) => if n < bound then some n else none
  | _ => none

def word64? (v : Json) : Option UInt64 := (natural? UInt64.size v).map UInt64.ofNat

def word32? (v : Json) : Option UInt32 := (natural? UInt32.size v).map UInt32.ofNat

def integer? : Json → Option Int
  | .number (.natural n) => some n
  | .number (.negative n) => some (-n)
  | _ => none

/-! ## Writing -/

def ofString (s : String) : Json := .text (.plain s)

def ofNat (n : Nat) : Json := .number (.natural n)

def ofInt (n : Int) : Json := .number (if n < 0 then .negative n.natAbs else .natural n.natAbs)

/-- A record as an object, its fields in order. -/
def record (fields : List (String × Json)) : Json :=
  .object (fields.map fun (name, v) => (.plain name, v))

end TwinSudoku.Json
