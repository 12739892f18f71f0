import TwinSudoku.Text.Pieces

/-!
# Universally unique identifiers

* `Uuid.written`: 32 lower case hexadecimal digits, with hyphens into groups of 8, 4, 4, 4 and
  12.
* `Uuid.ofRandom`: an identifier of the kind that is drawn at random.
* `Uuid.ofText?`: reads that form, with capitals too, also in braces or after `urn:uuid:`
  in any case, and the digits without hyphens.
-/

namespace TwinSudoku

abbrev HexDigit := Fin 16

/-- The last hexadecimal digit of a number. -/
def HexDigit.ofNat (n : Nat) : HexDigit := ⟨n % 16, Nat.mod_lt n (by decide)⟩

/-- An identifier of 32 hexadecimal digits. -/
structure Uuid where
  digits : List HexDigit
  length_digits : digits.length = 32
deriving DecidableEq

namespace Uuid

def zero : Uuid := ⟨List.replicate 32 (.ofNat 0), List.length_replicate⟩

instance : Inhabited Uuid := ⟨zero⟩

/-- The random identifier with the given digits, but for the two that tell of its kind. -/
def ofRandom (digit : Nat → HexDigit) : Uuid :=
  ⟨(List.range 32).map fun i =>
      if i = 12 then .ofNat 4 else if i = 16 then .ofNat (8 + (digit i).val % 4) else digit i,
    by simp⟩

/-- The lengths of the groups of digits. -/
def groups : List Nat := [8, 4, 4, 4, 12]

/-- A list cut into groups of the given lengths. -/
def cut {α : Type} : List Nat → List α → List (List α)
  | [], _ => []
  | n :: rest, xs => xs.take n :: cut rest (xs.drop n)

/-- The digits with hyphens between the groups. -/
def written (id : Uuid) : List Char :=
  Text.joined ['-'] (cut groups (id.digits.map fun d => Nat.digitChar d.val))

def digit? (c : Char) : Option HexDigit :=
  if c.isDigit then some (.ofNat (c.toNat - '0'.toNat))
  else if 'a' ≤ c ∧ c ≤ 'f' then some (.ofNat (c.toNat - 'a'.toNat + 10))
  else if 'A' ≤ c ∧ c ≤ 'F' then some (.ofNat (c.toNat - 'A'.toNat + 10))
  else none

/-- The identifier with the given digits. -/
def ofDigits? (cs : List Char) : Option Uuid := do
  let digits ← cs.mapM digit?
  if h : digits.length = 32 then return ⟨digits, h⟩ else none

/-- The identifier with the given digits and hyphens. -/
def ofGroups? (cs : List Char) : Option Uuid :=
  let parts := Text.pieces '-' cs
  if parts.map List.length = groups then ofDigits? parts.flatten else none

/-- The identifier that a text writes. -/
def ofText? (cs : List Char) : Option Uuid :=
  if cs.length = 32 then ofDigits? cs
  else if cs.length = 38 ∧ cs.head? = some '\x7b' ∧ cs.getLast? = some '\x7d' then
    ofGroups? cs.tail.dropLast
  else if (cs.take 9).map Char.toLower = "urn:uuid:".toList then ofGroups? (cs.drop 9)
  else ofGroups? cs

end Uuid

end TwinSudoku
