import TwinSudoku.Text.Shapeless

/-!
# Quoted text

`quoted` writes a text between double quotes so that every character can be told: a quote or
a backslash has a backslash before it, the zero character, tab, line feed and carriage return
have short names, and any other shapeless character is given by its code point in
hexadecimal.
-/

namespace TwinSudoku.Text

/-- The written form of a character between quotes. -/
def escape (c : Char) : List Char :=
  if c = '\x00' then ['\\', '0']
  else if c = '\t' then ['\\', 't']
  else if c = '\r' then ['\\', 'r']
  else if c = '\n' then ['\\', 'n']
  else if c = '"' ∨ c = '\\' then ['\\', c]
  else if isShapeless c then "\\u\x7b".toList ++ Nat.toDigits 16 c.toNat ++ "\x7d".toList
  else [c]

def quoted (s : String) : String :=
  String.ofList ('"' :: s.toList.flatMap escape ++ ['"'])

end TwinSudoku.Text
