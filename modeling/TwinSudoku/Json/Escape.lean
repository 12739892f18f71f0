import TwinSudoku.Json.Basic

/-!
# Escapes in JSON strings

* `Json.encode`: the written form of a text: quotes, backslashes and the characters below the
  blank are escaped, those without a short escape by their number, and all else stands as it
  is.
* `Json.decode?`: the string that a written form stands for, if its escapes are right.
-/

namespace TwinSudoku.Json

/-! ## Writing -/

def hex4 (n : Nat) : List Char :=
  [n / 4096 % 16, n / 256 % 16, n / 16 % 16, n % 16].map Nat.digitChar

/-- The letter of the short escape of a character. -/
def escapeLetter? (c : Char) : Option Char :=
  if c = '"' then some '"'
  else if c = '\\' then some '\\'
  else if c = '\x08' then some 'b'
  else if c = '\x0c' then some 'f'
  else if c = '\n' then some 'n'
  else if c = '\r' then some 'r'
  else if c = '\t' then some 't'
  else none

def encodeChar (c : Char) : List Char :=
  match escapeLetter? c with
  | some letter => ['\\', letter]
  | none => if c.toNat < 0x20 then '\\' :: 'u' :: hex4 c.toNat else [c]

def encode (cs : List Char) : List Char := cs.flatMap encodeChar

/-! ## Reading -/

def hexValue? (c : Char) : Option Nat :=
  if c.isDigit then some (c.toNat - '0'.toNat)
  else if 'a' ≤ c ∧ c ≤ 'f' then some (c.toNat - 'a'.toNat + 10)
  else if 'A' ≤ c ∧ c ≤ 'F' then some (c.toNat - 'A'.toNat + 10)
  else none

/-- The value of four hexadecimal digits. -/
def hex4? (a b c d : Char) : Option Nat := do
  return (((← hexValue? a) * 16 + (← hexValue? b)) * 16 + (← hexValue? c)) * 16 + (← hexValue? d)

/-- The character that the letter of a short escape stands for. -/
def unescapeLetter? : Char → Option Char
  | '"' => some '"'
  | '\\' => some '\\'
  | '/' => some '/'
  | 'b' => some '\x08'
  | 'f' => some '\x0c'
  | 'n' => some '\n'
  | 'r' => some '\r'
  | 't' => some '\t'
  | _ => none

/-- The numbers that a written form stands for: of characters, and of halves of surrogate
pairs. -/
def units? : List Char → Option (List Nat)
  | [] => some []
  | '\\' :: 'u' :: a :: b :: c :: d :: rest => do
    let n ← hex4? a b c d
    return n :: (← units? rest)
  | '\\' :: letter :: rest => do
    let c ← unescapeLetter? letter
    return c.toNat :: (← units? rest)
  | ['\\'] => none
  | c :: rest => do return c.toNat :: (← units? rest)

/-- The number is that of the first half of a surrogate pair. -/
def isHigh (n : Nat) : Bool := 0xd800 ≤ n && n ≤ 0xdbff

/-- The number is that of the second half of a surrogate pair. -/
def isLow (n : Nat) : Bool := 0xdc00 ≤ n && n ≤ 0xdfff

/-- The characters of some numbers, if all surrogates are paired. -/
def characters? : List Nat → Option (List Char)
  | [] => some []
  | [n] => if isHigh n || isLow n then none else some [Char.ofNat n]
  | n :: m :: rest =>
    if isHigh n then
      if isLow m then do
        return Char.ofNat (0x10000 + (n - 0xd800) * 0x400 + (m - 0xdc00)) :: (← characters? rest)
      else none
    else if isLow n then none
    else do return Char.ofNat n :: (← characters? (m :: rest))

/-- The string that a written form stands for. -/
def decode? (written : List Char) : Option Text := do
  let units ← units? written
  match characters? units with
  | some cs => return .plain (String.ofList cs)
  | none => return .unpaired written

end TwinSudoku.Json
