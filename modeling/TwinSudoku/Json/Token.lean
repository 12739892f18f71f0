import TwinSudoku.Json.Escape
import TwinSudoku.Text.Decimal

/-!
# JSON tokens

* `Json.Number.ofText?`: the number that a text writes, by the grammar of JSON numbers.
* `Json.tokens?`: the tokens of a text, if it has no other characters outside strings. A run of
  letters has to be one of the three words, and a run of the characters of numbers has to be one
  number.
-/

namespace TwinSudoku.Json

/-! ## Numbers -/

/-- Digits without a needless zero in front. -/
def wholePart (digits : List Char) : Bool :=
  match digits with
  | [] => false
  | ['0'] => true
  | c :: _ => c != '0'

/-- What may follow the mark of an exponent: digits, perhaps after a sign. -/
def exponentDigits (cs : List Char) : Bool :=
  let digits := match cs with
    | '+' :: rest => rest
    | '-' :: rest => rest
    | _ => cs
  digits != [] && digits.all Char.isDigit

def exponentPart : List Char → Bool
  | [] => true
  | c :: rest => (c == 'e' || c == 'E') && exponentDigits rest

/-- What may follow the digits of a number that is not whole: a fraction, an exponent, or both. -/
def fractionPart : List Char → Bool
  | '.' :: rest => rest.takeWhile Char.isDigit != [] && exponentPart (rest.dropWhile Char.isDigit)
  | rest => exponentPart rest

def Number.ofText? (written : List Char) : Option Number :=
  let unsigned := match written with
    | '-' :: rest => rest
    | _ => written
  let minus := written.head? == some '-'
  let whole := unsigned.takeWhile Char.isDigit
  let rest := unsigned.dropWhile Char.isDigit
  if !wholePart whole then none
  else if rest = [] then
    let n := Nat.ofDigitChars 10 whole 0
    if !minus then some (.natural n)
    else if n = 0 then some (.other written)
    else some (.negative n)
  else if fractionPart rest then some (.other written)
  else none

/-! ## Tokens -/

/-- A token. -/
inductive Token
  | openArray
  | closeArray
  | openObject
  | closeObject
  | comma
  | colon
  | word (value : Option Bool)
  | number (n : Number)
  | text (t : Text)
deriving DecidableEq

/-- The sign that is a token by itself. -/
def sign? : Char → Option Token
  | '[' => some .openArray
  | ']' => some .closeArray
  | '\x7b' => some .openObject
  | '\x7d' => some .closeObject
  | ',' => some .comma
  | ':' => some .colon
  | _ => none

def isSpace (c : Char) : Bool := c == ' ' || c == '\t' || c == '\n' || c == '\r'

def isNumeric (c : Char) : Bool :=
  c.isDigit || c == '-' || c == '+' || c == '.' || c == 'e' || c == 'E'

/-- The token that is begun. What has been read of it is kept in reverse. -/
inductive Pending
  | nothing
  | text (written : List Char)
  | escape (written : List Char)
  | number (written : List Char)
  | word (written : List Char)

/-- The three words: the truth values, and the word for no value. -/
def word? (letters : List Char) : Option Token :=
  if letters = "true".toList then some (.word (some true))
  else if letters = "false".toList then some (.word (some false))
  else if letters = "null".toList then some (.word none)
  else none

/-- The state of reading: the token begun, and the finished ones in reverse. -/
abbrev Lexing := Pending × List Token

/-- Reads a character that does not belong to a token begun before. -/
def beginToken (done : List Token) (c : Char) : Option Lexing :=
  if isSpace c then some (.nothing, done)
  else if c = '"' then some (.text [], done)
  else if c.isDigit || c == '-' then some (.number [c], done)
  else if c.isLower then some (.word [c], done)
  else (sign? c).map fun token => (.nothing, token :: done)

def endToken : Lexing → Option (List Token)
  | (.nothing, done) => some done
  | (.number written, done) =>
    (Number.ofText? written.reverse).map fun n => .number n :: done
  | (.word written, done) => (word? written.reverse).map (· :: done)
  | (.text _, _) => none
  | (.escape _, _) => none

def readChar (state : Lexing) (c : Char) : Option Lexing :=
  match state with
  | (.text written, done) =>
    if c = '"' then (decode? written.reverse).map fun t => (.nothing, .text t :: done)
    else if c = '\\' then some (.escape (c :: written), done)
    else if c.toNat < 0x20 then none
    else some (.text (c :: written), done)
  | (.escape written, done) => some (.text (c :: written), done)
  | (.number written, done) =>
    if isNumeric c then some (.number (c :: written), done)
    else (endToken state).bind (beginToken · c)
  | (.word written, done) =>
    if c.isLower then some (.word (c :: written), done)
    else (endToken state).bind (beginToken · c)
  | (.nothing, done) => beginToken done c

def tokens? (cs : List Char) : Option (List Token) := do
  let state ← cs.foldlM readChar (.nothing, [])
  return (← endToken state).reverse

end TwinSudoku.Json
