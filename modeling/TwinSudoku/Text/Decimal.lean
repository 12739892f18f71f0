/-!
# Decimal numbers

* `digits`: a natural number in decimal digits, without leading zeros.
* `natural?`: reads a nonempty text of ASCII digits, leading zeros allowed. It reads back
  what `digits` writes (`natural?_digits`).
* `integer64?`: the same with at most one sign before it, within the range of signed 64-bit
  integers.
* `natural64?`: the same with at most one plus sign before it, within the range of unsigned
  64-bit integers.
-/

namespace TwinSudoku.Text

/-- The decimal digits of a natural number. -/
def digits (n : Nat) : List Char := Nat.toDigits 10 n

/-- The number written by ASCII digits, if the text has at least one and nothing else. -/
def natural? (cs : List Char) : Option Nat :=
  if cs ≠ [] ∧ cs.all Char.isDigit then some (Nat.ofDigitChars 10 cs 0) else none

theorem digits_ne_nil (n : Nat) : digits n ≠ [] := Nat.toDigits_ne_nil

theorem isDigit_of_mem_digits {n : Nat} {c : Char} (h : c ∈ digits n) : c.isDigit :=
  Nat.isDigit_of_mem_toDigits (by decide) (by decide) h

theorem natural?_digits (n : Nat) : natural? (digits n) = some n := by
  rw [natural?, if_pos ⟨digits_ne_nil n, List.all_eq_true.2 fun c h => isDigit_of_mem_digits h⟩]
  exact congrArg some (Nat.ofDigitChars_toDigits (by decide) (by decide))

/-- An optional sign and a natural number. -/
def integer? : List Char → Option Int
  | '+' :: cs => (natural? cs).map fun n => (n : Int)
  | '-' :: cs => (natural? cs).map fun n => -(n : Int)
  | cs => (natural? cs).map fun n => (n : Int)

def least64 : Int := -0x8000000000000000

/-- The greatest signed 64-bit integer. -/
def greatest64 : Int := 0x7fffffffffffffff

/-- An optional sign and a natural number that together fit 64 bits. -/
def integer64? (cs : List Char) : Option Int :=
  (integer? cs).filter fun n => decide (least64 ≤ n ∧ n ≤ greatest64)

/-- An optional plus sign and a natural number that fits 64 bits. -/
def natural64? (cs : List Char) : Option UInt64 :=
  let unsigned := match cs with
    | '+' :: rest => rest
    | _ => cs
  (natural? unsigned).bind fun n =>
    if h : n < UInt64.size then some (UInt64.ofNatLT n h) else none

/-- The text of an integer: a minus sign if it is negative, then its digits. -/
def integerDigits (n : Int) : List Char :=
  if n < 0 then '-' :: digits n.natAbs else digits n.natAbs

end TwinSudoku.Text
