import TwinSudoku.Pair.Table
import TwinSudoku.Text.Blank
import TwinSudoku.Text.Decimal
import TwinSudoku.Text.Pieces

/-!
# Pairs as comma separated values

The stacked rows of a pair, one a line, with commas between the values.

* `Csv.write`: the text of a table of numbers.
* `Csv.table`: reads a table for a given size: lines of white space count for nothing, and so
  does white space around a value. The first defect is reported, rows before their values and
  values from the left.
* `Pair.toCsv`, `Pair.ofCsv`: the same for pairs.
-/

namespace TwinSudoku

namespace Csv

/-! ## Writing -/

def writeRow (values : List Nat) : List Char :=
  Text.joined [','] (values.map Text.digits) ++ ['\n']

def write (rows : List (List Nat)) : List Char := rows.flatMap writeRow

/-! ## Reading -/

/-- The lines that are not all white space. -/
def filledLines (text : List Char) : List (List Char) :=
  (Text.lines text).filter fun line => !Text.blank line

/-- The texts of the values of a line. -/
def valueTexts (line : List Char) : List (List Char) := (Text.pieces ',' line).map Text.trim

/-- The value at a position of the table. -/
def readValue (s : Size) (row : Nat) : List Char × Nat → Except InputError Nat
  | (text, col) =>
    match Text.integer64? text with
    | none => .error (.notAnInteger row col (String.ofList text))
    | some value =>
      if 0 ≤ value ∧ value ≤ s.side then .ok value.toNat
      else .error (.digitOutOfRange row col value s.side)

def readRow (s : Size) : List Char × Nat → Except InputError (List Nat)
  | (line, row) =>
    let texts := valueTexts line
    if texts.length ≠ s.side then .error (.columnCount row s.side texts.length)
    else texts.zipIdx.mapM (readValue s row)

def table (s : Size) (text : List Char) : Except InputError (List (List Nat)) :=
  let lines := filledLines text
  if lines.length ≠ 2 * s.side then .error (.rowCount (2 * s.side) lines.length)
  else lines.zipIdx.mapM (readRow s)

end Csv

namespace Pair

variable {s : Size}

def toCsv (p : Pair s) : String := String.ofList (Csv.write p.rows)

def ofCsv (s : Size) (text : String) : Except InputError (Pair s) := do
  ofRows s (← Csv.table s text.toList)

end Pair

end TwinSudoku
