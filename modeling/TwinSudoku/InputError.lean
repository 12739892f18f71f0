import TwinSudoku.Files.Error
import TwinSudoku.Text.Quoted

/-!
# Rejected input

`InputError` lists the reasons for which a pair of boards, or the size of one, is rejected.
Rows and columns are counted from 0, the rows of the second board after those of the first.
-/

namespace TwinSudoku

/-- Why a pair of boards or its size was rejected. -/
inductive InputError
  /-- The file with the pair cannot be read. -/
  | unreadable (path : String) (cause : FileError)
  /-- The number of rows is wrong. -/
  | rowCount (expected found : Nat)
  /-- A row has a wrong number of columns. -/
  | columnCount (row expected found : Nat)
  /-- The text of a cell is no integer, or none of 64 bits. -/
  | notAnInteger (row col : Nat) (value : String)
  /-- A cell holds an integer that is neither 0 nor a digit. -/
  | digitOutOfRange (row col : Nat) (value : Int) (max : Nat)
  /-- There are no boards of this block size. -/
  | invalidSize (k max : Nat)
deriving DecidableEq

/-- Where a defect of a cell lies. -/
def InputError.position (row col : Nat) : String :=
  "row " ++ toString row ++ ", column " ++ toString col

/-- The text of a rejection. -/
def InputError.message : InputError → String
  | unreadable path cause => "failed to read " ++ path ++ ": " ++ cause.message
  | rowCount expected found =>
    "expected " ++ toString expected ++ " rows, found " ++ toString found
  | columnCount row expected found =>
    "row " ++ toString row ++ ": expected " ++ toString expected ++ " columns, found " ++
      toString found
  | notAnInteger row col value =>
    position row col ++ ": " ++ Text.quoted value ++ " is not an integer"
  | digitOutOfRange row col value max =>
    position row col ++ ": digit " ++ toString value ++ " is outside 0..=" ++ toString max
  | invalidSize k max =>
    "k must be between 1 and " ++ toString max ++ ", got " ++ toString k

end TwinSudoku
