import TwinSudoku.Cell
import TwinSudoku.Json.Fields

/-!
# Cells as JSON records

A cell is a record of its board, given by the letter, its row and its column, both 64-bit
numbers. Instead of its letter a board may also be given as an object with the letter as its
only key and no value.
-/

namespace TwinSudoku

def Board.ofLetter? : String → Option Board
  | "A" => some .a
  | "B" => some .b
  | _ => none

/-- The board that a JSON value gives. -/
def Board.ofJson? : Json → Option Board
  | .text (.plain letter) => ofLetter? letter
  | .object [(.plain letter, .null)] => ofLetter? letter
  | _ => none

namespace Cell

def fieldNames : List String := ["grid", "row", "col"]

def toJson (c : Cell) : Json :=
  .record [("grid", .ofString c.board.letter), ("row", .ofNat c.row), ("col", .ofNat c.col)]

def ofJson? (v : Json) : Option Cell := do
  match ← v.fields? fieldNames with
  | [some board, some row, some col] =>
    return ⟨← Board.ofJson? board, (← row.word64?).toNat, (← col.word64?).toNat⟩
  | _ => none

end Cell

end TwinSudoku
