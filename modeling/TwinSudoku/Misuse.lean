import TwinSudoku.Cell

/-!
# Calls outside an operation's domain

`Misuse` lists the arguments that an operation on boards, digits, cells, variables, literals or
counters does not take. An operation that meets one changes nothing. Reading or writing a cell
that the boards do not have is the one misuse without a text.
-/

namespace TwinSudoku

/-- An argument that an operation does not take. -/
inductive Misuse
  /-- There are two boards, numbered 0 and 1. -/
  | boardIndex (index : Nat)
  /-- The boards do not have this cell. -/
  | beyondBoards
  /-- The digit cannot be written into the cell. -/
  | digitRefused (digit : Nat) (cell : Cell)
  /-- The cell has no variables. -/
  | cellOutside (cell : Cell) (side : Nat)
  /-- No cell has a variable for this number as a digit. -/
  | digitOutside (digit side : Nat)
  /-- The number is not that of a variable. -/
  | variableOutside (number count : Nat)
  /-- The least literal of 32 bits has no opposite. -/
  | noOpposite
  /-- The sum of some counters does not fit 64 bits. -/
  | sumTooLarge
  /-- The puzzle has another size than the session. -/
  | sizeMismatch (puzzle session : Size)
deriving DecidableEq

/-- The text that shows a size. -/
def Size.described (s : Size) : String := "Dimension \x7b k: " ++ toString s.k ++ " \x7d"

namespace Misuse

/-- The text of a misuse, if it has one. -/
def message? : Misuse → Option String
  | boardIndex index => some ("grid index must be 0 or 1, got " ++ toString index)
  | beyondBoards => none
  | digitRefused digit cell =>
    some ("digit " ++ toString digit ++ " out of range for " ++ cell.name)
  | cellOutside cell side =>
    some ("cell " ++ cell.name ++ " outside a " ++ toString side ++ "x" ++ toString side ++
      " grid")
  | digitOutside digit side =>
    some ("digit " ++ toString digit ++ " outside 1..=" ++ toString side)
  | variableOutside number count =>
    some ("variable " ++ toString number ++ " outside 1..=" ++ toString count)
  | noOpposite => some "attempt to negate with overflow"
  | sumTooLarge => some "attempt to add with overflow"
  | sizeMismatch puzzle session =>
    some ("assertion `left == right` failed: puzzle dimension does not match the solver\n" ++
      "  left: " ++ puzzle.described ++ "\n right: " ++ session.described)

end Misuse

/-- The board with the given number. -/
def Board.ofIndex (index : Nat) : Except Misuse Board :=
  match Board.ofIndex? index with
  | some g => .ok g
  | none => .error (.boardIndex index)

end TwinSudoku
