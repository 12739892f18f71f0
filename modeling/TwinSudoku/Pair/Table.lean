import TwinSudoku.Pair.Basic

/-!
# Pairs from tables of numbers

* `Pair.ofBoards`, `Pair.ofRows`: the pair with the given rows, or the first defect of the
  table: the number of rows of the first board, its rows from the top, each with its length
  before its numbers, then the same for the second board. Rows of the second board are counted
  on from those of the first.
-/

namespace TwinSudoku.Pair

def rowDefect? (s : Size) (row : Nat) (values : List Nat) : Option InputError :=
  if values.length ≠ s.side then some (.columnCount row s.side values.length)
  else
    values.zipIdx.findSome? fun (value, col) =>
      if s.side < value then some (.digitOutOfRange row col value s.side) else none

/-- The first defect of the rows of a board, which are counted from `offset`. -/
def boardDefect? (s : Size) (offset : Nat) (rows : List (List Nat)) : Option InputError :=
  if rows.length ≠ s.side then some (.rowCount (2 * s.side) (offset + rows.length))
  else rows.zipIdx.findSome? fun (values, row) => rowDefect? s (offset + row) values

def tableView (a b : List (List Nat)) (c : Cell) : Nat :=
  let rows := match c.board with
    | .a => a
    | .b => b
  (rows[c.row]?.bind (·[c.col]?)).getD 0

/-- The pair with the given rows of its boards. -/
def ofBoards (s : Size) (a b : List (List Nat)) : Except InputError (Pair s) :=
  match (boardDefect? s 0 a).or (boardDefect? s s.side b) with
  | some defect => .error defect
  | none => .ok (ofView s (tableView a b))

/-- The pair with the given stacked rows. -/
def ofRows (s : Size) (rows : List (List Nat)) : Except InputError (Pair s) :=
  if rows.length ≠ 2 * s.side then .error (.rowCount (2 * s.side) rows.length)
  else ofBoards s (rows.take s.side) (rows.drop s.side)

end TwinSudoku.Pair
