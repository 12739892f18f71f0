import TwinSudoku.Pair.Basic

/-!
# The rules of twin sudoku

In each board every row, every column and every block holds every digit, on request both
diagonals too, and the two boards differ in every cell.

* `House`: the groups of cells that hold every digit, as lists of cells.
* `Pair.isSolution`: checks the rules group by group.
* `Pair.Solves`: the rules said of two cells at a time. It does not mention groups.
* `Pair.Extends`, `Pair.Completes`: a pair with all digits of another one, and such a pair
  that keeps the rules.
-/

namespace TwinSudoku

/-! ## Groups of cells -/

namespace House

/-- The cells of a row, from the left. -/
def row (s : Size) (g : Board) (r : Nat) : List Cell :=
  (List.range s.side).map fun c => ⟨g, r, c⟩

/-- The cells of a column, from the top. -/
def column (s : Size) (g : Board) (c : Nat) : List Cell :=
  (List.range s.side).map fun r => ⟨g, r, c⟩

/-- The cells of a block, row by row. Blocks are counted row by row too. -/
def block (s : Size) (g : Board) (b : Nat) : List Cell :=
  (List.range s.side).map fun i =>
    ⟨g, b / s.k * s.k + i / s.k, b % s.k * s.k + i % s.k⟩

/-- The cells of the diagonal from the top left. -/
def falling (s : Size) (g : Board) : List Cell := (List.range s.side).map fun i => ⟨g, i, i⟩

/-- The cells of the diagonal from the top right. -/
def rising (s : Size) (g : Board) : List Cell :=
  (List.range s.side).map fun i => ⟨g, i, s.side - 1 - i⟩

/-- The groups of a board; the diagonals are among them on request. -/
def all (s : Size) (diagonal : Bool) (g : Board) : List (List Cell) :=
  (List.range s.side).map (row s g) ++ (List.range s.side).map (column s g) ++
    (List.range s.side).map (block s g) ++ if diagonal then [falling s g, rising s g] else []

end House

namespace Pair

variable {s : Size}

/-- Each digit is held by exactly one cell of the group. -/
def holdsEach (p : Pair s) (cells : List Cell) : Bool :=
  s.digits.all fun d => cells.countP (fun c => p.digit c == d) == 1

/-- No cell holds the digit of its twin. -/
def differs (p : Pair s) : Bool :=
  (Cell.all s).all fun c => p.digit c != p.digit c.twin

/-- Checks a pair against all rules. -/
def isSolution (p : Pair s) (diagonal : Bool) : Bool :=
  p.isComplete && Board.all.all (fun g => (House.all s diagonal g).all p.holdsEach) && p.differs

/-! ## The rules by two cells -/

/-- Different cells related by `related` hold different digits. -/
def Distinct (p : Pair s) (related : Cell → Cell → Prop) : Prop :=
  ∀ c d : Cell, c.Inside s → d.Inside s → c ≠ d → c.board = d.board → related c d →
    p.digit c ≠ p.digit d

/-- The pair is complete and keeps the rules. -/
structure Solves (p : Pair s) (diagonal : Bool) : Prop where
  complete : ∀ c : Cell, c.Inside s → p.digit c ≠ 0
  row : p.Distinct fun c d => c.row = d.row
  column : p.Distinct fun c d => c.col = d.col
  block : p.Distinct fun c d =>
    s.blockStart c.row = s.blockStart d.row ∧ s.blockStart c.col = s.blockStart d.col
  falling : diagonal → p.Distinct fun c d => c.row = c.col ∧ d.row = d.col
  rising : diagonal → p.Distinct fun c d =>
    c.row + c.col + 1 = s.side ∧ d.row + d.col + 1 = s.side
  twin : ∀ c : Cell, c.Inside s → p.digit c ≠ p.digit c.twin

/-- The pair holds every digit of the other one, which may have another size, in its place. -/
def Extends (q : Pair s) {e : Size} (p : Pair e) : Prop :=
  ∀ c : Cell, p.digit c ≠ 0 → q.digit c = p.digit c

/-- The pair keeps the rules and holds every digit of the other one in its place. -/
def Completes (q : Pair s) (diagonal : Bool) {e : Size} (p : Pair e) : Prop :=
  q.isSolution diagonal ∧ q.Extends p

end Pair

end TwinSudoku
