import TwinSudoku.Logic.OneHot
import TwinSudoku.Numbering
import TwinSudoku.Pair.Rules

/-!
# The rules as clauses

The rules of twin sudoku over the variables of `Size.number`, in families:

* every cell holds exactly one digit,
* every digit is held exactly once in every row, column and block, and on request in both
  diagonals,
* no digit is held by a cell and its twin.

`exactlyOne` gives the clauses for one list of literals, `Part.clauses` those that speak of one
board or of both together, each with its family and in a fixed order; `ClauseSet` collects the
clauses of several parts and counts them by family; `ClauseSet.rules` collects all of them.
-/

namespace TwinSudoku

/-- What a clause is for. -/
inductive Family
  | cell
  | row
  | column
  | block
  | diagonal
  | twin
deriving DecidableEq

/-- The number of clauses of each family. -/
structure FamilyCounts where
  cell : Nat
  row : Nat
  column : Nat
  block : Nat
  diagonal : Nat
  twin : Nat
deriving DecidableEq

namespace FamilyCounts

/-- No clauses. -/
def zero : FamilyCounts := ⟨0, 0, 0, 0, 0, 0⟩

/-- One more clause of the family. -/
def count (n : FamilyCounts) : Family → FamilyCounts
  | .cell => { n with cell := n.cell + 1 }
  | .row => { n with row := n.row + 1 }
  | .column => { n with column := n.column + 1 }
  | .block => { n with block := n.block + 1 }
  | .diagonal => { n with diagonal := n.diagonal + 1 }
  | .twin => { n with twin := n.twin + 1 }

/-- The number of clauses of all families. -/
def total (n : FamilyCounts) : Nat :=
  n.cell + n.row + n.column + n.block + n.diagonal + n.twin

end FamilyCounts

/-- The least literal, since a literal is a word of 32 bits. -/
def leastLiteral : Int := -0x80000000

/-- Exactly one of the literals. Of every two of them one is denied, so with two of them each
needs an opposite. -/
def exactlyOne (literals : List Int) : Except Misuse (List Clause) :=
  if 2 ≤ literals.length ∧ leastLiteral ∈ literals then .error .noOpposite
  else .ok (oneHot literals)

/-- What a part of the rules speaks of. -/
inductive Part
  /-- The rules of one board. -/
  | board (g : Board)
  /-- That the boards differ. -/
  | twins
deriving DecidableEq

namespace Part

/-- A clause with its family. -/
abbrev Labelled := Family × Clause

variable (s : Size)

/-- The literal that asserts that the cell holds the digit. -/
def holdsDigit (d : Nat) (c : Cell) : Int := (s.number c d : Int)

/-- Exactly one of the literals. -/
def one (family : Family) (literals : List Int) : List Labelled :=
  (oneHot literals).map fun clause => (family, clause)

/-- Exactly one cell of the house holds the digit. -/
def once (family : Family) (house : List Cell) (d : Nat) : List Labelled :=
  one family (house.map (holdsDigit s d))

/-- Every cell holds exactly one digit. -/
def cells (g : Board) : List Labelled :=
  (List.range s.side).flatMap fun r =>
    (House.row s g r).flatMap fun c => one .cell (s.digits.map (holdsDigit s · c))

/-- Every digit is held once in every row and in every column. -/
def lines (g : Board) : List Labelled :=
  (List.range s.side).flatMap fun i => s.digits.flatMap fun d =>
    once s .row (House.row s g i) d ++ once s .column (House.column s g i) d

/-- Every digit is held once in every block. -/
def blocks (g : Board) : List Labelled :=
  (List.range s.side).flatMap fun b => s.digits.flatMap (once s .block (House.block s g b))

/-- Every digit is held once in both diagonals. -/
def diagonals (g : Board) : List Labelled :=
  s.digits.flatMap fun d =>
    once s .diagonal (House.falling s g) d ++ once s .diagonal (House.rising s g) d

/-- No digit is held by a cell and its twin. -/
def differences : List Labelled :=
  (List.range s.side).flatMap fun r => (House.row s .a r).flatMap fun c =>
    s.digits.map fun d => (.twin, [-holdsDigit s d c, -holdsDigit s d c.twin])

/-- The clauses of a part, with their families. -/
def labelled (diagonal : Bool) : Part → List Labelled
  | board g =>
    cells s g ++ lines s g ++ blocks s g ++ if diagonal then diagonals s g else []
  | twins => differences s

/-- The clauses of a part. -/
def clauses (diagonal : Bool) (part : Part) : List Clause :=
  (part.labelled s diagonal).map Prod.snd

end Part

/-- Clauses collected part by part, and their number by family. -/
structure ClauseSet where
  clauses : List Clause
  counts : FamilyCounts

namespace ClauseSet

/-- No clauses. -/
def empty : ClauseSet := ⟨[], .zero⟩

/-- The clauses together with those of one more part. -/
def add (s : Size) (diagonal : Bool) (set : ClauseSet) (part : Part) : ClauseSet :=
  let labelled := part.labelled s diagonal
  ⟨set.clauses ++ labelled.map Prod.snd,
    labelled.foldl (fun n clause => n.count clause.1) set.counts⟩

/-- The clauses of several parts, in order. -/
def ofParts (s : Size) (diagonal : Bool) (parts : List Part) : ClauseSet :=
  parts.foldl (add s diagonal) empty

/-- The parts that together are all rules. -/
def allParts : List Part := [.board .a, .board .b, .twins]

/-- All rules. -/
def rules (s : Size) (diagonal : Bool) : ClauseSet := ofParts s diagonal allParts

end ClauseSet

end TwinSudoku
