import TwinSudoku.Pair.Drawing

/-!
# Showing pairs

* `Layout`: the ways to present a completed pair. Two of them show it on the console, with
  blocks set apart or with digits only; the third writes a file.
* `Pair.showBoard`, `Pair.shown`: a board, and both boards with an empty line between them.
  Digits of boards with ten rows or more take two places.
-/

namespace TwinSudoku

/-- A way to present a completed pair. -/
inductive Layout
  /-- Digits with a bar between blocks and a rule between bands of blocks. -/
  | framed
  | bare
  | file
deriving DecidableEq, Inhabited

namespace Layout

def index : Layout → Nat
  | framed => 0
  | bare => 1
  | file => 2

def ofIndex? : Nat → Option Layout
  | 0 => some framed
  | 1 => some bare
  | 2 => some file
  | _ => none

theorem ofIndex?_index (layout : Layout) : ofIndex? layout.index = some layout := by
  cases layout <;> rfl

end Layout

namespace Pair

variable {s : Size}

def shownValue (s : Size) (v : Nat) : String := padLeft s.digitWidth (toString v)

/-- Values with a blank between each two. -/
def shownValues (s : Size) (values : List Nat) : String :=
  " ".intercalate (values.map (shownValue s))

def shownRow (s : Size) (layout : Layout) (row : List Nat) : String :=
  match layout with
  | .framed => " | ".intercalate ((s.bands row).map (shownValues s))
  | _ => shownValues s row

/-- The width of the rule between bands: that of a row with its bars. -/
def ruleWidth (s : Size) : Nat :=
  2 * s.side + 2 * s.k - 3 + if 3 < s.k then s.side else 0

/-- The rule after the row with the given number, if there is one: after each band but the
last. -/
def ruleAfter (s : Size) (layout : Layout) (row : Nat) : String :=
  if layout = .framed ∧ (row + 1) % s.k = 0 ∧ row + 1 ≠ s.side then
    String.ofList (List.replicate (ruleWidth s) '-') ++ "\n"
  else ""

def showBoard (p : Pair s) (g : Board) (layout : Layout) : String :=
  String.join ((p.board g).zipIdx.map fun (values, row) =>
    shownRow s layout values ++ "\n" ++ ruleAfter s layout row)

def shown (p : Pair s) (layout : Layout) : String :=
  p.showBoard .a layout ++ "\n" ++ p.showBoard .b layout

end Pair

end TwinSudoku
