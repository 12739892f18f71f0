import TwinSudoku.Pair.Basic

/-!
# Drawings of pairs

`Pair.drawing` shows both boards with their letters and row numbers, a bar between blocks and
a dot for an empty cell. Cells are as wide as the largest digit.
-/

namespace TwinSudoku

/-- A text with blanks before it, so that it has at least the given width. -/
def padLeft (width : Nat) (text : String) : String :=
  String.ofList (List.replicate (width - text.length) ' ') ++ text

/-- A text with blanks after it, so that it has at least the given width. -/
def padRight (width : Nat) (text : String) : String :=
  text ++ String.ofList (List.replicate (width - text.length) ' ')

/-- The number of places of the largest digit, which has at most two. -/
def Size.digitWidth (s : Size) : Nat := if 10 ≤ s.side then 2 else 1

/-- The blocks that a row crosses: its values in groups of the block size. -/
def Size.bands (s : Size) (row : List Nat) : List (List Nat) :=
  (List.range s.k).map fun b => (row.drop (b * s.k)).take s.k

namespace Pair

variable {s : Size}

def drawnValue (s : Size) (v : Nat) : String :=
  padLeft s.digitWidth (if v = 0 then "." else toString v)

def drawnRow (s : Size) (g : Board) (index : Nat) (row : List Nat) : String :=
  g.letter ++ padRight 2 (toString index) ++ "|" ++
    String.join ((s.bands row).map fun band =>
      " ".intercalate (band.map (drawnValue s)) ++ "|") ++ "\n"

def drawing (p : Pair s) : String :=
  "\n" ++ String.join (Board.all.map fun g =>
    String.join ((p.board g).zipIdx.map fun (row, index) => drawnRow s g index row) ++ "\n")

end Pair

end TwinSudoku
