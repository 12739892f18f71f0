import TwinSudoku.Numbering
import TwinSudoku.Random.Dice

/-!
# Random placements

A placement is a digit for a cell. A generator starts from a list of random placements, which
may repeat or contradict one another.

* `Placement.draw`: board, row, column and digit, drawn in this order.
* `Placement.drawSet`: between one and two times as many placements as a board has rows.
* `Pair.ofPlacements`: the pair with all placements made in order, a later one in place of an
  earlier one for the same cell.
-/

namespace TwinSudoku

/-- A digit for a cell of the boards. -/
structure Placement (s : Size) where
  cell : Cell
  digit : Nat
  inside : cell.Inside s
  one_le : 1 ≤ digit
  le_side : digit ≤ s.side

namespace Placement

variable {s : Size} {ρ : Type}

/-- The literal that asserts the placement. -/
def literal (placement : Placement s) : Int := (s.number placement.cell placement.digit : Int)

theorem literal_pos (placement : Placement s) : 0 < placement.literal :=
  Int.natCast_pos.2 (Size.number_pos placement.one_le)

theorem zero_not_mem_literals (placements : List (Placement s)) :
    0 ∉ placements.map literal := by
  rw [List.mem_map]
  rintro ⟨placement, -, hzero⟩
  exact absurd hzero (Int.ne_of_gt placement.literal_pos)

def draw (dice : Random.Dice ρ) (s : Size) : StateM ρ (Placement s) := do
  let board ← dice.draw 2 (by decide)
  let row ← dice.draw s.side s.side_pos
  let col ← dice.draw s.side s.side_pos
  let digit ← dice.draw s.side s.side_pos
  return {
    cell := ⟨if board.val = 0 then .a else .b, row.val, col.val⟩
    digit := 1 + digit.val
    inside := ⟨row.isLt, col.isLt⟩
    one_le := Nat.le_add_right 1 digit.val
    le_side := by have := digit.isLt; omega }

/-- Draws the given number of placements. -/
def drawMany (dice : Random.Dice ρ) (s : Size) : (n : Nat) → StateM ρ (List (Placement s))
  | 0 => return []
  | n + 1 => do
    let placement ← draw dice s
    let rest ← drawMany dice s n
    return placement :: rest

/-- Draws from as many placements as a board has rows to twice as many. -/
def drawSet (dice : Random.Dice ρ) (s : Size) : StateM ρ (List (Placement s)) := do
  let more ← dice.draw (s.side + 1) s.side.succ_pos
  drawMany dice s (s.side + more.val)

end Placement

namespace Pair

def place {s : Size} (p : Pair s) (placement : Placement s) : Pair s :=
  p.put placement.cell placement.inside ⟨placement.digit, Nat.lt_succ_of_le placement.le_side⟩

/-- The pair with all placements made, in order. -/
def ofPlacements {s : Size} (placements : List (Placement s)) : Pair s :=
  placements.foldl place (empty s)

end Pair

end TwinSudoku
