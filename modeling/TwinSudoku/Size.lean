import TwinSudoku.InputError

/-!
# Block sizes

A board of block size `k` has `k²` rows and `k²` columns, is divided into blocks of `k` rows
and `k` columns, and is filled with the digits `1` to `k²`.

* `Size`: a block size from 1 to `maxBlock`.
* `Size.ofNat`: the sizes that a number can name, and the rejection of the others.
* `Size.side`, `Size.area`, `Size.variableCount`: the counts that follow from the block size.
-/

namespace TwinSudoku

/-- The largest block size. The number of clauses grows with the eighth power of the block
size, so that larger boards are out of reach of a search. -/
def maxBlock : Nat := 6

/-- The block size of a pair of boards. -/
@[ext] structure Size where
  /-- Rows and columns of a block. -/
  k : Nat
  one_le : 1 ≤ k
  le_max : k ≤ maxBlock
deriving DecidableEq

namespace Size

/-- The size of ordinary sudoku boards. -/
def standard : Size := ⟨3, by decide, by decide⟩

instance : Inhabited Size := ⟨standard⟩

/-- The size with the given block size, if there is one. -/
def ofNat (k : Nat) : Except InputError Size :=
  if h : 1 ≤ k ∧ k ≤ maxBlock then .ok ⟨k, h.1, h.2⟩ else .error (.invalidSize k maxBlock)

/-- The number of rows, of columns and of digits of a board. -/
def side (s : Size) : Nat := s.k * s.k

/-- The number of cells of a board. -/
def area (s : Size) : Nat := s.side * s.side

/-- The number of variables: one for each cell of the two boards and each digit. -/
def variableCount (s : Size) : Nat := 2 * (s.area * s.side)

/-- The first row, or column, of the block that the row or column `i` crosses. -/
def blockStart (s : Size) (i : Nat) : Nat := i - i % s.k

/-- The digits, in increasing order. -/
def digits (s : Size) : List Nat := List.range' 1 s.side

theorem k_pos (s : Size) : 0 < s.k := s.one_le

theorem side_pos (s : Size) : 0 < s.side := Nat.mul_pos s.k_pos s.k_pos

theorem area_pos (s : Size) : 0 < s.area := Nat.mul_pos s.side_pos s.side_pos

theorem side_le (s : Size) : s.side ≤ 36 := Nat.mul_le_mul s.le_max s.le_max

theorem area_le (s : Size) : s.area ≤ 1296 := Nat.mul_le_mul s.side_le s.side_le

theorem variableCount_le (s : Size) : s.variableCount ≤ 93312 :=
  Nat.mul_le_mul_left 2 (Nat.mul_le_mul s.area_le s.side_le)

@[simp] theorem mem_digits {s : Size} {d : Nat} : d ∈ s.digits ↔ 1 ≤ d ∧ d ≤ s.side := by
  rw [digits, List.mem_range'_1]
  omega

theorem length_digits (s : Size) : s.digits.length = s.side := by
  rw [digits, List.length_range']

end Size

end TwinSudoku
