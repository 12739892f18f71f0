import TwinSudoku.Logic.Model
import TwinSudoku.Pair.Basic

/-!
# Variables for cells and digits

For each cell of the two boards and each digit there is the variable that says that the cell
holds the digit. Variables are numbered from 1 in the order of boards, rows, columns and
digits.

* `Size.number`: the number of a variable. `Size.variableOf` refuses a cell or a digit that
  has none, `Size.meaningOf` a number that no variable has.
* `Size.givens`: the literals that assert what a pair holds.
* `Pair.write`: a pair with the digits that a model asserts. Where it asserts several for a
  cell, the largest one stays.
-/

namespace TwinSudoku

namespace Size

/-- The number of the variable that says that the cell holds the digit. -/
def number (s : Size) (c : Cell) (d : Nat) : Nat := c.place s * s.side + d

/-- The cell and the digit that a number stands for. -/
def cellDigit (s : Size) (v : Nat) : Cell × Nat :=
  (Cell.ofPlace s ((v - 1) / s.side), (v - 1) % s.side + 1)

def HasVariable (s : Size) (v : Nat) : Prop := 1 ≤ v ∧ v ≤ s.variableCount

instance (s : Size) (v : Nat) : Decidable (s.HasVariable v) :=
  inferInstanceAs (Decidable (_ ∧ _))

/-- The variable for a cell and a digit, if they have one. -/
def variableOf (s : Size) (c : Cell) (d : Nat) : Except Misuse Nat :=
  if c.Inside s then
    if 1 ≤ d ∧ d ≤ s.side then .ok (s.number c d) else .error (.digitOutside d s.side)
  else .error (.cellOutside c s.side)

/-- The cell and the digit that a variable speaks of. -/
def meaningOf (s : Size) (v : Nat) : Except Misuse (Cell × Nat) :=
  if s.HasVariable v then .ok (s.cellDigit v) else .error (.variableOutside v s.variableCount)

/-- The literal that asserts that the cell holds the digit. -/
def asserted (s : Size) (c : Cell) (d : Nat) : Except Misuse Int :=
  (s.variableOf c d).map fun v => (v : Int)

/-- The literal that denies that the cell holds the digit. -/
def denied (s : Size) (c : Cell) (d : Nat) : Except Misuse Int :=
  (s.variableOf c d).map fun v => -(v : Int)

/-- The literals that assert what the filled cells of a pair hold. The pair may have another
size; a cell or digit that has no variable is refused. -/
def givens (s : Size) {e : Size} (p : Pair e) : Except Misuse (List Int) :=
  p.filled.mapM fun c => s.asserted c (p.digit c)

theorem number_pos {s : Size} {c : Cell} {d : Nat} (h : 1 ≤ d) : 0 < s.number c d := by
  rw [number]
  omega

theorem number_le {s : Size} {c : Cell} {d : Nat} (h : c.Inside s) (hd : d ≤ s.side) :
    s.number c d ≤ s.variableCount := by
  have hplace : c.place s * s.side + s.side ≤ 2 * s.area * s.side := by
    have := Nat.mul_le_mul_right s.side (Nat.succ_le_of_lt (Cell.place_lt h))
    rwa [Nat.succ_mul] at this
  rw [number, variableCount, ← Nat.mul_assoc]
  omega

theorem cellDigit_inside {s : Size} {v : Nat} : (s.cellDigit v).1.Inside s :=
  Cell.ofPlace_inside

theorem cellDigit_digit {s : Size} {v : Nat} :
    1 ≤ (s.cellDigit v).2 ∧ (s.cellDigit v).2 ≤ s.side :=
  ⟨Nat.le_add_left _ _, Nat.mod_lt _ s.side_pos⟩

theorem cellDigit_number {s : Size} {c : Cell} {d : Nat} (h : c.Inside s) (hd : 1 ≤ d)
    (hd' : d ≤ s.side) : s.cellDigit (s.number c d) = (c, d) := by
  have hpred : s.number c d - 1 = s.side * c.place s + (d - 1) := by
    rw [number, Nat.mul_comm]
    omega
  have hlt : d - 1 < s.side := by omega
  rw [cellDigit, hpred, Nat.mul_add_div s.side_pos, Nat.div_eq_of_lt hlt, Nat.add_zero,
    Nat.mul_add_mod, Nat.mod_eq_of_lt hlt, Cell.ofPlace_place h, Nat.sub_add_cancel hd]

theorem number_cellDigit {s : Size} {v : Nat} (h : s.HasVariable v) :
    s.number (s.cellDigit v).1 (s.cellDigit v).2 = v := by
  have hlt : (v - 1) / s.side < 2 * s.area := by
    refine (Nat.div_lt_iff_lt_mul s.side_pos).2 ?_
    have := h.2
    rw [variableCount, ← Nat.mul_assoc] at this
    have := h.1
    omega
  have hdm := Nat.div_add_mod (v - 1) s.side
  have hv := h.1
  rw [number, cellDigit, Cell.place_ofPlace hlt, Nat.mul_comm]
  omega

end Size

namespace Pair

variable {s : Size}

/-- The pair with a digit written into a cell, where a variable says so. -/
def writeVariable (p : Pair s) (v : Nat) : Pair s :=
  if s.HasVariable v then
    p.put (s.cellDigit v).1 Size.cellDigit_inside
      ⟨(s.cellDigit v).2, Nat.lt_succ_of_le Size.cellDigit_digit.2⟩
  else p

/-- The pair with the digits that the model asserts. -/
def write (p : Pair s) (m : Model) : Pair s := m.trueVariables.foldl writeVariable p

end Pair

end TwinSudoku
