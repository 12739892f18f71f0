import Mathlib.Data.List.Lex
import TwinSudoku.Pair.Rules
import TwinSudoku.Proofs.Numbering.Assignments

/-!
# The order of pairs and the order of assignments

Pairs are compared by their stacked rows, digit by digit from the top left. Assignments are compared
from the variable 1 upward, and one that makes a variable true comes before one that makes it false.
The numbering takes the one order to the other: where two complete pairs first differ, the variable
of the smaller digit comes before that of the larger one, and no earlier variable tells them apart.

* `Size.number_lt_number_iff`: variables are numbered by the place of the cell, then by the digit.
* `Cell.all_eq`, `Pair.flatten_rows`: rows one after the other list the cells in order.
* `Pair.flatten_rows_lt_iff`: the first place at which two pairs differ decides their order.
* `Assignment.Before`: the order of assignments on the variables up to a number.
* `Pair.flatten_rows_lt_iff_before`: two complete pairs are in the order of their assignments.
-/

namespace TwinSudoku

/-! ## Cells in the order of rows -/

theorem range_mul (m n : Nat) :
    List.range (m * n) = (List.range m).flatMap fun i => (List.range n).map fun j => i * n + j := by
  induction m with
  | zero => simp
  | succ m ih => rw [Nat.succ_mul, List.range_add, ih, List.range_succ, List.flatMap_append,
      List.flatMap_singleton]

/-- The cells of both boards in order are those of the rows, board by board and from the top. -/
theorem Cell.all_eq (s : Size) :
    Cell.all s = Board.all.flatMap fun g => (List.range s.side).flatMap (House.row s g) := by
  have hboard (g : Board) :
      ((List.range s.area).map fun i => Cell.ofPlace s (g.index * s.area + i)) =
        (List.range s.side).flatMap (House.row s g) := by
    rw [Size.area, range_mul, List.map_flatMap]
    refine List.flatMap_congr fun r hr => ?_
    rw [House.row, List.map_map]
    refine List.map_congr_left fun k hk => ?_
    exact Cell.ofPlace_place (c := ⟨g, r, k⟩) ⟨List.mem_range.1 hr, List.mem_range.1 hk⟩
  have hsplit : 2 * s.area = s.area + s.area := Nat.two_mul _
  rw [Cell.all, hsplit, List.range_add, List.map_append, List.map_map, Board.all,
    List.flatMap_cons, List.flatMap_singleton, ← hboard, ← hboard]
  simp [Board.index, Function.comp_def]

/-! ## Variables in order -/

/-- Variables are numbered by the place of the cell, and by the digit where the cells are the
same. -/
theorem Size.number_lt_number_iff {s : Size} {c c' : Cell} {d d' : Nat} (hd : d ∈ s.digits)
    (hd' : d' ∈ s.digits) :
    s.number c d < s.number c' d' ↔ c.place s < c'.place s ∨ c.place s = c'.place s ∧ d < d' := by
  have hdigit := mem_digits.1 hd
  have hdigit' := mem_digits.1 hd'
  have hstep {i j : Nat} (hij : i < j) : i * s.side + s.side ≤ j * s.side := by
    have := Nat.mul_le_mul_right s.side (Nat.succ_le_of_lt hij)
    rwa [Nat.succ_mul] at this
  rw [number, number]
  rcases Nat.lt_trichotomy (c.place s) (c'.place s) with hlt | heq | hgt
  · have := hstep hlt
    omega
  · rw [heq]
    omega
  · have := hstep hgt
    omega

/-! ## Pairs in order -/

theorem map_range_lt_map_range_iff {n : Nat} {f g : Nat → Nat} :
    (List.range n).map f < (List.range n).map g ↔
      ∃ i < n, (∀ j < i, f j = g j) ∧ f i < g i := by
  rw [List.lt_iff_exists]
  simp only [List.length_map, List.length_range, Nat.lt_irrefl, and_false, false_or,
    List.getElem_map, List.getElem_range]
  constructor
  · rintro ⟨i, hi, -, hsame, hlt⟩
    exact ⟨i, hi, hsame, hlt⟩
  · rintro ⟨i, hi, hsame, hlt⟩
    exact ⟨i, hi, hi, hsame, hlt⟩

namespace Pair

variable {s : Size} {p q : Pair s}

theorem flatten_board (p : Pair s) (g : Board) :
    (p.board g).flatten = ((List.range s.side).flatMap (House.row s g)).map p.digit := by
  rw [board, List.map_flatMap, List.flatMap_def]
  simp only [House.row, List.map_map, Function.comp_def]

/-- The rows one after the other hold what the cells hold in order. -/
theorem flatten_rows (p : Pair s) : p.rows.flatten = (Cell.all s).map p.digit := by
  rw [rows, List.flatten_append, flatten_board, flatten_board, Cell.all_eq, Board.all,
    List.flatMap_cons, List.flatMap_singleton, List.map_append]

theorem flatten_rows_inj (h : p.rows.flatten = q.rows.flatten) : p = q := by
  rw [flatten_rows, flatten_rows] at h
  refine ext_digit fun c hc => ?_
  exact List.map_inj_left.1 h c (Cell.mem_all.2 hc)

/-- Of two pairs that one comes first which has the smaller digit in the first cell where they
differ. -/
theorem flatten_rows_lt_iff :
    p.rows.flatten < q.rows.flatten ↔
      ∃ c : Cell, c.Inside s ∧ p.digit c < q.digit c ∧
        ∀ e : Cell, e.Inside s → e.place s < c.place s → p.digit e = q.digit e := by
  rw [flatten_rows, flatten_rows, Cell.all, List.map_map, List.map_map,
    map_range_lt_map_range_iff]
  constructor
  · rintro ⟨i, hi, hsame, hlt⟩
    refine ⟨Cell.ofPlace s i, Cell.ofPlace_inside, hlt, fun e he hplace => ?_⟩
    rw [Cell.place_ofPlace hi] at hplace
    have := hsame (e.place s) hplace
    rwa [Function.comp_apply, Function.comp_apply, Cell.ofPlace_place he] at this
  · rintro ⟨c, hc, hlt, hsame⟩
    refine ⟨c.place s, Cell.place_lt hc, fun j hj => ?_, ?_⟩
    · have hplace := Cell.place_ofPlace (Nat.lt_trans hj (Cell.place_lt hc))
      exact hsame _ Cell.ofPlace_inside (hplace.symm ▸ hj)
    · rwa [Function.comp_apply, Function.comp_apply, Cell.ofPlace_place hc]

end Pair

/-! ## Assignments in order -/

namespace Assignment

/-- Of the variables up to `n`, the first one of which two assignments differ is true in the one
that comes before. -/
def Before (n : Nat) (σ τ : Assignment) : Prop :=
  ∃ v, (1 ≤ v ∧ v ≤ n) ∧ σ v = true ∧ τ v = false ∧ ∀ u, 1 ≤ u → u < v → σ u = τ u

variable {m n : Nat} {σ τ : Assignment}

theorem Before.asymm (h : σ.Before n τ) : ¬ τ.Before n σ := by
  rintro ⟨w, hw, hτw, hσw, hbelow'⟩
  obtain ⟨v, hv, hσv, hτv, hbelow⟩ := h
  rcases Nat.lt_trichotomy v w with hlt | rfl | hgt
  · have := hbelow' v hv.1 hlt
    simp [hσv, hτv] at this
  · simp [hσv] at hσw
  · have := hbelow w hw.1 hgt
    simp [hτw, hσw] at this

theorem Before.mono (h : σ.Before m τ) (hmn : m ≤ n) : σ.Before n τ := by
  obtain ⟨v, hv, hrest⟩ := h
  exact ⟨v, ⟨hv.1, Nat.le_trans hv.2 hmn⟩, hrest⟩

/-- Assignments that agree on the variables up to `n` come before the same ones. -/
theorem Before.congr {σ' : Assignment} (h : σ.Before n τ)
    (hσ : ∀ v, 1 ≤ v → v ≤ n → σ v = σ' v) : σ'.Before n τ := by
  obtain ⟨v, hv, hσv, hτv, hbelow⟩ := h
  refine ⟨v, hv, ?_, hτv, fun u hu huv => ?_⟩
  · rw [← hσ v hv.1 hv.2, hσv]
  · rw [← hσ u hu (by omega), hbelow u hu huv]

end Assignment

/-! ## The two orders -/

namespace Pair

variable {s : Size} {p q : Pair s} {σ τ : Assignment}

/-- The variable of the smaller digit tells the assignments of two pairs apart, and no variable
before it does. -/
theorem before_of_flatten_rows_lt (hp : ∀ c : Cell, c.Inside s → p.digit c ≠ 0)
    (hσ : p.EncodedBy σ) (hτ : q.EncodedBy τ) (h : p.rows.flatten < q.rows.flatten) :
    σ.Before s.variableCount τ := by
  obtain ⟨c, hc, hlt, hsame⟩ := flatten_rows_lt_iff.1 h
  have hd : p.digit c ∈ s.digits := digit_mem_digits.2 (hp c hc)
  have hvar := Size.hasVariable_number hc hd
  refine ⟨s.number c (p.digit c), hvar, ?_, ?_, fun u hu hlow => ?_⟩
  · exact (encodedBy_iff.1 hσ c hc _ hd).2 rfl
  · rw [← Bool.not_eq_true, encodedBy_iff.1 hτ c hc _ hd]
    omega
  · -- an earlier variable speaks of an earlier cell, or of a smaller digit of the same cell
    have hu' : s.HasVariable u := ⟨hu, Nat.le_trans (Nat.le_of_lt hlow) hvar.2⟩
    have he := Size.cellDigit_inside (s := s) (v := u)
    have he' := Size.cellDigit_mem_digits (s := s) (v := u)
    rw [← Size.number_cellDigit hu'] at hlow ⊢
    rw [Bool.eq_iff_iff, encodedBy_iff.1 hσ _ he _ he', encodedBy_iff.1 hτ _ he _ he']
    rcases (Size.number_lt_number_iff he' hd).1 hlow with hplace | ⟨hplace, hdigit⟩
    · rw [hsame _ he hplace]
    · rw [Cell.place_injective he hc hplace]
      omega

/-- Two complete pairs are in the same order as the assignments that encode them. -/
theorem flatten_rows_lt_iff_before (hp : ∀ c : Cell, c.Inside s → p.digit c ≠ 0)
    (hq : ∀ c : Cell, c.Inside s → q.digit c ≠ 0) (hσ : p.EncodedBy σ) (hτ : q.EncodedBy τ) :
    p.rows.flatten < q.rows.flatten ↔ σ.Before s.variableCount τ := by
  constructor
  · exact before_of_flatten_rows_lt hp hσ hτ
  · intro hbefore
    rcases lt_trichotomy p.rows.flatten q.rows.flatten with hlt | heq | hgt
    · exact hlt
    · obtain rfl := flatten_rows_inj heq
      obtain ⟨v, hv, hσv, hτv, -⟩ := hbefore
      rw [← Bool.not_eq_true, hτ v hv, ← hσ v hv] at hτv
      exact absurd hσv hτv
    · exact absurd hbefore (before_of_flatten_rows_lt hq hτ hσ hgt).asymm

end Pair

end TwinSudoku
