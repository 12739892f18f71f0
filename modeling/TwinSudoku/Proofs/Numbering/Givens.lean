import TwinSudoku.Pair.Rules
import TwinSudoku.Proofs.Clauses.OneHot
import TwinSudoku.Proofs.Numbering.Assignments
import TwinSudoku.Proofs.Runs

/-!
# Givens as assumptions

The digits of a pair are assumed in a query as literals. The pair may have another size than the
session, as long as its digits have variables there (`Pair.FitsIn`).

* `Size.misfit?`, `Pair.misfit?`: why there is no literal for a cell and a digit, and why there are
  none for a pair. `Size.denied_eq` and `Pair.givens_eq` give the literals, or this reason.
* `Pair.givens_of_fitsIn`: the literals of a pair whose digits have variables. None of them is zero.
* `Pair.meets_givens`: an assignment that encodes a pair meets them exactly when that pair has
  all the digits in their places.
* `Pair.holds_denial`: the literal that denies a digit of a cell.
-/

namespace TwinSudoku

namespace Size

variable {s : Size} {c : Cell} {d : Nat}

/-- Why a cell and a digit have no variable. The cell is looked at first. -/
def misfit? (s : Size) (c : Cell) (d : Nat) : Option Misuse :=
  if c.Inside s then
    if 1 ≤ d ∧ d ≤ s.side then none else some (.digitOutside d s.side)
  else some (.cellOutside c s.side)

theorem misfit?_eq_none_iff : s.misfit? c d = none ↔ c.Inside s ∧ d ∈ s.digits := by
  rw [misfit?, mem_digits]
  by_cases hc : c.Inside s <;> by_cases hd : 1 ≤ d ∧ d ≤ s.side <;> simp [hc, hd]

theorem variableOf_eq (s : Size) (c : Cell) (d : Nat) :
    s.variableOf c d = (s.misfit? c d).elim (.ok (s.number c d)) .error := by
  rw [variableOf, misfit?]
  split
  · split <;> rfl
  · rfl

theorem asserted_eq (s : Size) (c : Cell) (d : Nat) :
    s.asserted c d = (s.misfit? c d).elim (.ok (s.number c d : Int)) .error := by
  rw [asserted, variableOf_eq]
  cases s.misfit? c d <;> rfl

theorem denied_eq (s : Size) (c : Cell) (d : Nat) :
    s.denied c d = (s.misfit? c d).elim (.ok (-(s.number c d : Int))) .error := by
  rw [denied, variableOf_eq]
  cases s.misfit? c d <;> rfl

theorem asserted_of_inside (hc : c.Inside s) (hd : d ∈ s.digits) :
    s.asserted c d = .ok (s.number c d : Int) := by
  rw [asserted_eq, misfit?_eq_none_iff.2 ⟨hc, hd⟩, Option.elim_none]

theorem denied_of_inside (hc : c.Inside s) (hd : d ∈ s.digits) :
    s.denied c d = .ok (-(s.number c d : Int)) := by
  rw [denied_eq, misfit?_eq_none_iff.2 ⟨hc, hd⟩, Option.elim_none]

end Size

namespace Pair

variable {s e : Size}

/-- The digits of the pair have variables of the size. -/
def FitsIn (p : Pair e) (s : Size) : Prop :=
  ∀ c : Cell, p.digit c ≠ 0 → c.Inside s ∧ p.digit c ≤ s.side

theorem fitsIn_self (p : Pair s) : p.FitsIn s := fun c hc =>
  ⟨inside_of_digit_ne_zero hc, p.digit_le c⟩

theorem FitsIn.mem_digits {p : Pair e} (h : p.FitsIn s) {c : Cell} (hc : p.digit c ≠ 0) :
    p.digit c ∈ s.digits := Size.mem_digits.2 ⟨Nat.pos_of_ne_zero hc, (h c hc).2⟩

theorem FitsIn.mono {p q : Pair e} (h : p.FitsIn s)
    (hq : ∀ c, q.digit c = p.digit c ∨ q.digit c = 0) : q.FitsIn s := by
  intro c hc
  rcases hq c with heq | hzero
  · rw [heq] at hc ⊢
    exact h c hc
  · exact absurd hzero hc

/-- The literals that assert the digits of a pair. -/
def literals (p : Pair e) (s : Size) : List Int :=
  p.filled.map fun c => (s.number c (p.digit c) : Int)

/-- Why the digits of a pair cannot be assumed: the first of them that has no variable. -/
def misfit? (p : Pair e) (s : Size) : Option Misuse :=
  p.filled.findSome? fun c => s.misfit? c (p.digit c)

theorem misfit?_eq_none_iff {p : Pair e} : p.misfit? s = none ↔ p.FitsIn s := by
  simp only [misfit?, List.findSome?_eq_none_iff, Size.misfit?_eq_none_iff, mem_filled]
  constructor
  · intro h c hc
    obtain ⟨hin, hd⟩ := h c ⟨inside_of_digit_ne_zero hc, hc⟩
    exact ⟨hin, (Size.mem_digits.1 hd).2⟩
  · intro h c hc
    exact ⟨(h c hc.2).1, h.mem_digits hc.2⟩

theorem givens_eq (p : Pair e) (s : Size) :
    s.givens p = (p.misfit? s).elim (.ok (p.literals s)) .error :=
  mapM_of_defects fun c _ => s.asserted_eq c (p.digit c)

theorem zero_not_mem_literals (p : Pair e) (s : Size) : 0 ∉ p.literals s := by
  rw [literals, List.mem_map]
  rintro ⟨c, hc, hzero⟩
  have hpos : 0 < s.number c (p.digit c) :=
    Size.number_pos (Nat.one_le_iff_ne_zero.2 (mem_filled.1 hc).2)
  omega

/-- The digits of a pair and the denial of another digit. -/
theorem zero_not_mem_question (p : Pair e) (s : Size) (c : Cell) {d : Nat} (hd : 1 ≤ d) :
    0 ∉ p.literals s ++ [-(s.number c d : Int)] := by
  rw [List.mem_append, List.mem_singleton]
  rintro (hmem | hzero)
  · exact p.zero_not_mem_literals s hmem
  · have := s.number_pos (c := c) hd
    omega

/-- What is not refused has no zero among its literals. -/
theorem zero_not_mem_of_not_refused {p : Pair e} {c : Cell} {d : Nat} {givens : List Int}
    {denial : Int} (hgivens : s.givens p = .ok givens) (hdenial : s.denied c d = .ok denial) :
    0 ∉ givens ++ [denial] := by
  rw [givens_eq, elim_eq_ok_iff] at hgivens
  rw [Size.denied_eq, elim_eq_ok_iff] at hdenial
  obtain ⟨-, rfl⟩ := hgivens
  obtain ⟨hcell, rfl⟩ := hdenial
  exact p.zero_not_mem_question s c (Size.mem_digits.1 (Size.misfit?_eq_none_iff.1 hcell).2).1

theorem givens_of_fitsIn {p : Pair e} (h : p.FitsIn s) : s.givens p = .ok (p.literals s) := by
  rw [givens_eq, misfit?_eq_none_iff.2 h, Option.elim_none]

theorem meets_givens {p : Pair e} (h : p.FitsIn s) {q : Pair s} {σ : Assignment}
    (hq : q.EncodedBy σ) : Meets σ (p.literals s) ↔ q.Extends p := by
  have hencoded := encodedBy_iff.1 hq
  have hiff (c : Cell) (hc : p.digit c ≠ 0) :
      Literal.Holds σ (s.number c (p.digit c)) ↔ q.digit c = p.digit c := by
    have hin := (h c hc).1
    have hd := h.mem_digits hc
    rw [Literal.holds_natCast (Size.number_pos (Size.mem_digits.1 hd).1), hencoded c hin _ hd]
  simp only [Meets, literals, List.forall_mem_map, mem_filled]
  exact ⟨fun hall c hc => (hiff c hc).1 (hall c ⟨inside_of_digit_ne_zero hc, hc⟩),
    fun hext c hc => (hiff c hc.2).2 (hext c hc.2)⟩

theorem holds_denial {q : Pair s} {σ : Assignment} (hq : q.EncodedBy σ) {c : Cell} {d : Nat}
    (hc : c.Inside s) (hd : d ∈ s.digits) :
    Literal.Holds σ (-(s.number c d : Int)) ↔ q.digit c ≠ d := by
  rw [Literal.holds_neg_natCast (Size.number_pos (Size.mem_digits.1 hd).1), ← Bool.not_eq_true,
    encodedBy_iff.1 hq c hc d hd]

end Pair

end TwinSudoku
