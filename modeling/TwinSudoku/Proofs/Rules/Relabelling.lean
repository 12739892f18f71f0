import Mathlib.Logic.Equiv.Basic
import TwinSudoku.Proofs.Rules.Solutions

/-!
# Relabelling the digits

The rules ask only which cells hold the same digit. So a permutation of the digits, in both boards
at once, makes a solution from a solution. Two digits that a pair does not hold at all can be
exchanged in any of its completions; hence a pair with a single completion lacks at most one digit.

* `Pair.relabel`: each digit replaced by another one, `Pair.isSolution_relabel`: by a permutation.
* `Pair.HasAllButOne`: all digits are there except at most one.
* `Pair.hasAllButOne_of_unique`: the exchange.
* `Pair.HasAllButOne.side_le`: so many digits need as many cells.
-/

namespace TwinSudoku

namespace Size

variable {s : Size}

/-- Digits to digits, and different ones to different ones: so the digits are permuted. -/
theorem perm_map_of_inj {π : Nat → Nat} (hmem : ∀ d ∈ s.digits, π d ∈ s.digits)
    (hinj : ∀ d ∈ s.digits, ∀ e ∈ s.digits, π d = π e → d = e) :
    (s.digits.map π).Perm s.digits := by
  have hsub : s.digits.map π ⊆ s.digits := by
    intro d hd
    obtain ⟨x, hx, rfl⟩ := List.mem_map.1 hd
    exact hmem x hx
  have hnodup : (s.digits.map π).Nodup := by
    rw [List.nodup_map_iff_inj_on s.nodup_digits]
    exact hinj
  exact (List.subperm_of_subset hnodup hsub).perm_of_length_le
    (Nat.le_of_eq (List.length_map _).symm)

/-- Exchanging two digits permutes the digits. -/
theorem perm_map_swap {a b : Nat} (ha : a ∈ s.digits) (hb : b ∈ s.digits) :
    (s.digits.map (Equiv.swap a b)).Perm s.digits := by
  apply perm_map_of_inj
  · intro d hd
    rw [Equiv.swap_apply_def]
    split
    · exact hb
    · split
      · exact ha
      · exact hd
  · intro d _ e _ heq
    exact (Equiv.swap a b).injective heq

end Size

namespace Pair

variable {s e : Size} {diagonal : Bool} {p : Pair s} {π : Nat → Nat}

/-- The pair with `π d` in place of each digit `d`. -/
def relabel (p : Pair s) (π : Nat → Nat) : Pair s :=
  ofView s fun c => if p.digit c = 0 then 0 else π (p.digit c)

theorem map_mem_digits (hπ : (s.digits.map π).Perm s.digits) {d : Nat} (hd : d ∈ s.digits) :
    π d ∈ s.digits :=
  hπ.mem_iff.1 (List.mem_map_of_mem hd)

theorem digit_relabel (hπ : (s.digits.map π).Perm s.digits) {c : Cell} (hc : p.digit c ≠ 0) :
    (p.relabel π).digit c = π (p.digit c) := by
  have hd := Size.mem_digits.1 (map_mem_digits hπ (digit_mem_digits.2 hc))
  rw [relabel, digit_ofView (inside_of_digit_ne_zero hc), if_neg hc]
  rw [if_neg hc]
  exact hd.2

theorem eq_of_map_eq (hπ : (s.digits.map π).Perm s.digits) {d e : Nat} (hd : d ∈ s.digits)
    (he : e ∈ s.digits) (h : π d = π e) : d = e :=
  List.inj_on_of_nodup_map (hπ.nodup_iff.2 s.nodup_digits) hd he h

/-- Different digits stay different. -/
theorem relabel_digit_ne (hπ : (s.digits.map π).Perm s.digits) {c d : Cell} (hc : p.digit c ≠ 0)
    (hd : p.digit d ≠ 0) (hne : p.digit c ≠ p.digit d) :
    (p.relabel π).digit c ≠ (p.relabel π).digit d := by
  rw [digit_relabel hπ hc, digit_relabel hπ hd]
  intro heq
  exact hne (eq_of_map_eq hπ (digit_mem_digits.2 hc) (digit_mem_digits.2 hd) heq)

/-- A permutation of the digits, in both boards at once, makes a solution from a solution. -/
theorem isSolution_relabel (hπ : (s.digits.map π).Perm s.digits) (hp : p.isSolution diagonal) :
    (p.relabel π).isSolution diagonal := by
  rw [isSolution_iff_solves] at hp ⊢
  have hdistinct {related : Cell → Cell → Prop} (h : p.Distinct related) :
      (p.relabel π).Distinct related := by
    intro c d hc hd hne hboard hrel
    exact relabel_digit_ne hπ (hp.complete c hc) (hp.complete d hd) (h c d hc hd hne hboard hrel)
  exact {
    complete := by
      intro c hc
      rw [digit_relabel hπ (hp.complete c hc)]
      have := Size.mem_digits.1 (map_mem_digits hπ (digit_mem_digits.2 (hp.complete c hc)))
      omega
    row := hdistinct hp.row
    column := hdistinct hp.column
    block := hdistinct hp.block
    falling := fun hdiag => hdistinct (hp.falling hdiag)
    rising := fun hdiag => hdistinct (hp.rising hdiag)
    twin := fun c hc => relabel_digit_ne hπ (hp.complete c hc)
      (hp.complete c.twin hc) (hp.twin c hc) }

/-! ## Digits that are not held -/

/-- Each board of a solution holds every digit. -/
theorem exists_digit_eq (hp : p.isSolution diagonal) (g : Board) {d : Nat} (hd : d ∈ s.digits) :
    ∃ c, c.board = g ∧ p.digit c = d := by
  have hrow := (isSolution_iff.1 hp).2.1 g _ (House.row_mem_all diagonal s.side_pos)
  have hcount : 0 < (House.row s g 0).countP fun c => p.digit c == d := by
    rw [holdsEach_iff.1 hrow d hd]
    exact Nat.one_pos
  obtain ⟨c, hmem, hc⟩ := List.countP_pos_iff.1 hcount
  exact ⟨c, (House.mem_row.1 hmem).1, eq_of_beq hc⟩

/-- Two digits that are not held can be exchanged in a completion. -/
theorem Completes.relabel_swap {q : Pair e} {r : Pair s} (hr : r.Completes diagonal q) {a b : Nat}
    (ha : a ∈ s.digits) (hb : b ∈ s.digits) (hqa : ∀ c, q.digit c ≠ a) (hqb : ∀ c, q.digit c ≠ b) :
    (r.relabel (Equiv.swap a b)).Completes diagonal q := by
  have hπ := Size.perm_map_swap ha hb
  refine ⟨isSolution_relabel hπ hr.1, fun c hc => ?_⟩
  have hrc := hr.2 c hc
  rw [digit_relabel hπ (hrc ▸ hc), hrc]
  exact Equiv.swap_apply_of_ne_of_ne (hqa c) (hqb c)

/-- All digits of a size are held, except at most one. -/
def HasAllButOne (q : Pair e) (s : Size) : Prop :=
  ∃ m, ∀ d ∈ s.digits, d ≠ m → ∃ c, q.digit c = d

/-- A pair with a single completion lacks at most one digit. -/
theorem hasAllButOne_of_unique {q : Pair e} (h : ∃! r : Pair s, r.Completes diagonal q) :
    q.HasAllButOne s := by
  obtain ⟨r, hr, hunique⟩ := h
  by_cases hall : ∀ d ∈ s.digits, ∃ c, q.digit c = d
  · exact ⟨0, fun d hd _ => hall d hd⟩
  · push Not at hall
    obtain ⟨m, hm, hqm⟩ := hall
    refine ⟨m, fun d hd hdm => ?_⟩
    by_contra hqd
    have hswap := hunique _ (hr.relabel_swap hm hd hqm (not_exists.1 hqd))
    -- the exchange is seen where the completion holds one of the two digits
    obtain ⟨c, -, hc⟩ := exists_digit_eq hr.1 .a hm
    have hrc : r.digit c ≠ 0 := by
      rw [hc]
      exact Nat.one_le_iff_ne_zero.1 (Size.mem_digits.1 hm).1
    have hdigit := digit_relabel (Size.perm_map_swap hm hd) hrc
    rw [hswap, hc, Equiv.swap_apply_left] at hdigit
    exact hdm hdigit.symm

theorem HasAllButOne.side_le {q : Pair e} (h : q.HasAllButOne s) : s.side - 1 ≤ q.filledCount := by
  obtain ⟨m, hm⟩ := h
  have hsub : s.digits.erase m ⊆ q.filled.map q.digit := by
    intro d hd
    obtain ⟨hne, hdigit⟩ := s.nodup_digits.mem_erase_iff.1 hd
    obtain ⟨c, rfl⟩ := hm d hdigit hne
    have hc : q.digit c ≠ 0 := Nat.one_le_iff_ne_zero.1 (Size.mem_digits.1 hdigit).1
    exact List.mem_map_of_mem (mem_filled.2 ⟨inside_of_digit_ne_zero hc, hc⟩)
  calc s.side - 1
    _ = s.digits.length - 1 := by rw [s.length_digits]
    _ ≤ (s.digits.erase m).length := List.le_length_erase
    _ ≤ (q.filled.map q.digit).length :=
      (List.subperm_of_subset (s.nodup_digits.erase m) hsub).length_le
    _ = q.filledCount := by rw [List.length_map, filledCount_eq_length_filled]

end Pair

end TwinSudoku
