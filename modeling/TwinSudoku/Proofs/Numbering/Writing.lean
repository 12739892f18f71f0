import Mathlib.Data.List.Pairwise
import Mathlib.Order.Bounds.Basic
import TwinSudoku.Proofs.Numbering.Givens
import TwinSudoku.Proofs.Numbering.Words
import TwinSudoku.Proofs.Pair.Changes

/-!
# Writing the digits of literals

A model can be made from any literals: such as contradict each other, that are there twice, that
name no variable, that assert several digits for one cell or none. Nothing is assumed of them here.
The variables of a model are written in increasing order, so that of several digits for a cell the
largest one stays.

* `Size.Asserts`: the literal that the cell holds the digit is among the literals.
* `Pair.mem_speaking`: the variables of the model that speak of a cell are those of the digits that
  are asserted for it.
* `Pair.isGreatest_digit_write`, `Pair.digit_write_of_not_asserts`: what a cell holds afterwards.
* `Pair.write_keeps_greatest`: no digit of a model is refused, and the literals of the variables
  decide the outcome, whatever their order.
* `Pair.pairwise_literals`, `Pair.mem_literals_bounds`, `Pair.length_literals`: the literals of a
  pair.
* `Pair.givens_written_back`: written back, they give the pair, and over another one its digits.
-/

namespace TwinSudoku

/-! ## Asserted digits -/

namespace Size

variable {s : Size} {literals : List Int} {c : Cell} {d : Nat}

/-- The literal that the cell holds the digit is one of the literals. -/
def Asserts (s : Size) (literals : List Int) (c : Cell) (d : Nat) : Prop :=
  ∃ l ∈ literals, s.asserted c d = .ok l

theorem asserted_eq_ok_iff {l : Int} :
    s.asserted c d = .ok l ↔ c.Inside s ∧ d ∈ s.digits ∧ (s.number c d : Int) = l := by
  by_cases hin : c.Inside s ∧ d ∈ s.digits
  · rw [asserted_of_inside hin.1 hin.2, Except.ok.injEq]
    simp [hin]
  · obtain ⟨cause, hcause⟩ := Option.ne_none_iff_exists'.1 (mt misfit?_eq_none_iff.1 hin)
    rw [asserted_eq, hcause]
    constructor
    · intro h
      cases h
    · rintro ⟨hc, hd, -⟩
      exact absurd ⟨hc, hd⟩ hin

theorem asserts_iff :
    s.Asserts literals c d ↔ c.Inside s ∧ d ∈ s.digits ∧ (s.number c d : Int) ∈ literals := by
  simp only [Asserts, asserted_eq_ok_iff]
  constructor
  · rintro ⟨l, hl, hc, hd, rfl⟩
    exact ⟨hc, hd, hl⟩
  · rintro ⟨hc, hd, hl⟩
    exact ⟨_, hl, hc, hd, rfl⟩

/-- Only the literals of variables assert digits. -/
theorem Asserts.congr {others : List Int}
    (h : ∀ l : Int, 1 ≤ l → l ≤ s.variableCount → (l ∈ others ↔ l ∈ literals)) :
    s.Asserts others c d ↔ s.Asserts literals c d := by
  rw [asserts_iff, asserts_iff]
  refine and_congr_right fun hc => and_congr_right fun hd => ?_
  obtain ⟨hpos, hle⟩ := hasVariable_number hc hd
  apply h
  · omega
  · omega

end Size

namespace Pair

variable {s e : Size} {literals : List Int} {c : Cell} {v : Nat}

/-! ## The last variable of a cell -/

theorem isGreatest_of_getLast? {vs : List Nat} (h : vs.Pairwise (· < ·))
    (hv : vs.getLast? = some v) :
    IsGreatest {w | w ∈ vs} v := by
  have hle : vs.Pairwise (· ≤ ·) := h.imp Nat.le_of_lt
  constructor
  · exact List.mem_of_getLast? hv
  · intro w hw
    have hlast := hle.rel_getLast hw
    rw [List.getLast?_eq_some_getLast (List.ne_nil_of_mem hw), Option.some_inj] at hv
    rwa [hv] at hlast

/-- Of a model made from literals, the variables of a cell are those of the digits asserted for
it. -/
theorem mem_speaking :
    v ∈ (Model.ofLiterals literals).trueVariables.filter (SpeaksOf s c ·) ↔
      ∃ d, s.Asserts literals c d ∧ s.number c d = v := by
  rw [List.mem_filter, Model.mem_ofLiterals, decide_eq_true_eq, SpeaksOf]
  simp only [Size.asserts_iff]
  constructor
  · rintro ⟨⟨hpos, hmem⟩, hvar, rfl⟩
    have hnumber := Size.number_cellDigit hvar
    refine ⟨(s.cellDigit v).2, ⟨Size.cellDigit_inside, Size.cellDigit_mem_digits, ?_⟩, hnumber⟩
    rw [hnumber]
    exact hmem
  · rintro ⟨d, ⟨hc, hd, hmem⟩, rfl⟩
    have hvar := Size.hasVariable_number hc hd
    have hmeaning := Size.cellDigit_number_of_mem hc hd
    exact ⟨⟨hvar.1, hmem⟩, hvar, by rw [hmeaning]⟩

theorem pairwise_speaking :
    ((Model.ofLiterals literals).trueVariables.filter (SpeaksOf s c ·)).Pairwise (· < ·) :=
  (Model.ofLiterals literals).increasing.filter _

/-! ## What a cell holds afterwards -/

/-- Of the digits asserted for a cell the largest one stays. -/
theorem isGreatest_digit_write (p : Pair s) (h : ∃ d, s.Asserts literals c d) :
    IsGreatest {d | s.Asserts literals c d} ((p.write (.ofLiterals literals)).digit c) := by
  rw [digit_write]
  cases hlast : ((Model.ofLiterals literals).trueVariables.filter (SpeaksOf s c ·)).getLast? with
  | none =>
    -- the variable of a digit that is asserted would be among them
    obtain ⟨d, hd⟩ := h
    have hmem := mem_speaking.2 ⟨d, hd, rfl⟩
    rw [List.getLast?_eq_none_iff.1 hlast] at hmem
    exact absurd hmem List.not_mem_nil
  | some v =>
    obtain ⟨hv, hgreatest⟩ := isGreatest_of_getLast? pairwise_speaking hlast
    obtain ⟨d, hd, rfl⟩ := mem_speaking.1 hv
    obtain ⟨hc, hdigit, -⟩ := Size.asserts_iff.1 hd
    rw [Option.map_some, Option.getD_some, Size.cellDigit_number_of_mem hc hdigit]
    constructor
    · exact hd
    · intro e he
      have hle : s.number c e ≤ s.number c d := hgreatest (mem_speaking.2 ⟨e, he, rfl⟩)
      rw [Size.number, Size.number] at hle
      show e ≤ d
      omega

/-- A cell for which no digit is asserted holds what it held. -/
theorem digit_write_of_not_asserts (p : Pair s) (h : ¬ ∃ d, s.Asserts literals c d) :
    (p.write (.ofLiterals literals)).digit c = p.digit c := by
  have hnil : (Model.ofLiterals literals).trueVariables.filter (SpeaksOf s c ·) = [] := by
    apply List.eq_nil_iff_forall_not_mem.2
    intro v hv
    obtain ⟨d, hd, -⟩ := mem_speaking.1 hv
    exact h ⟨d, hd⟩
  rw [digit_write, hnil]
  rfl

/-- Literals that assert the same digits are written alike. -/
theorem write_congr {others : List Int}
    (h : ∀ c d, s.Asserts others c d ↔ s.Asserts literals c d) (p : Pair s) :
    p.write (.ofLiterals others) = p.write (.ofLiterals literals) := by
  refine ext_digit fun c _ => ?_
  have hset : {d | s.Asserts others c d} = {d | s.Asserts literals c d} := Set.ext (h c)
  by_cases hany : ∃ d, s.Asserts literals c d
  · have hany' : ∃ d, s.Asserts others c d := by
      simpa only [h c] using hany
    have hgreatest := p.isGreatest_digit_write hany'
    rw [hset] at hgreatest
    exact hgreatest.unique (p.isGreatest_digit_write hany)
  · have hnone : ¬ ∃ d, s.Asserts others c d := by
      simpa only [h c] using hany
    rw [digit_write_of_not_asserts p hnone, digit_write_of_not_asserts p hany]

/-- On the tables of the boards, where a variable, a digit or a position can be refused, none is. -/
theorem carryOut_write (p : Pair s) (m : Model) :
    (Change.write m).carryOut s p.board = (.ok (), (p.write m).board) :=
  Boards.forM_storeVariable_board m.trueVariables p

/-- Whatever the literals are, none of the digits of their model is refused. Then each cell holds
the largest digit whose literal is among them, and what it held before if there is no such digit. So
the order of the literals does not matter, nor how often they are there, nor those that are no
variable. -/
theorem write_keeps_greatest (p : Pair s) (literals : List Int) :
    let q := p.write (.ofLiterals literals)
    (Change.write (.ofLiterals literals)).carryOut s p.board = (.ok (), q.board) ∧
      (∀ c : Cell, IsGreatest {d | s.Asserts literals c d} (q.digit c) ∨
        (¬ ∃ d, s.Asserts literals c d) ∧ q.digit c = p.digit c) ∧
      ∀ others : List Int, (∀ l : Int, 1 ≤ l → l ≤ 2 * s.k ^ 6 → (l ∈ others ↔ l ∈ literals)) →
        p.write (.ofLiterals others) = q := by
  refine ⟨p.carryOut_write _, ?_, ?_⟩
  · intro c
    by_cases hany : ∃ d, s.Asserts literals c d
    · exact .inl (p.isGreatest_digit_write hany)
    · exact .inr ⟨hany, p.digit_write_of_not_asserts hany⟩
  · intro others h
    refine write_congr (fun c d => Size.Asserts.congr fun l hpos hle => h l hpos ?_) p
    rw [Size.variableCount_eq] at hle
    exact_mod_cast hle

/-- Two digits for the first cell, one of them twice and once denied, and a number that is none of
the 128 variables. -/
theorem write_keeps_greatest_small :
    (small.write (.ofLiterals [4, 2, -4, 2, 129, 0])).digit ⟨.a, 0, 0⟩ = 4 ∧
      small.write (.ofLiterals [2, 4]) = small.write (.ofLiterals [4, 2, -4, 2, 129, 0]) := by
  obtain ⟨-, hdigit, hothers⟩ := small.write_keeps_greatest [4, 2, -4, 2, 129, 0]
  have hasserts : Size.small.Asserts [4, 2, -4, 2, 129, 0] ⟨.a, 0, 0⟩ 4 := ⟨4, by decide, by decide⟩
  constructor
  · rcases hdigit ⟨.a, 0, 0⟩ with ⟨-, hgreatest⟩ | ⟨hnone, -⟩
    · have hle := digit_le (small.write (.ofLiterals [4, 2, -4, 2, 129, 0])) ⟨.a, 0, 0⟩
      exact Nat.le_antisymm hle (hgreatest hasserts)
    · exact absurd ⟨4, hasserts⟩ hnone
  · apply hothers
    intro l hpos hle
    have hcount : (2 * (Size.small.k : Int) ^ 6) = 128 := rfl
    simp only [List.mem_cons, List.not_mem_nil, or_false]
    omega

/-! ## The literals of a pair -/

/-- The literals of a pair are in the order of their variables. -/
theorem pairwise_literals {p : Pair e} (h : p.FitsIn s) : (p.literals s).Pairwise (· < ·) := by
  refine List.pairwise_map.2 (p.pairwise_filled.imp_of_mem fun {c d} hc hd hcd => ?_)
  have hc := (mem_filled.1 hc).2
  have hd := (mem_filled.1 hd).2
  refine Int.ofNat_lt.2 ((Size.number_lt_number_iff (h.mem_digits hc) (h.mem_digits hd)).2 ?_)
  exact .inl ((Cell.place_lt_place_iff (h c hc).1 (h d hd).1).2 hcd)

theorem mem_literals {p : Pair e} {l : Int} :
    l ∈ p.literals s ↔ ∃ c, p.digit c ≠ 0 ∧ (s.number c (p.digit c) : Int) = l := by
  simp only [literals, List.mem_map, mem_filled]
  constructor
  · rintro ⟨c, ⟨-, hc⟩, rfl⟩
    exact ⟨c, hc, rfl⟩
  · rintro ⟨c, hc, rfl⟩
    exact ⟨c, ⟨inside_of_digit_ne_zero hc, hc⟩, rfl⟩

/-- The literals of a pair are variables of the size. -/
theorem mem_literals_bounds {p : Pair e} (h : p.FitsIn s) {l : Int} (hl : l ∈ p.literals s) :
    1 ≤ l ∧ l ≤ s.variableCount := by
  obtain ⟨c, hc, rfl⟩ := mem_literals.1 hl
  obtain ⟨hpos, hle⟩ := Size.hasVariable_number (h c hc).1 (h.mem_digits hc)
  omega

theorem length_literals (p : Pair e) (s : Size) : (p.literals s).length = p.filledCount := by
  rw [literals, List.length_map, filledCount_eq_length_filled]

/-- The model made from the literals of a pair encodes it. -/
theorem encodedBy_literals (p : Pair s) :
    p.EncodedBy (Model.ofLiterals (p.literals s)).assignment := by
  refine encodedBy_iff.2 fun c hc d hd => ?_
  rw [Model.assignment_eq_true, Model.mem_ofLiterals, mem_literals]
  constructor
  · rintro ⟨-, e, he, hnumber⟩
    have hin := inside_of_digit_ne_zero he
    have heq : s.number e (p.digit e) = s.number c d := by exact_mod_cast hnumber
    obtain ⟨rfl, hdigit⟩ := Size.number_inj hin (digit_mem_digits.2 he) hc hd heq
    exact hdigit
  · rintro rfl
    exact ⟨Size.number_pos (Size.mem_digits.1 hd).1, c, digit_mem_digits.1 hd, rfl⟩

theorem digit_write_literals (p q : Pair s) (c : Cell) :
    (q.write (.ofLiterals (p.literals s))).digit c =
      if p.digit c = 0 then q.digit c else p.digit c :=
  digit_write_of_encodedBy p.encodedBy_literals q c

/-- Over the empty pair the literals of a pair give the pair back. -/
theorem write_empty_literals (p : Pair s) : (empty s).write (.ofLiterals (p.literals s)) = p := by
  refine ext_digit fun c _ => ?_
  rw [digit_write_literals, digit_empty]
  split
  · next hc => exact hc.symm
  · rfl

/-- A pair has one literal for each digit it holds, in the order of the variables. Written over
another pair of its size they put its digits over those that were there, and over the empty pair
they give it back. So no other pair of the size has the same literals. -/
theorem givens_written_back (p : Pair s) :
    ∃ literals, s.givens p = .ok literals ∧
      literals.Pairwise (· < ·) ∧ (∀ l ∈ literals, 1 ≤ l ∧ l ≤ 2 * s.k ^ 6) ∧
      literals.length = p.filledCount ∧
      (∀ (q : Pair s) (c : Cell), (q.write (.ofLiterals literals)).digit c =
        if p.digit c = 0 then q.digit c else p.digit c) ∧
      (empty s).write (.ofLiterals literals) = p ∧
      ∀ q : Pair s, s.givens q = .ok literals ↔ q = p := by
  have hp := p.fitsIn_self
  refine ⟨p.literals s, givens_of_fitsIn hp, pairwise_literals hp, ?_, length_literals p s,
    digit_write_literals p, write_empty_literals p, ?_⟩
  · intro l hl
    obtain ⟨hpos, hle⟩ := mem_literals_bounds hp hl
    rw [Size.variableCount_eq] at hle
    exact ⟨hpos, by exact_mod_cast hle⟩
  · intro q
    rw [givens_of_fitsIn q.fitsIn_self, Except.ok.injEq]
    constructor
    · intro heq
      rw [← write_empty_literals q, heq, write_empty_literals]
    · rintro rfl
      rfl

end Pair

end TwinSudoku
