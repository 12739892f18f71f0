import Mathlib.Data.List.Perm.Subperm
import TwinSudoku.Pair.Table
import TwinSudoku.Proofs.Rules.Houses

/-!
# Checking the rules

`Pair.isSolution` counts the cells of each house that hold a digit, while `Pair.Solves` says the
rules of two cells at a time. A house has as many cells as there are digits, so that it holds
each of them once exactly when no cell is empty and no two cells hold the same.

* `Pair.filledCount_eq_length_filled`, `Pair.isComplete_iff`: counting the digits of a pair.
* `Pair.holdsEach_iff_distinct`: the counting argument for one house.
* `Pair.isSolution_iff`: the check, house by house.
* `Pair.isSolution_iff_solves`: the check accepts the pairs that keep the rules and no others.
* `Pair.completes_iff_eq`: a solution has no completion but itself.
-/

namespace TwinSudoku

namespace Size

theorem nodup_digits (s : Size) : s.digits.Nodup := List.nodup_range'

end Size

namespace Pair

variable {s : Size}

/-! ## Complete pairs -/

theorem values_toList (p : Pair s) :
    p.values.toList.map Fin.val = (Cell.all s).map p.digit := by
  apply List.ext_getElem
  · simp [Cell.all]
  · intro i hi hi'
    have hlt : i < 2 * s.area := by simpa using hi
    simp [Cell.all, digit_of_inside p Cell.ofPlace_inside, Cell.place_ofPlace hlt]

theorem filledCount_eq_length_filled (p : Pair s) : p.filledCount = p.filled.length := by
  have hval : p.filledCount = (p.values.toList.map Fin.val).countP (· != 0) := by
    rw [filledCount, List.countP_map]
    refine List.countP_congr fun v _ => ?_
    simp only [Function.comp_apply, bne_iff_ne, ne_eq, Fin.ext_iff, Fin.val_zero]
  rw [hval, values_toList, List.countP_map, filled, ← List.countP_eq_length_filter]
  rfl

theorem isComplete_iff {p : Pair s} : p.isComplete ↔ ∀ c : Cell, c.Inside s → p.digit c ≠ 0 := by
  have hlen : (Cell.all s).length = 2 * s.area := by simp [Cell.all]
  rw [isComplete, beq_iff_eq, filledCount_eq_length_filled, filled,
    ← List.countP_eq_length_filter, ← hlen, List.countP_eq_length]
  simp

/-! ## Houses -/

/-- A list as long as the digits has them in some order exactly when it has each of them once. -/
theorem perm_digits_iff {values : List Nat} (hlen : values.length = s.side) :
    values.Perm s.digits ↔ ∀ d ∈ s.digits, values.count d = 1 := by
  constructor
  · intro hperm d hd
    rw [hperm.count_eq]
    exact List.count_eq_one_of_mem s.nodup_digits hd
  · intro h
    have hsub : s.digits ⊆ values := fun d hd =>
      List.count_pos_iff.1 (by rw [h d hd]; exact Nat.one_pos)
    exact ((List.subperm_of_subset s.nodup_digits hsub).perm_of_length_le
      (Nat.le_of_eq (by rw [hlen, s.length_digits]))).symm

/-- A list as long as the digits has each of them once exactly when it has digits only and none
of them twice. -/
theorem forall_count_eq_one_iff {values : List Nat} (hlen : values.length = s.side) :
    (∀ d ∈ s.digits, values.count d = 1) ↔ values.Nodup ∧ ∀ v ∈ values, v ∈ s.digits := by
  rw [← perm_digits_iff hlen]
  constructor
  · intro hperm
    exact ⟨hperm.symm.nodup s.nodup_digits, fun v hv => hperm.mem_iff.1 hv⟩
  · rintro ⟨hnodup, hsub⟩
    exact (List.subperm_of_subset hnodup hsub).perm_of_length_le
      (Nat.le_of_eq (by rw [hlen, s.length_digits]))

theorem holdsEach_iff {p : Pair s} {cells : List Cell} :
    p.holdsEach cells ↔ ∀ d ∈ s.digits, cells.countP (fun c => p.digit c == d) = 1 := by
  simp [holdsEach]

theorem holdsEach_iff_count {p : Pair s} {cells : List Cell} :
    p.holdsEach cells ↔ ∀ d ∈ s.digits, (cells.map p.digit).count d = 1 := by
  simp only [holdsEach_iff, List.count, List.countP_map, Function.comp_def]

theorem holdsEach_iff_distinct {p : Pair s} {house : List Cell} (h : House.Proper s house) :
    p.holdsEach house ↔
      (∀ c ∈ house, p.digit c ≠ 0) ∧
      ∀ c ∈ house, ∀ d ∈ house, c ≠ d → p.digit c ≠ p.digit d := by
  rw [holdsEach_iff_count, forall_count_eq_one_iff (by rw [List.length_map, h.length_eq]),
    List.nodup_map_iff_inj_on h.nodup, and_comm]
  simp only [List.forall_mem_map, digit_mem_digits]
  refine and_congr_right fun _ => forall₂_congr fun c _ => forall₂_congr fun d _ => ?_
  exact not_imp_not.symm

/-! ## The check -/

/-- The check, house by house. -/
theorem isSolution_iff {p : Pair s} {diagonal : Bool} :
    p.isSolution diagonal ↔
      (∀ c : Cell, c.Inside s → p.digit c ≠ 0) ∧
      (∀ g : Board, ∀ house ∈ House.all s diagonal g, p.holdsEach house) ∧
      ∀ c : Cell, c.Inside s → p.digit c ≠ p.digit c.twin := by
  have hboards (P : Board → Prop) : (∀ g ∈ Board.all, P g) ↔ ∀ g, P g :=
    ⟨fun h g => h g (by cases g <;> simp [Board.all]), fun h g _ => h g⟩
  have hdiffers : p.differs ↔ ∀ c : Cell, c.Inside s → p.digit c ≠ p.digit c.twin := by
    simp [differs]
  rw [isSolution, Bool.and_eq_true, Bool.and_eq_true, isComplete_iff, hdiffers, and_assoc,
    List.all_eq_true, hboards]
  simp only [List.all_eq_true]

theorem isSolution_complete {p : Pair s} {diagonal : Bool} (h : p.isSolution diagonal) {c : Cell}
    (hc : c.Inside s) : p.digit c ≠ 0 := (isSolution_iff.1 h).1 c hc

theorem filled_of_isSolution {p : Pair s} {diagonal : Bool} (h : p.isSolution diagonal) :
    p.filled = Cell.all s := by
  rw [filled, List.filter_eq_self]
  intro c hc
  rw [bne_iff_ne]
  exact isSolution_complete h (Cell.mem_all.1 hc)

/-- Cells that lie in a common house wherever they are related hold different digits. -/
theorem distinct_of_holdsEach {p : Pair s} {diagonal : Bool}
    (h : ∀ g : Board, ∀ house ∈ House.all s diagonal g, p.holdsEach house)
    {related : Cell → Cell → Prop}
    (hshare : ∀ c d : Cell, c.Inside s → d.Inside s → c.board = d.board → related c d →
      ∃ house ∈ House.all s diagonal c.board, c ∈ house ∧ d ∈ house) :
    p.Distinct related := by
  intro c d hc hd hne hg hrel
  obtain ⟨house, hmem, hch, hdh⟩ := hshare c d hc hd hg hrel
  exact ((holdsEach_iff_distinct (House.proper_of_mem_all hmem)).1 (h _ house hmem)).2
    c hch d hdh hne

/-- A house of a complete pair holds every digit where its cells are related to each other. -/
theorem holdsEach_of_distinct {p : Pair s} {diagonal : Bool} {g : Board} {house : List Cell}
    {related : Cell → Cell → Prop} (hmem : house ∈ House.all s diagonal g)
    (hcomplete : ∀ c : Cell, c.Inside s → p.digit c ≠ 0) (hdistinct : p.Distinct related)
    (hrel : ∀ c ∈ house, ∀ d ∈ house, c.board = d.board ∧ related c d) : p.holdsEach house := by
  have hproper := House.proper_of_mem_all hmem
  refine (holdsEach_iff_distinct hproper).2
    ⟨fun c hc => hcomplete c (hproper.inside c hc), fun c hc d hd hne => ?_⟩
  exact hdistinct c d (hproper.inside c hc) (hproper.inside d hd) hne (hrel c hc d hd).1
    (hrel c hc d hd).2

theorem solves_of_isSolution {p : Pair s} {diagonal : Bool} (h : p.isSolution diagonal) :
    p.Solves diagonal := by
  obtain ⟨hcomplete, hhouses, htwin⟩ := isSolution_iff.1 h
  refine ⟨hcomplete, distinct_of_holdsEach hhouses ?_, distinct_of_holdsEach hhouses ?_,
    distinct_of_holdsEach hhouses ?_, fun hdiag => distinct_of_holdsEach hhouses ?_,
    fun hdiag => distinct_of_holdsEach hhouses ?_, htwin⟩
  · intro c d hc hd hg hrow
    exact ⟨House.row s c.board c.row, House.row_mem_all diagonal hc.1,
      House.mem_row.2 ⟨rfl, rfl, hc.2⟩, House.mem_row.2 ⟨hg.symm, hrow.symm, hd.2⟩⟩
  · intro c d hc hd hg hcol
    exact ⟨House.column s c.board c.col, House.column_mem_all diagonal hc.2,
      House.mem_column.2 ⟨rfl, rfl, hc.1⟩, House.mem_column.2 ⟨hg.symm, hcol.symm, hd.1⟩⟩
  · intro c d hc hd hg hblock
    obtain ⟨b, hb, hcb, hdb⟩ := (House.exists_block_iff hc hd hg).2 hblock
    exact ⟨House.block s c.board b, House.block_mem_all diagonal hb, hcb, hdb⟩
  · intro c d hc hd hg hfall
    exact ⟨House.falling s c.board, House.falling_mem_all hdiag,
      House.mem_falling.2 ⟨rfl, hc.1, hfall.1⟩, House.mem_falling.2 ⟨hg.symm, hd.1, hfall.2⟩⟩
  · intro c d hc hd hg hrise
    exact ⟨House.rising s c.board, House.rising_mem_all hdiag,
      House.mem_rising.2 ⟨rfl, hrise.1⟩, House.mem_rising.2 ⟨hg.symm, hrise.2⟩⟩

theorem isSolution_of_solves {p : Pair s} {diagonal : Bool} (h : p.Solves diagonal) :
    p.isSolution diagonal := by
  refine isSolution_iff.2 ⟨h.complete, fun g => House.forall_mem_all.2 ⟨fun r hr => ?_,
    fun k hk => ?_, fun b hb => ?_, fun hdiag => ⟨?_, ?_⟩⟩, h.twin⟩
  · refine holdsEach_of_distinct (House.row_mem_all diagonal hr) h.complete h.row
      fun c hc d hd => ?_
    obtain ⟨hcg, hcr, -⟩ := House.mem_row.1 hc
    obtain ⟨hdg, hdr, -⟩ := House.mem_row.1 hd
    exact ⟨hcg.trans hdg.symm, hcr.trans hdr.symm⟩
  · refine holdsEach_of_distinct (House.column_mem_all diagonal hk) h.complete
      h.column fun c hc d hd => ?_
    obtain ⟨hcg, hck, -⟩ := House.mem_column.1 hc
    obtain ⟨hdg, hdk, -⟩ := House.mem_column.1 hd
    exact ⟨hcg.trans hdg.symm, hck.trans hdk.symm⟩
  · refine holdsEach_of_distinct (House.block_mem_all diagonal hb) h.complete
      h.block fun c hc d hd => ?_
    obtain ⟨hcin, hcg, -⟩ := (House.mem_block hb).1 hc
    obtain ⟨hdin, hdg, -⟩ := (House.mem_block hb).1 hd
    have hg := hcg.trans hdg.symm
    exact ⟨hg, (House.exists_block_iff hcin hdin hg).1 ⟨b, hb, hcg ▸ hc, hcg ▸ hd⟩⟩
  · refine holdsEach_of_distinct (House.falling_mem_all hdiag) h.complete (h.falling hdiag)
      fun c hc d hd => ?_
    obtain ⟨hcg, -, hcr⟩ := House.mem_falling.1 hc
    obtain ⟨hdg, -, hdr⟩ := House.mem_falling.1 hd
    exact ⟨hcg.trans hdg.symm, hcr, hdr⟩
  · refine holdsEach_of_distinct (House.rising_mem_all hdiag) h.complete (h.rising hdiag)
      fun c hc d hd => ?_
    obtain ⟨hcg, hcr⟩ := House.mem_rising.1 hc
    obtain ⟨hdg, hdr⟩ := House.mem_rising.1 hd
    exact ⟨hcg.trans hdg.symm, hcr, hdr⟩

/-- The check accepts the complete pairs that keep the rules, and no others. -/
theorem isSolution_iff_solves {p : Pair s} {diagonal : Bool} :
    p.isSolution diagonal ↔ p.Solves diagonal :=
  ⟨solves_of_isSolution, isSolution_of_solves⟩

/-! ## Completions of complete pairs -/

theorem Extends.eq_of_complete {p q : Pair s} (h : q.Extends p)
    (hp : ∀ c : Cell, c.Inside s → p.digit c ≠ 0) : q = p :=
  ext_digit fun c hc => h c (hp c hc)

/-- A solution has no completion but itself. -/
theorem completes_iff_eq {p q : Pair s} {diagonal : Bool} (hp : p.isSolution diagonal) :
    q.Completes diagonal p ↔ q = p := by
  constructor
  · intro h
    exact h.2.eq_of_complete fun c hc => isSolution_complete hp hc
  · rintro rfl
    exact ⟨hp, fun _ _ => rfl⟩

end Pair

/-! ## A small solution -/

/-- The smallest size that has solutions. -/
def Size.small : Size := ⟨2, by decide, by decide⟩

/-- A solution of the smallest size. -/
def Pair.small : Pair .small :=
  ofView .small (tableView [[3, 1, 4, 2], [4, 2, 1, 3], [2, 4, 3, 1], [1, 3, 2, 4]]
    [[1, 3, 2, 4], [2, 4, 3, 1], [4, 2, 1, 3], [3, 1, 4, 2]])

theorem Pair.small_isSolution : small.isSolution false := by decide

end TwinSudoku
