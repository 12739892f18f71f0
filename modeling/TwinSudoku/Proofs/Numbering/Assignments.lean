import Mathlib.Data.List.Nodup
import TwinSudoku.Numbering

/-!
# Pairs as assignments

A pair is told to an oracle by the variables of its digits, and comes back as a model.

* `Pair.EncodedBy`: among the variables, the assignment makes those of the pair's digits true
  and no others. For all cells and digits this is `Pair.encodedBy_iff`.
* `Pair.assignment`, `Assignment.model`: the assignment of a pair, and the model of an assignment.
  Models that make the same variables true are equal (`Model.ext_mem`).
* `Pair.digit_write`: what a cell holds after a model is written: the digit of the last variable
  that speaks of the cell.
* `Pair.digit_write_of_encodedBy`: if the model encodes a pair, its digits are written over those
  that were there, and nothing else changes.
-/

namespace TwinSudoku

/-! ## Variables -/

namespace Size

variable {s : Size} {c : Cell} {d v : Nat}

theorem hasVariable_number (hc : c.Inside s) (hd : d ∈ s.digits) :
    s.HasVariable (s.number c d) := by
  obtain ⟨hpos, hle⟩ := mem_digits.1 hd
  exact ⟨number_pos hpos, number_le hc hle⟩

theorem cellDigit_number_of_mem (hc : c.Inside s) (hd : d ∈ s.digits) :
    s.cellDigit (s.number c d) = (c, d) :=
  cellDigit_number hc (mem_digits.1 hd).1 (mem_digits.1 hd).2

theorem cellDigit_mem_digits : (s.cellDigit v).2 ∈ s.digits := mem_digits.2 cellDigit_digit

theorem number_inj {c' : Cell} {d' : Nat} (hc : c.Inside s) (hd : d ∈ s.digits)
    (hc' : c'.Inside s) (hd' : d' ∈ s.digits) (h : s.number c d = s.number c' d') :
    c = c' ∧ d = d' := by
  have := cellDigit_number_of_mem hc hd
  rw [h, cellDigit_number_of_mem hc' hd'] at this
  exact ⟨(congrArg Prod.fst this).symm, (congrArg Prod.snd this).symm⟩

theorem variableOf_eq_ok_iff :
    s.variableOf c d = .ok v ↔ c.Inside s ∧ d ∈ s.digits ∧ s.number c d = v := by
  rw [variableOf]
  split
  · next hc =>
    split
    · next hd => simp [hc, hd]
    · next hd => simp [hd]
  · next hc => simp [hc]

end Size

/-! ## Models -/

/-- The model of the variables up to `n` that an assignment makes true. -/
def Assignment.modelUpTo (σ : Assignment) (n : Nat) : Model :=
  Model.ofLiterals (((List.range' 1 n).filter σ).map fun v : Nat => (v : Int))

theorem Assignment.mem_modelUpTo {σ : Assignment} {n v : Nat} :
    v ∈ (σ.modelUpTo n).trueVariables ↔ (1 ≤ v ∧ v ≤ n) ∧ σ v = true := by
  rw [Assignment.modelUpTo, Model.mem_ofLiterals]
  simp only [List.mem_map, List.mem_filter, List.mem_range'_1]
  constructor
  · rintro ⟨_, w, ⟨hrange, hw⟩, hwv⟩
    obtain rfl : w = v := by omega
    exact ⟨by omega, hw⟩
  · rintro ⟨hv, hσ⟩
    exact ⟨hv.1, v, ⟨by omega, hσ⟩, rfl⟩

/-- The model of the variables of a size that an assignment makes true. -/
def Assignment.model (σ : Assignment) (s : Size) : Model := σ.modelUpTo s.variableCount

theorem Assignment.mem_model {σ : Assignment} {s : Size} {v : Nat} :
    v ∈ (σ.model s).trueVariables ↔ s.HasVariable v ∧ σ v = true :=
  Assignment.mem_modelUpTo

theorem Model.ext_mem {m n : Model} (h : ∀ v, v ∈ m.trueVariables ↔ v ∈ n.trueVariables) :
    m = n := by
  have hnodup (k : Model) : k.trueVariables.Nodup := k.increasing.imp Nat.ne_of_lt
  have hperm : m.trueVariables.Perm n.trueVariables :=
    (List.perm_ext_iff_of_nodup (hnodup m) (hnodup n)).2 h
  have heq : m.trueVariables = n.trueVariables :=
    hperm.eq_of_pairwise (fun _ _ _ _ hab hba => absurd hab (Nat.lt_asymm hba)) m.increasing
      n.increasing
  obtain ⟨xs, _⟩ := m
  obtain ⟨ys, _⟩ := n
  congr 1
  exact Array.toList_inj.1 heq

theorem Model.assignment_eq_true {m : Model} {v : Nat} :
    m.assignment v = true ↔ v ∈ m.trueVariables := decide_eq_true_iff

namespace Pair

variable {s : Size}

/-! ## Encoded pairs -/

/-- Among the variables, the assignment makes those of the pair's digits true and no others. -/
def EncodedBy (p : Pair s) (σ : Assignment) : Prop :=
  ∀ v, s.HasVariable v → (σ v = true ↔ ∃ c ∈ Cell.all s, s.variableOf c (p.digit c) = .ok v)

theorem encodedBy_iff {p : Pair s} {σ : Assignment} :
    p.EncodedBy σ ↔
      ∀ c : Cell, c.Inside s → ∀ d ∈ s.digits, (σ (s.number c d) = true ↔ p.digit c = d) := by
  simp only [EncodedBy, Cell.mem_all, Size.variableOf_eq_ok_iff]
  constructor
  · intro h c hc d hd
    rw [h _ (Size.hasVariable_number hc hd)]
    constructor
    · rintro ⟨c', hc', _, hd', heq⟩
      obtain ⟨rfl, rfl⟩ := Size.number_inj hc' hd' hc hd heq
      rfl
    · rintro rfl
      exact ⟨c, hc, hc, hd, rfl⟩
  · intro h v hv
    rw [← Size.number_cellDigit hv, h _ Size.cellDigit_inside _ Size.cellDigit_mem_digits]
    constructor
    · intro heq
      exact ⟨_, Size.cellDigit_inside, Size.cellDigit_inside,
        heq.symm ▸ Size.cellDigit_mem_digits, by rw [heq]⟩
    · rintro ⟨c, hc, _, hd, heq⟩
      obtain ⟨hcell, hdigit⟩ :=
        Size.number_inj hc hd Size.cellDigit_inside Size.cellDigit_mem_digits heq
      rw [← hcell, hdigit]

/-- The assignment that makes just the variables of the pair's digits true. -/
def assignment (p : Pair s) : Assignment := fun v =>
  decide (s.HasVariable v ∧ p.digit (s.cellDigit v).1 = (s.cellDigit v).2)

theorem encodedBy_assignment (p : Pair s) : p.EncodedBy p.assignment := by
  refine encodedBy_iff.2 fun c hc d hd => ?_
  simp [assignment, Size.hasVariable_number hc hd, Size.cellDigit_number_of_mem hc hd]

theorem EncodedBy.congr {p : Pair s} {σ τ : Assignment} (h : p.EncodedBy σ)
    (hστ : ∀ v, s.HasVariable v → σ v = τ v) : p.EncodedBy τ := by
  intro v hv
  rw [← hστ v hv]
  exact h v hv

theorem EncodedBy.model {p : Pair s} {σ : Assignment} (h : p.EncodedBy σ) :
    p.EncodedBy (σ.model s).assignment := by
  refine h.congr fun v hv => ?_
  rw [Bool.eq_iff_iff, Model.assignment_eq_true, Assignment.mem_model]
  exact ⟨fun hσ => ⟨hv, hσ⟩, And.right⟩

/-! ## Writing models -/

/-- The variable is one of the cell. -/
def SpeaksOf (s : Size) (c : Cell) (v : Nat) : Prop := s.HasVariable v ∧ (s.cellDigit v).1 = c

instance (c : Cell) (v : Nat) : Decidable (SpeaksOf s c v) :=
  inferInstanceAs (Decidable (_ ∧ _))

theorem digit_writeVariable (p : Pair s) (v : Nat) (c : Cell) :
    (p.writeVariable v).digit c =
      if SpeaksOf s c v then (s.cellDigit v).2 else p.digit c := by
  rw [writeVariable]
  by_cases hv : s.HasVariable v
  · rw [if_pos hv, digit_put]
    simp [SpeaksOf, hv, eq_comm]
  · simp [SpeaksOf, hv]

theorem digit_foldl_writeVariable (vs : List Nat) (p : Pair s) (c : Cell) :
    (vs.foldl writeVariable p).digit c =
      (((vs.filter (SpeaksOf s c ·)).getLast?).map fun v => (s.cellDigit v).2).getD
        (p.digit c) := by
  induction vs generalizing p with
  | nil => rfl
  | cons v rest ih =>
    rw [List.foldl_cons, ih, digit_writeVariable, List.filter_cons]
    by_cases hv : SpeaksOf s c v
    · cases hlast : (rest.filter (SpeaksOf s c ·)).getLast? <;>
        simp [hv, List.getLast?_cons, hlast]
    · simp [hv]

/-- A cell holds the digit of the last true variable that speaks of it, or what it held. -/
theorem digit_write (p : Pair s) (m : Model) (c : Cell) :
    (p.write m).digit c =
      (((m.trueVariables.filter (SpeaksOf s c ·)).getLast?).map fun v => (s.cellDigit v).2).getD
        (p.digit c) :=
  digit_foldl_writeVariable m.trueVariables p c

/-- Writing the model of a pair puts the pair's digits over those that were there. -/
theorem digit_write_of_encodedBy {p : Pair s} {m : Model} (h : p.EncodedBy m.assignment)
    (q : Pair s) (c : Cell) :
    (q.write m).digit c = if p.digit c = 0 then q.digit c else p.digit c := by
  have hspeaks (v : Nat) (hv : v ∈ m.trueVariables.filter (SpeaksOf s c ·)) :
      p.digit c = (s.cellDigit v).2 := by
    obtain ⟨hmem, hsp⟩ := List.mem_filter.1 hv
    obtain ⟨hvar, hcell⟩ := of_decide_eq_true hsp
    have htrue := Model.assignment_eq_true.2 hmem
    rw [← Size.number_cellDigit hvar] at htrue
    rw [← hcell]
    exact (encodedBy_iff.1 h _ Size.cellDigit_inside _ Size.cellDigit_mem_digits).1 htrue
  rw [digit_write]
  cases hlast : (m.trueVariables.filter (SpeaksOf s c ·)).getLast? with
  | some v =>
    have hdigit := hspeaks v (List.mem_of_getLast? hlast)
    have hpos := (Size.mem_digits.1 (Size.cellDigit_mem_digits (s := s) (v := v))).1
    rw [if_neg (by omega), hdigit]
    rfl
  | none =>
    rw [if_pos]
    · rfl
    · -- the variable of a digit held would be true and speak of the cell
      by_contra hne
      have hc := inside_of_digit_ne_zero hne
      have hd := digit_mem_digits.2 hne
      have htrue := (encodedBy_iff.1 h c hc _ hd).2 rfl
      have hnil := List.getLast?_eq_none_iff.1 hlast
      refine List.ne_nil_of_mem (List.mem_filter.2 ⟨Model.assignment_eq_true.1 htrue, ?_⟩) hnil
      simp [SpeaksOf, Size.hasVariable_number hc hd, Size.cellDigit_number_of_mem hc hd]

/-- The model of a complete pair gives the pair back, whatever it is written over. -/
theorem write_eq_of_encodedBy {p : Pair s} {m : Model} (h : p.EncodedBy m.assignment)
    (hcomplete : ∀ c : Cell, c.Inside s → p.digit c ≠ 0) (q : Pair s) : q.write m = p := by
  refine ext_digit fun c hc => ?_
  rw [digit_write_of_encodedBy h, if_neg (hcomplete c hc)]

end Pair

end TwinSudoku
