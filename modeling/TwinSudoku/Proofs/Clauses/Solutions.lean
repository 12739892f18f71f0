import Mathlib.Data.Set.Function
import TwinSudoku.Proofs.Clauses.Families
import TwinSudoku.Proofs.Numbering.Assignments
import TwinSudoku.Proofs.Rules.Solutions

/-!
# The clauses describe the solutions

The clauses of all rules hold for the assignments that encode a pair which keeps the rules, and
for no others.

* `Pair.exists_encodedBy`: an assignment with exactly one digit for each cell encodes a complete
  pair.
* `Pair.keepsRules_iff_isSolution`: an assignment that encodes a complete pair keeps the rules
  exactly when the pair passes the check.
* `Pair.satisfies_rules_iff_exists`: from these, the clauses and the pairs.
* `Pair.rules_models_bijOn_solutions`: pairs that keep the rules and models of the clauses
  correspond one to one, and writing the model gives the pair back.
-/

namespace TwinSudoku.Pair

variable {s : Size} {diagonal : Bool}

/-- Counting the digits that a test accepts finds one exactly when it accepts a single digit. -/
theorem countP_digits_eq_one_iff {test : Nat → Bool} :
    s.digits.countP test = 1 ↔ ∃ d ∈ s.digits, ∀ e ∈ s.digits, (test e = true ↔ d = e) :=
  countP_eq_one_iff s.nodup_digits

/-- An assignment with exactly one digit for each cell encodes a complete pair. -/
theorem exists_encodedBy {σ : Assignment}
    (h : ∀ c : Cell, c.Inside s → s.digits.countP (fun d => σ (s.number c d)) = 1) :
    ∃ p : Pair s, p.EncodedBy σ ∧ ∀ c : Cell, c.Inside s → p.digit c ≠ 0 := by
  choose! digitOf hmem hdigit using fun c hc => countP_digits_eq_one_iff.1 (h c hc)
  have hview (c : Cell) (hc : c.Inside s) : (ofView s digitOf).digit c = digitOf c :=
    digit_ofView hc (Size.mem_digits.1 (hmem c hc)).2
  refine ⟨ofView s digitOf, encodedBy_iff.2 fun c hc d hd => ?_, fun c hc => ?_⟩
  · rw [hview c hc, hdigit c hc d hd]
  · have := (Size.mem_digits.1 (hmem c hc)).1
    rw [hview c hc]
    omega

/-- The cells of a house that have a digit in the assignment are those that hold it. -/
theorem countP_eq_of_encodedBy {p : Pair s} {σ : Assignment} (h : p.EncodedBy σ)
    {house : List Cell} (hin : ∀ c ∈ house, c.Inside s) {d : Nat} (hd : d ∈ s.digits) :
    house.countP (fun c => σ (s.number c d)) = house.countP (fun c => p.digit c == d) := by
  refine List.countP_congr fun c hc => ?_
  rw [encodedBy_iff.1 h c (hin c hc) d hd, beq_iff_eq]

theorem spread_iff_holdsEach {p : Pair s} {σ : Assignment} (h : p.EncodedBy σ) {g : Board} :
    Part.Spread σ s (House.all s diagonal g) ↔
      ∀ house ∈ House.all s diagonal g, p.holdsEach house := by
  refine forall₂_congr fun house hmem => ?_
  rw [holdsEach_iff]
  refine forall₂_congr fun d hd => ?_
  rw [countP_eq_of_encodedBy h (House.proper_of_mem_all hmem).inside hd]

/-- An assignment that encodes a complete pair keeps the rules exactly when the pair does. -/
theorem keepsRules_iff_isSolution {p : Pair s} {σ : Assignment} (h : p.EncodedBy σ)
    (hcomplete : ∀ c : Cell, c.Inside s → p.digit c ≠ 0) :
    σ.KeepsRules s diagonal ↔ p.isSolution diagonal := by
  have hencoded := encodedBy_iff.1 h
  have htwin : (∀ c : Cell, c.Inside s → ∀ d ∈ s.digits,
      ¬ (σ (s.number c d) = true ∧ σ (s.number c.twin d) = true)) ↔
      ∀ c : Cell, c.Inside s → p.digit c ≠ p.digit c.twin := by
    refine forall₂_congr fun c hc => ?_
    constructor
    · intro hnone heq
      have hd := digit_mem_digits.2 (hcomplete c hc)
      exact hnone _ hd ⟨(hencoded c hc _ hd).2 rfl, (hencoded c.twin hc _ hd).2 heq.symm⟩
    · rintro hne d hd ⟨hc1, hc2⟩
      exact hne (((hencoded c hc d hd).1 hc1).trans ((hencoded c.twin hc d hd).1 hc2).symm)
  have hcell (c : Cell) (hc : c.Inside s) : s.digits.countP (fun d => σ (s.number c d)) = 1 :=
    countP_digits_eq_one_iff.2 ⟨_, digit_mem_digits.2 (hcomplete c hc), hencoded c hc⟩
  rw [isSolution_iff]
  constructor
  · intro hrules
    exact ⟨hcomplete, fun g => (spread_iff_holdsEach h).1 (hrules.house g),
      htwin.1 hrules.twin⟩
  · rintro ⟨_, hhouses, hdiffers⟩
    exact ⟨hcell, fun g => (spread_iff_holdsEach h).2 (hhouses g), htwin.2 hdiffers⟩

theorem satisfies_of_isSolution {p : Pair s} {σ : Assignment} (hp : p.isSolution diagonal)
    (h : p.EncodedBy σ) : Satisfies σ (ClauseSet.rules s diagonal).clauses :=
  satisfies_rules.2 ((keepsRules_iff_isSolution h fun _ => isSolution_complete hp).2 hp)

/-- The clauses hold for the assignments that encode a pair which keeps the rules. -/
theorem satisfies_rules_iff_exists {σ : Assignment} :
    Satisfies σ (ClauseSet.rules s diagonal).clauses ↔
      ∃ p : Pair s, p.isSolution diagonal ∧ p.EncodedBy σ := by
  constructor
  · intro hσ
    have hrules := satisfies_rules.1 hσ
    obtain ⟨p, hp, hcomplete⟩ := exists_encodedBy hrules.cell
    exact ⟨p, (keepsRules_iff_isSolution hp hcomplete).1 hrules, hp⟩
  · rintro ⟨p, hp, hσ⟩
    exact satisfies_of_isSolution hp hσ

/-- Writing the model of an assignment gives back the solution that it encodes. -/
theorem write_model_eq {p : Pair s} {σ : Assignment} (hp : p.isSolution diagonal)
    (h : p.EncodedBy σ) (q : Pair s) : q.write (σ.model s) = p :=
  write_eq_of_encodedBy h.model (fun _ => isSolution_complete hp) q

/-- Writing a model of the clauses gives a solution, whatever it is written over. -/
theorem exists_write_eq {m : Model}
    (h : Satisfies m.assignment (ClauseSet.rules s diagonal).clauses) :
    ∃ q : Pair s, q.isSolution diagonal ∧ ∀ r : Pair s, r.write m = q := by
  obtain ⟨q, hq, hencoded⟩ := satisfies_rules_iff_exists.1 h
  exact ⟨q, hq, write_eq_of_encodedBy hencoded fun _ => isSolution_complete hq⟩

/-- The models of the clauses over the variables are those of the pairs that keep the rules, one
for each. -/
theorem bijOn_model (s : Size) (diagonal : Bool) :
    Set.BijOn (fun p : Pair s => p.assignment.model s) {p | p.isSolution diagonal}
      {m | (∀ v ∈ m.trueVariables, s.HasVariable v) ∧
        Satisfies m.assignment (ClauseSet.rules s diagonal).clauses} := by
  refine ⟨fun p hp => ⟨fun v hv => (Assignment.mem_model.1 hv).1, ?_⟩, fun p hp q hq heq => ?_,
    fun m ⟨hvars, hm⟩ => ?_⟩
  · exact satisfies_of_isSolution hp p.encodedBy_assignment.model
  · have hwrite := write_model_eq hp p.encodedBy_assignment p
    rw [show p.assignment.model s = q.assignment.model s from heq,
      write_model_eq hq q.encodedBy_assignment] at hwrite
    exact hwrite.symm
  · obtain ⟨p, hp, hencoded⟩ := satisfies_rules_iff_exists.1 hm
    refine ⟨p, hp, Model.ext_mem fun v => ?_⟩
    have hiff (hv : s.HasVariable v) : p.assignment v = true ↔ v ∈ m.trueVariables := by
      rw [p.encodedBy_assignment v hv, ← hencoded v hv, Model.assignment_eq_true]
    rw [Assignment.mem_model]
    exact ⟨fun ⟨hv, hσ⟩ => (hiff hv).1 hσ, fun hv => ⟨hvars v hv, (hiff (hvars v hv)).2 hv⟩⟩

/-- The clauses mean the rules. An assignment satisfies them exactly when its true variables are
those of the digits of a pair that passes the check; that pair is unique and comes back when the
model of the assignment is written over any pair. So models and solutions correspond one to
one. -/
theorem rules_models_bijOn_solutions (s : Size) (diagonal : Bool) :
    (∀ σ : Assignment, Satisfies σ (ClauseSet.rules s diagonal).clauses ↔
      ∃ p : Pair s, p.isSolution diagonal ∧ p.EncodedBy σ) ∧
    (∀ (σ : Assignment) (p : Pair s), p.isSolution diagonal → p.EncodedBy σ →
      (∀ q : Pair s, q.isSolution diagonal → q.EncodedBy σ → q = p) ∧
      ∀ q : Pair s, q.write (σ.model s) = p) ∧
    Set.BijOn (fun p : Pair s => p.assignment.model s) {p | p.isSolution diagonal}
      {m | (∀ v ∈ m.trueVariables, s.HasVariable v) ∧
        Satisfies m.assignment (ClauseSet.rules s diagonal).clauses} := by
  refine ⟨?_, ?_, bijOn_model s diagonal⟩
  · intro σ
    exact satisfies_rules_iff_exists
  · intro σ p hp hσ
    refine ⟨?_, write_model_eq hp hσ⟩
    intro q hq hqσ
    rw [← write_model_eq hp hσ p, write_model_eq hq hqσ]

end TwinSudoku.Pair
