import TwinSudoku.Oracle.Basic
import TwinSudoku.Proofs.Clauses.Counting
import TwinSudoku.Proofs.Clauses.Solutions
import TwinSudoku.Proofs.Numbering.Givens

/-!
# Queries to an oracle that answers right

Once the rules are loaded, a query to a conforming oracle is a question about solutions. What the
assumed literals demand enters as a condition on pairs.

* `Oracle.Answers.isSome_iff`: there is a model exactly when the answer gives one.
* `Oracle.Conforms.start_rules`: loading the rules into a new session.
* `Oracle.Conforms.solve_rules`: a query is answered with a model exactly when some solution
  meets the condition, and the model is that of such a solution.
* `Oracle.Conforms.solve_keeps`: no query disturbs what is loaded.
-/

namespace TwinSudoku

namespace Oracle

variable {σ : Type} {o : Oracle σ} {holding : List Clause → σ → Prop}

theorem start_of_load {clauses : List Clause} {st st' : σ}
    (h : o.load clauses st = (Except.ok (), st')) : o.start clauses st = (.ok (), st') := by
  rw [start, Run.tryCatch_of_ok h]

theorem Answers.isSome_iff {clauses : List Clause} {assumptions : List Int}
    {answer : Option Model} (h : Answers clauses assumptions answer) :
    answer.isSome = true ↔ Satisfiable clauses assumptions := by
  cases answer with
  | none => exact ⟨nofun, fun hsat => absurd hsat h⟩
  | some m => exact ⟨fun _ => ⟨_, h⟩, fun _ => rfl⟩

namespace Conforms

theorem solve_keeps (ho : o.Conforms holding) {clauses : List Clause} {assumptions : List Int}
    (hne : 0 ∉ assumptions) : Run.Keeps (holding clauses) (o.solve assumptions) := by
  intro st hst
  obtain ⟨answer, st', hrun, hst', -⟩ := ho.solve hne hst
  rw [hrun]
  exact hst'

theorem start_rules (ho : o.Conforms holding) {st : σ} (hst : holding [] st) (s : Size)
    (diagonal : Bool) :
    ∃ st', o.start (ClauseSet.rules s diagonal).clauses st = (.ok (), st') ∧
      holding (ClauseSet.rules s diagonal).clauses st' := by
  obtain ⟨st', hload, hst'⟩ := ho.load (ClauseSet.zero_not_mem_rules s diagonal) hst
  exact ⟨st', start_of_load hload, hst'⟩

/-- What a query about the rules is answered with. The condition `P` on pairs says what the
assumed literals demand of an assignment that encodes a pair. -/
theorem solve_rules (ho : o.Conforms holding) {s : Size} {diagonal : Bool} {st : σ}
    (hst : holding (ClauseSet.rules s diagonal).clauses st) {assumptions : List Int}
    (hne : 0 ∉ assumptions) {P : Pair s → Prop}
    (hP : ∀ q σ, Pair.EncodedBy q σ → (Meets σ assumptions ↔ P q)) :
    ∃ answer st', o.solve assumptions st = (.ok answer, st') ∧
      holding (ClauseSet.rules s diagonal).clauses st' ∧
      (answer = none → ¬ ∃ q : Pair s, q.isSolution diagonal ∧ P q) ∧
      ∀ m, answer = some m →
        ∃ q : Pair s, q.isSolution diagonal ∧ P q ∧ ∀ r : Pair s, r.write m = q := by
  obtain ⟨answer, st', hrun, hst', hanswer⟩ := ho.solve hne hst
  refine ⟨answer, st', hrun, hst', ?_, ?_⟩
  · rintro rfl ⟨q, hq, hPq⟩
    exact hanswer ⟨q.assignment, Pair.satisfies_of_isSolution hq q.encodedBy_assignment,
      (hP q _ q.encodedBy_assignment).2 hPq⟩
  · rintro m rfl
    obtain ⟨hclauses, hmeets⟩ := hanswer
    obtain ⟨q, hq, hencoded⟩ := Pair.satisfies_rules_iff_exists.1 hclauses
    exact ⟨q, hq, (hP q _ hencoded).1 hmeets,
      Pair.write_eq_of_encodedBy hencoded fun _ => Pair.isSolution_complete hq⟩

end Conforms

end Oracle

end TwinSudoku
