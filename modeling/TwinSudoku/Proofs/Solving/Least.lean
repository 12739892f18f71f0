import TwinSudoku.Proofs.Oracle.Ordered
import TwinSudoku.Proofs.Solving.Completions

/-!
# First models give least completions

When the oracle answers with the first of all models, a session gives of all completions of a pair
that one whose rows come first.

* `Pair.LeastCompletion`: the completion whose rows come first.
* `Solving.least_of_picksFirst`: the model of a query that comes first is that of this completion.
* `Solving.complete_least`: one call in a session with the rules loaded.
* `Solving.first_models_complete_least`: the order of solutions is that of their assignments, and
  all calls of a session are answered with the least completion.
-/

namespace TwinSudoku

/-- Of the completions of a pair, the one whose rows come first. -/
structure Pair.LeastCompletion {s : Size} (diagonal : Bool) (p q : Pair s) : Prop where
  completes : q.Completes diagonal p
  least : ∀ r : Pair s, r.Completes diagonal p → r ≠ q → q.rows.flatten < r.rows.flatten

namespace Solving

variable {σ : Type} {o : Oracle σ} {holding : List Clause → σ → Prop} {s : Size} {diagonal : Bool}

/-- The pair that the first model encodes is the least completion of the givens. -/
theorem least_of_picksFirst {p : Pair s} {m : Model}
    (hanswer : Oracle.Answers (ClauseSet.rules s diagonal).clauses (p.literals s) (some m))
    (hfirst : ∀ τ : Assignment, Satisfies τ (ClauseSet.rules s diagonal).clauses →
      Meets τ (p.literals s) → ¬ τ.Before s.variableCount m.assignment) :
    p.LeastCompletion diagonal (p.write m) := by
  obtain ⟨hclauses, hmeets⟩ := hanswer
  obtain ⟨q, hq, hencoded⟩ := Pair.satisfies_rules_iff_exists.1 hclauses
  have hcomplete {r : Pair s} (hr : r.isSolution diagonal) (c : Cell) (hc : c.Inside s) :
      r.digit c ≠ 0 := Pair.isSolution_complete hr hc
  have hext : q.Extends p := (Pair.meets_givens p.fitsIn_self hencoded).1 hmeets
  rw [Pair.write_eq_of_encodedBy hencoded (hcomplete hq)]
  refine ⟨⟨hq, hext⟩, ?_⟩
  rintro r ⟨hr, hrext⟩ hne
  -- a smaller completion would have an earlier model
  have hnot : ¬ r.rows.flatten < q.rows.flatten := by
    intro hlt
    have hr' := r.encodedBy_assignment
    exact hfirst r.assignment (Pair.satisfies_of_isSolution hr hr')
      ((Pair.meets_givens p.fitsIn_self hr').2 hrext)
      ((Pair.flatten_rows_lt_iff_before (hcomplete hr) (hcomplete hq) hr' hencoded).1 hlt)
  rcases lt_trichotomy q.rows.flatten r.rows.flatten with hlt | heq | hgt
  · exact hlt
  · exact absurd (Pair.flatten_rows_inj heq).symm hne
  · exact absurd hgt hnot

/-- One call in a session with the rules loaded, for a pair that has a completion. -/
theorem complete_least (ho : o.Conforms holding)
    (hfirst : o.PicksFirst holding (ClauseSet.rules s diagonal).clauses s.variableCount) {st : σ}
    (hst : holding (ClauseSet.rules s diagonal).clauses st) {p : Pair s}
    (hp : ∃ r : Pair s, r.Completes diagonal p) :
    ∃ q st', complete o s p st = (.ok (some q), st') ∧
      holding (ClauseSet.rules s diagonal).clauses st' ∧ p.LeastCompletion diagonal q := by
  obtain ⟨answer, st', hrun, hst', hanswer⟩ := ho.solve (p.zero_not_mem_literals s) hst
  cases answer with
  | none =>
    obtain ⟨r, hr, hext⟩ := hp
    have hr' := r.encodedBy_assignment
    exact absurd ⟨r.assignment, Pair.satisfies_of_isSolution hr hr',
      (Pair.meets_givens p.fitsIn_self hr').2 hext⟩ hanswer
  | some m =>
    exact ⟨p.write m, st', complete_of_solve hrun, hst',
      least_of_picksFirst hanswer (hfirst hst hrun)⟩

/-- Two solutions are in the order of the assignments that encode them, where rows are compared
digit by digit and assignments from the first variable upward, true before false. So an oracle that
answers with the first model in this order makes a session answer with the least completion in that
one, wherever a pair that has a completion stands among the calls. -/
theorem first_models_complete_least (s : Size) (diagonal : Bool) :
    (∀ (p q : Pair s) (σ τ : Assignment), p.isSolution diagonal → q.isSolution diagonal →
      p.EncodedBy σ → q.EncodedBy τ →
        (p.rows.flatten < q.rows.flatten ↔ σ.Before s.variableCount τ)) ∧
    ∀ {σ : Type} {o : Oracle σ} {holding : List Clause → σ → Prop}, o.Conforms holding →
      o.PicksFirst holding (ClauseSet.rules s diagonal).clauses s.variableCount →
      ∀ (st : σ) (pairs : List (Sigma Pair)), holding [] st →
        ∃ replies st', session o s diagonal pairs st = (.ok replies, st') ∧
          ∀ (i : Nat) (p : Pair s), pairs[i]? = some ⟨s, p⟩ →
            (∃ r : Pair s, r.Completes diagonal p) →
              ∃ q, replies[i]? = some (.ok (some q)) ∧ p.LeastCompletion diagonal q := by
  constructor
  · intro p q σ τ hp hq hσ hτ
    exact Pair.flatten_rows_lt_iff_before (fun _ => Pair.isSolution_complete hp)
      (fun _ => Pair.isSolution_complete hq) hσ hτ
  · intro σ o holding ho hfirst st pairs hst
    let R (p : Sigma Pair) (reply : Except Failure (Option (Pair s))) : Prop :=
      ∀ q : Pair s, p = ⟨s, q⟩ → (∃ r : Pair s, r.Completes diagonal q) →
        ∃ r, reply = .ok (some r) ∧ q.LeastCompletion diagonal r
    have hcall (p : Sigma Pair) (st : σ) (hst : holding (ClauseSet.rules s diagonal).clauses st) :
        ∃ reply st', complete o s p.2 st = (reply, st') ∧
          holding (ClauseSet.rules s diagonal).clauses st' ∧ R p reply := by
      obtain ⟨reply, st', hrun, hst', -⟩ := complete_replies ho hst p
      refine ⟨reply, st', hrun, hst', ?_⟩
      rintro q rfl hq
      obtain ⟨r, _, hleast, -, hr⟩ := complete_least ho hfirst hst hq
      exact ⟨r, congrArg Prod.fst (hrun.symm.trans hleast), hr⟩
    obtain ⟨replies, st', hrun, hreplies⟩ := session_forall₂ ho hst hcall pairs
    refine ⟨replies, st', hrun, fun i p hp hcompletion => ?_⟩
    obtain ⟨reply, hi, hreply⟩ := exists_getElem?_of_forall₂ hreplies hp
    obtain ⟨q, rfl, hq⟩ := hreply p rfl hcompletion
    exact ⟨q, hi, hq⟩

theorem first_models_complete_least_small :
    ∃ q replies st', session (Oracle.ordered (Size.variableCount .small)) .small false
        [⟨.small, .small⟩, ⟨.small, .empty .small⟩] [] = (.ok replies, st') ∧
      replies[1]? = some (.ok (some q)) ∧ (Pair.empty .small).LeastCompletion false q ∧
      (q.rows.flatten < Pair.small.rows.flatten ↔
        q.assignment.Before (Size.variableCount .small) Pair.small.assignment) := by
  have hboth := first_models_complete_least .small false
  obtain ⟨replies, st', hrun, hleast⟩ := hboth.2 (Oracle.ordered_conforms _)
    (Oracle.ordered_picksFirst _ _) [] [⟨.small, .small⟩, ⟨.small, .empty .small⟩] rfl
  have hsmall : Pair.small.Completes false (Pair.empty .small) :=
    ⟨Pair.small_isSolution, fun c hc => absurd (Pair.digit_empty c) hc⟩
  obtain ⟨q, hreply, hq⟩ := hleast 1 (Pair.empty .small) rfl ⟨_, hsmall⟩
  exact ⟨q, replies, st', hrun, hreply, hq, hboth.1 q Pair.small _ _ hq.completes.1
    Pair.small_isSolution q.encodedBy_assignment Pair.small.encodedBy_assignment⟩

end Solving

end TwinSudoku
