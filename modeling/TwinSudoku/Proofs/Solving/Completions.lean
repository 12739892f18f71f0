import TwinSudoku.Proofs.Oracle.Exhaustive
import TwinSudoku.Proofs.Oracle.Queries
import TwinSudoku.Solving

/-!
# Solving finds a completion if there is one

* `Solving.complete_of_solve`: one call, from the answer to its query.
* `Solving.complete_answers`: one call in a session with the rules loaded. A pair of the size of
  the session is answered with a completion, or with `none` when it has no completion.
* `Solving.mapM_complete`: any number of calls one after another, also for pairs of another size,
  which are refused. The rules stay loaded throughout.
* `Solving.session_complete`: the answers of a whole session. Nothing is assumed of what the
  oracle answers beyond that it is right: it may pick any model.
-/

namespace TwinSudoku

namespace Pair

variable {s : Size} {diagonal : Bool}

theorem exists_completes_iff_of_isComplete {p : Pair s} (hp : p.isComplete) :
    (∃ q : Pair s, q.Completes diagonal p) ↔ p.isSolution diagonal := by
  constructor
  · rintro ⟨q, hq, hext⟩
    rwa [← hext.eq_of_complete (isComplete_iff.1 hp)]
  · intro h
    exact ⟨p, h, fun _ _ => rfl⟩

end Pair

namespace Solving

variable {σ : Type} {o : Oracle σ} {holding : List Clause → σ → Prop} {s : Size} {diagonal : Bool}

/-- The answer is a completion of the pair, and `none` only if there is no completion. -/
def Answers (diagonal : Bool) (p : Pair s) : Option (Pair s) → Prop
  | none => ¬ ∃ q : Pair s, q.Completes diagonal p
  | some q => q.Completes diagonal p

/-- The reply to a call: a pair of the session's size is answered right, any other is refused. -/
def Replies (s : Size) (diagonal : Bool) (p : Sigma Pair)
    (reply : Except Failure (Option (Pair s))) :
    Prop :=
  (∀ q : Pair s, p = ⟨s, q⟩ → ∃ answer, reply = .ok answer ∧ Answers diagonal q answer) ∧
    (p.1 ≠ s → reply = .error (.misuse (.sizeMismatch p.1 s)))

/-- One call asks one query, and writes the model that it is answered with over the pair. -/
theorem complete_of_solve {p : Pair s} {answer : Except OracleError (Option Model)} {st st' : σ}
    (h : o.solve (p.literals s) st = (answer, st')) :
    complete o s p st = ((answer.map (·.map p.write)).mapError .oracle, st') := by
  have hask : ((o.solve (p.literals s)).adapt Failure.oracle : Run σ Failure _) st =
      (answer.mapError .oracle, st') := by
    rw [Run.adapt_apply, h]
  rw [complete, dif_pos rfl, Pair.givens_of_fitsIn p.fitsIn_self,
    Run.bind_of_ok (Run.ofMisuse_ok _ st)]
  cases answer with
  | error e => exact Run.bind_of_error hask _
  | ok answer =>
    rw [Run.bind_of_ok hask]
    cases answer <;> rfl

/-- One call in a session with the rules loaded. -/
theorem complete_answers (ho : o.Conforms holding) {st : σ}
    (hst : holding (ClauseSet.rules s diagonal).clauses st) (p : Pair s) :
    ∃ answer st', complete o s p st = (.ok answer, st') ∧
      holding (ClauseSet.rules s diagonal).clauses st' ∧ Answers diagonal p answer := by
  obtain ⟨answer, st', hrun, hst', hnone, hsome⟩ :=
    ho.solve_rules hst (p.zero_not_mem_literals s) fun _ _ hq => Pair.meets_givens p.fitsIn_self hq
  refine ⟨answer.map p.write, st', complete_of_solve hrun, hst', ?_⟩
  cases answer with
  | none => exact hnone rfl
  | some m =>
    obtain ⟨q, hq, hext, hwrite⟩ := hsome m rfl
    show (p.write m).Completes diagonal p
    rw [hwrite]
    exact ⟨hq, hext⟩

theorem complete_replies (ho : o.Conforms holding) {st : σ}
    (hst : holding (ClauseSet.rules s diagonal).clauses st) (p : Sigma Pair) :
    ∃ reply st', complete o s p.2 st = (reply, st') ∧
      holding (ClauseSet.rules s diagonal).clauses st' ∧ Replies s diagonal p reply := by
  obtain ⟨e, p⟩ := p
  by_cases he : e = s
  · subst he
    obtain ⟨answer, st', hrun, hst', hanswer⟩ := complete_answers ho hst p
    refine ⟨_, st', hrun, hst', fun q hq => ⟨answer, rfl, ?_⟩, fun hne => absurd rfl hne⟩
    obtain rfl := eq_of_heq (Sigma.mk.inj hq).2
    exact hanswer
  · refine ⟨_, st, ?_, hst, fun q hq => absurd (congrArg Sigma.fst hq) he, fun _ => rfl⟩
    rw [complete, dif_neg he]
    rfl

/-- Calls one after another are answered one by one, and the rules stay loaded. -/
theorem mapM_complete (ho : o.Conforms holding) (pairs : List (Sigma Pair)) {st : σ}
    (hst : holding (ClauseSet.rules s diagonal).clauses st) :
    ∃ replies st', (pairs.mapM fun p => (complete o s p.2).run : StateM σ _) st = (replies, st') ∧
      holding (ClauseSet.rules s diagonal).clauses st' ∧
      List.Forall₂ (Replies s diagonal) pairs replies :=
  Action.mapM_forall₂ (fun p _ hst => complete_replies ho hst p) pairs hst

/-- A session whose rules are loaded answers the calls one after another and is then released. -/
theorem session_of_start {st st' : σ} (h : start o s diagonal st = (.ok (), st'))
    (pairs : List (Sigma Pair)) :
    session o s diagonal pairs st =
      let called := (pairs.mapM fun p => (complete o s p.2).run : StateM σ _) st'
      (.ok called.1, (o.release called.2).2) := by
  rw [session, Action.bind_of_eq (x := (start o s diagonal).run) h]
  rfl

/-- What each call is answered with while the rules are loaded, it is answered with in a session. -/
theorem session_forall₂ (ho : o.Conforms holding) {st : σ} (hst : holding [] st)
    {R : Sigma Pair → Except Failure (Option (Pair s)) → Prop}
    (hR : ∀ (p : Sigma Pair) (st : σ), holding (ClauseSet.rules s diagonal).clauses st →
      ∃ reply st', complete o s p.2 st = (reply, st') ∧
        holding (ClauseSet.rules s diagonal).clauses st' ∧ R p reply)
    (pairs : List (Sigma Pair)) :
    ∃ replies st', session o s diagonal pairs st = (.ok replies, st') ∧
      List.Forall₂ R pairs replies := by
  obtain ⟨st₁, hstart, hst₁⟩ := ho.start_rules hst s diagonal
  obtain ⟨replies, st₂, hcalls, -, hreplies⟩ := Action.mapM_forall₂
    (f := fun p : Sigma Pair => (complete o s p.2).run) hR pairs hst₁
  refine ⟨replies, (o.release st₂).2, ?_, hreplies⟩
  rw [session_of_start hstart, hcalls]

theorem exists_getElem?_of_forall₂ {α β : Type} {R : α → β → Prop} {xs : List α} {ys : List β}
    (h : List.Forall₂ R xs ys) {i : Nat} {x : α} (hx : xs[i]? = some x) :
    ∃ y, ys[i]? = some y ∧ R x y := by
  obtain ⟨hi, rfl⟩ := List.getElem?_eq_some_iff.1 hx
  have hi' : i < ys.length := h.length_eq ▸ hi
  exact ⟨ys[i], List.getElem?_eq_getElem hi', h.get hi hi'⟩

/-- What a right answer is, case by case. -/
theorem answers_iff {p : Pair s} {answer : Option (Pair s)} (h : Answers diagonal p answer) :
    (answer = none ↔ ¬ ∃ q : Pair s, q.Completes diagonal p) ∧
      ((∃ q : Pair s, q.Completes diagonal p) →
        ∃ q, answer = some q ∧ q.Completes diagonal p) ∧
      (p.isComplete → answer = if p.isSolution diagonal then some p else none) := by
  cases answer with
  | none =>
    refine ⟨⟨fun _ => h, fun _ => rfl⟩, fun hq => absurd hq h, fun hp => ?_⟩
    rw [if_neg fun hsol => h ((Pair.exists_completes_iff_of_isComplete hp).2 hsol)]
  | some q =>
    refine ⟨⟨nofun, fun hnone => absurd ⟨q, h⟩ hnone⟩,
      fun _ => ⟨q, rfl, h⟩, fun hp => ?_⟩
    rw [if_pos ((Pair.exists_completes_iff_of_isComplete hp).1 ⟨q, h⟩),
      h.2.eq_of_complete (Pair.isComplete_iff.1 hp)]

/-- All replies of a session in which any pairs are completed one after another. Wherever a pair
of the session's size stands among them, it is answered with `none` exactly when it has no
completion, and else with one of its completions. A complete pair is its own completion if it
keeps the rules, and has none if it does not. -/
theorem session_complete (ho : o.Conforms holding) {st : σ} (hst : holding [] st)
    (pairs : List (Sigma Pair)) :
    ∃ replies st', session o s diagonal pairs st = (.ok replies, st') ∧
      replies.length = pairs.length ∧
      ∀ (i : Nat) (p : Pair s), pairs[i]? = some ⟨s, p⟩ →
        (replies[i]? = some (.ok none) ↔ ¬ ∃ q : Pair s, q.Completes diagonal p) ∧
        ((∃ q : Pair s, q.Completes diagonal p) →
          ∃ q, replies[i]? = some (.ok (some q)) ∧ q.Completes diagonal p) ∧
        (p.isComplete →
          replies[i]? = some (.ok (if p.isSolution diagonal then some p else none))) := by
  obtain ⟨st₁, hstart, hst₁⟩ := ho.start_rules hst s diagonal
  obtain ⟨replies, st₂, hcalls, _, hreplies⟩ := mapM_complete ho pairs hst₁
  refine ⟨replies, (o.release st₂).2, ?_, hreplies.length_eq.symm, fun i p hp => ?_⟩
  · rw [session, Action.bind_of_eq (x := (start o s diagonal).run) hstart]
    change ((pairs.mapM fun p => (complete o s p.2).run : StateM σ _) >>= fun results => _) st₁ = _
    rw [Action.bind_of_eq hcalls]
    rfl
  · obtain ⟨reply, hi, hreply⟩ := exists_getElem?_of_forall₂ hreplies hp
    obtain ⟨answer, rfl, hanswer⟩ := hreply.1 p rfl
    simpa only [hi, Option.some.injEq, Except.ok.injEq] using answers_iff hanswer

theorem session_complete_small :
    ∃ replies st', session Oracle.exhaustive .small false
        [⟨.standard, .empty .standard⟩, ⟨.small, .small⟩] [] = (.ok replies, st') ∧
      replies[1]? = some (.ok (some Pair.small)) := by
  obtain ⟨replies, st', hrun, -, hreplies⟩ := session_complete (s := .small)
    Oracle.exhaustive_conforms rfl [⟨.standard, .empty .standard⟩, ⟨.small, .small⟩]
  refine ⟨replies, st', hrun, ?_⟩
  rw [(hreplies 1 Pair.small rfl).2.2 (by decide), if_pos Pair.small_isSolution]

end Solving

end TwinSudoku
