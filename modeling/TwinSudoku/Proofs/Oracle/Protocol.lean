import TwinSudoku.Proofs.Generation.Steps
import TwinSudoku.Proofs.Solving.Completions

/-!
# The protocol of a session

Nothing is assumed here of what an oracle answers. Whatever its answers and failures are, a session
loads the rules once, asks queries only while they are loaded, and releases the oracle once, as the
last thing it does. Loading that fails leaves nothing but the release.

* `Oracle.Ended`: how a session ends, and what its oracle was asked until then.
* `Recorded.Opened`: what the oracle was asked while the session is open. Every step of a generating
  session keeps this (`Generation.opened_lasting`).
* `Solving.Turn`: the reply to one call of a solving session, with the one query behind it. A pair
  of another size is refused without a query.
* `sessions_keep_protocol`: all sessions, whatever they are called for.
-/

namespace TwinSudoku

variable {σ : Type} {o : Oracle σ}

/-! ## What an oracle is asked -/

def Exchange.IsQuery : Exchange → Prop
  | query _ _ => True
  | _ => False

/-- The clauses have been loaded, and nothing but queries followed. -/
def Recorded.Opened (clauses : List Clause) (r : Recorded σ) : Prop :=
  ∃ asked : List Exchange, (∀ x ∈ asked, x.IsQuery) ∧
    r.record.toList = .load clauses true :: asked

namespace Oracle

/-- The end of a session in which `st` is the state of the oracle at first. If the clauses could not
be loaded, the oracle was released at once, and the session ends with the oracle's failure.
Otherwise it was asked queries, of which `P` says more, and then released. -/
inductive Ended {α : Type} (o : Oracle σ) (clauses : List Clause) (st : σ)
    (P : α → List Exchange → Prop) : Except OracleError α × Recorded σ → Prop
  | refused {e : OracleError} {st' : σ} {r : Recorded σ}
      (hload : o.load clauses st = (Except.error e, st'))
      (hrecord : r.record.toList = [.load clauses false, .release]) :
      Ended o clauses st P (.error e, r)
  | released {a : α} {st' : σ} {r : Recorded σ} {asked : List Exchange}
      (hload : o.load clauses st = (Except.ok (), st'))
      (hqueries : ∀ x ∈ asked, x.IsQuery) (hasked : P a asked)
      (hrecord : r.record.toList = .load clauses true :: asked ++ [.release]) :
      Ended o clauses st P (.ok a, r)

theorem toList_record_release (r : Recorded σ) :
    (o.recorded.release r).2.record.toList = r.record.toList ++ [.release] := by
  rw [recorded_release, Array.toList_push]

theorem start_recorded_of_error {clauses : List Clause} {st st' : σ} {e : OracleError}
    (h : o.load clauses st = (Except.error e, st')) :
    ∃ r, o.recorded.start clauses ⟨st, #[]⟩ = (.error e, r) ∧
      r.record.toList = [.load clauses false, .release] := by
  let r : Recorded σ := ⟨st', #[.load clauses false]⟩
  exact ⟨(o.recorded.release r).2, Run.tryCatch_of_error (recorded_load h) _,
    toList_record_release r⟩

theorem start_recorded_of_ok {clauses : List Clause} {st st' : σ}
    (h : o.load clauses st = (Except.ok (), st')) :
    ∃ r, o.recorded.start clauses ⟨st, #[]⟩ = (.ok (), r) ∧
      r.record.toList = [.load clauses true] :=
  ⟨_, start_of_load (recorded_load h), rfl⟩

end Oracle

/-! ## Solving -/

namespace Solving

variable {s : Size}

/-- The reply to one call, with what the oracle was asked for it. -/
inductive Turn (s : Size) :
    Sigma Pair → Except Failure (Option (Pair s)) × List Exchange → Prop
  | asked (p : Pair s) (answer : Except OracleError (Option Model)) :
      Turn s ⟨s, p⟩ ((answer.map (·.map p.write)).mapError .oracle,
        [.query (p.literals s) (.ofAnswer answer)])
  | refused {e : Size} (p : Pair e) (he : e ≠ s) :
      Turn s ⟨e, p⟩ (.error (.misuse (.sizeMismatch e s)), [])

theorem Turn.isQuery {p : Sigma Pair} {turn : Except Failure (Option (Pair s)) × List Exchange}
    (h : Turn s p turn) : ∀ x ∈ turn.2, x.IsQuery := by
  cases h with
  | asked p answer => exact List.forall_mem_singleton.2 trivial
  | refused p he => exact List.forall_mem_nil _

theorem complete_turn (p : Sigma Pair) (r : Recorded σ) :
    ∃ reply made r', complete o.recorded s p.2 r = (reply, r') ∧ r.Adds r' made ∧
      Turn s p (reply, made) := by
  obtain ⟨e, p⟩ := p
  by_cases he : e = s
  · subst he
    cases hsolve : o.recorded.solve (p.literals e) r with
    | mk answer r' =>
      exact ⟨_, _, r', complete_of_solve hsolve, (Oracle.solve_of_recorded hsolve).2,
        .asked p answer⟩
  · refine ⟨_, [], r, ?_, .refl r, .refused p he⟩
    rw [complete, dif_neg he]
    rfl

/-- Calls one after another: each has its turn, and the oracle is asked nothing between them. -/
theorem mapM_turns (pairs : List (Sigma Pair)) (r : Recorded σ) :
    ∃ turns r', (pairs.mapM fun p => (complete o.recorded s p.2).run : StateM (Recorded σ) _) r =
        (turns.map Prod.fst, r') ∧
      r.Adds r' (turns.flatMap Prod.snd) ∧ List.Forall₂ (Turn s) pairs turns := by
  induction pairs generalizing r with
  | nil => exact ⟨[], r, rfl, .refl r, .nil⟩
  | cons p rest ih =>
    obtain ⟨reply, made, r₁, hrun, hmade, hturn⟩ := complete_turn (o := o) (s := s) p r
    obtain ⟨turns, r₂, hrest, hothers, hturns⟩ := ih r₁
    refine ⟨(reply, made) :: turns, r₂, ?_, hmade.trans hothers, .cons hturn hturns⟩
    rw [List.mapM_cons, Action.bind_of_eq (x := (complete o.recorded s p.2).run) hrun,
      Action.bind_of_eq hrest]
    rfl

theorem isQuery_of_turns {pairs : List (Sigma Pair)}
    {turns : List (Except Failure (Option (Pair s)) × List Exchange)}
    (h : List.Forall₂ (Turn s) pairs turns) : ∀ x ∈ turns.flatMap Prod.snd, x.IsQuery := by
  induction h with
  | nil => exact List.forall_mem_nil _
  | cons hturn hrest ih => exact List.forall_mem_append.2 ⟨hturn.isQuery, ih⟩

theorem session_ended (o : Oracle σ) (st : σ) (s : Size) (diagonal : Bool)
    (pairs : List (Sigma Pair)) :
    o.Ended (ClauseSet.rules s diagonal).clauses st
      (fun replies asked => ∃ turns, List.Forall₂ (Turn s) pairs turns ∧
        replies = turns.map Prod.fst ∧ asked = turns.flatMap Prod.snd)
      (session o.recorded s diagonal pairs ⟨st, #[]⟩) := by
  cases hload : o.load (ClauseSet.rules s diagonal).clauses st with
  | mk outcome st' =>
    cases outcome with
    | error e =>
      obtain ⟨r, hstart, hrecord⟩ := Oracle.start_recorded_of_error hload
      rw [session, Action.bind_of_eq (x := (start o.recorded s diagonal).run) hstart]
      exact .refused hload hrecord
    | ok =>
      obtain ⟨r, hstart, hrecord⟩ := Oracle.start_recorded_of_ok hload
      obtain ⟨turns, r', hrun, hadds, hturns⟩ := mapM_turns (o := o) (s := s) pairs r
      rw [session_of_start hstart, hrun]
      refine .released hload (isQuery_of_turns hturns) ⟨turns, hturns, rfl, rfl⟩ ?_
      rw [Oracle.toList_record_release, hadds, hrecord]
      rfl

end Solving

/-! ## Generating -/

namespace Generation

variable {ρ : Type} {plan : Plan}

/-- Every step of an open session leaves it open. -/
theorem opened_lasting (clauses : List Clause) : Lasting o.recorded plan
    fun g : Generator (Recorded σ) ρ => g.session.Opened clauses where
  keeps_ask {assumptions} _ g hg := by
    obtain ⟨asked, hqueries, hrecord⟩ := hg
    cases hsolve : o.recorded.solve assumptions g.session with
    | mk answer r =>
      have hadds := (Oracle.solve_of_recorded hsolve).2
      refine ⟨asked ++ [.query assumptions (.ofAnswer answer)], ?_, ?_⟩
      · exact List.forall_mem_append.2 ⟨hqueries, List.forall_mem_singleton.2 trivial⟩
      · show (o.recorded.solve assumptions g.session).2.record.toList = _
        rw [hsolve, hadds, hrecord]
        rfl
  keeps_roll _ _ hg := hg
  keeps_note _ _ hg := hg

theorem length_respondAll {τ : Type} (o : Oracle τ) (dice : Random.Dice ρ) (calls : List Call)
    (g : Generator τ ρ) : (respondAll o dice plan calls g).1.length = calls.length := by
  induction calls generalizing g with
  | nil => rfl
  | cons call rest ih => exact congrArg (· + 1) (ih _)

/-- A session whose rules are loaded answers the calls one after another and is then released. -/
theorem session_of_start (dice : Random.Dice ρ) {st st' : σ} {tally : Tally}
    (h : start o plan st = (.ok tally, st')) (random : ρ) (calls : List Call) :
    session o dice plan random calls st =
      let called := respondAll o dice plan calls ⟨st', random, tally⟩
      (.ok called.1, (o.release called.2.session).2) := by
  rw [session, Action.bind_of_eq (x := (start o plan).run) h]
  rfl

theorem session_ended (o : Oracle σ) (st : σ) (dice : Random.Dice ρ) (plan : Plan) (random : ρ)
    (calls : List Call) :
    o.Ended (ClauseSet.rules plan.size plan.diagonal).clauses st
      (fun replies _ => replies.length = calls.length)
      (session o.recorded dice plan random calls ⟨st, #[]⟩) := by
  cases hload : o.load (ClauseSet.rules plan.size plan.diagonal).clauses st with
  | mk outcome st' =>
    cases outcome with
    | error e =>
      obtain ⟨r, hstart, hrecord⟩ := Oracle.start_recorded_of_error hload
      have hrun : start o.recorded plan ⟨st, #[]⟩ = (.error e, r) := Run.bind_of_error hstart _
      rw [session, Action.bind_of_eq (x := (start o.recorded plan).run) hrun]
      exact .refused hload hrecord
    | ok =>
      obtain ⟨r, hstart, hrecord⟩ := Oracle.start_recorded_of_ok hload
      let tally : Tally :=
        ⟨(ClauseSet.rules plan.size plan.diagonal).clauses.length, 0, 0, 0, 0, 0⟩
      have hrun : start o.recorded plan ⟨st, #[]⟩ = (.ok tally, r) := Run.bind_of_ok hstart _
      obtain ⟨asked, hqueries, hasked⟩ := (opened_lasting _).keeps_respondAll dice calls
        (g := ⟨r, random, tally⟩) ⟨[], List.forall_mem_nil _, hrecord⟩
      rw [session_of_start dice hrun]
      refine .released hload hqueries (length_respondAll o.recorded dice calls _) ?_
      rw [Oracle.toList_record_release, hasked]

end Generation

/-! ## All sessions -/

/-- Every session keeps the protocol, whatever the oracle answers and whatever the session is called
for. The rules are loaded once, and first of all. If that fails, the session ends with this failure
and the oracle has been released. Otherwise it is asked queries, and once the calls are answered it
is released and not asked again. A solving session asks one query for each pair of its size, and
refuses any other pair without a query. -/
theorem sessions_keep_protocol (o : Oracle σ) (st : σ) :
    (∀ (s : Size) (diagonal : Bool) (pairs : List (Sigma Pair)),
      o.Ended (ClauseSet.rules s diagonal).clauses st
        (fun replies asked => ∃ turns, List.Forall₂ (Solving.Turn s) pairs turns ∧
          replies = turns.map Prod.fst ∧ asked = turns.flatMap Prod.snd)
        (Solving.session o.recorded s diagonal pairs ⟨st, #[]⟩)) ∧
    ∀ (ρ : Type) (dice : Random.Dice ρ) (plan : Plan) (random : ρ) (calls : List Generation.Call),
      o.Ended (ClauseSet.rules plan.size plan.diagonal).clauses st
        (fun replies _ => replies.length = calls.length)
        (Generation.session o.recorded dice plan random calls ⟨st, #[]⟩) :=
  ⟨Solving.session_ended o st, fun _ => Generation.session_ended o st⟩

end TwinSudoku
