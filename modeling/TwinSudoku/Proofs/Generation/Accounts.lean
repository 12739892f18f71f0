import TwinSudoku.Oracle.Script
import TwinSudoku.Proofs.Generation.Attempts
import TwinSudoku.Proofs.Generation.Minimizing
import TwinSudoku.Proofs.Oracle.Protocol

/-!
# The tally accounts for every query

Nothing is assumed here of what an oracle answers. A query may fail in the middle of a search or
while digits are removed; the tally has counted it, and counts on from there with the next call.

* `Generation.Spends`: a run goes up in the tally by just the queries it has asked.
* `Generation.solutionWithin_spends`, `minimizeIn_spends`, `generate_spends`: the runs of a session,
  whether or not they succeed. What succeeds has visited every digit, and tells those that stay.
* `Generation.tally_of_generate`: what one puzzle costs.
* `Generation.Ledger`: the queries that the numbers of a tally are about, taken from the record.
* `Generation.Balanced`: the tally agrees with the record and the ledger. Each call keeps this
  (`Balanced.respond`).
* `Generation.tally_accounts`: so it is after any calls, and for the next puzzle generated.
-/

namespace TwinSudoku

/-! ## Queries of a record -/

/-- A query with its outcome. -/
abbrev Query := List Int × QueryOutcome

namespace Recorded

variable {σ : Type} {r r₁ r₂ r₃ : Recorded σ}

/-- Between the two records, just these queries were asked. -/
def Asks (before after : Recorded σ) (made : List Query) : Prop :=
  after.queries = before.queries ++ made

theorem Asks.refl (r : Recorded σ) : r.Asks r [] := by
  rw [Asks, List.append_nil]

theorem Asks.trans {made more : List Query} (h₁ : r₁.Asks r₂ made) (h₂ : r₂.Asks r₃ more) :
    r₁.Asks r₃ (made ++ more) := by
  rw [Asks, h₂, h₁, List.append_assoc]

theorem Adds.asks {assumptions : List Int} {outcome : QueryOutcome}
    (h : r₁.Adds r₂ [.query assumptions outcome]) : r₁.Asks r₂ [(assumptions, outcome)] := by
  rw [Asks, queries, h, List.filterMap_append]
  rfl

/-- A session that was only asked queries since the clauses were loaded has loaded nothing else. -/
theorem Opened.loads {clauses : List Clause} (h : r.Opened clauses) :
    r.loads = [clauses.length] := by
  obtain ⟨asked, hqueries, hrecord⟩ := h
  rw [Recorded.loads, hrecord]
  refine congrArg (clauses.length :: ·) (List.filterMap_eq_nil_iff.2 fun x hx => ?_)
  have hquery := hqueries x hx
  cases x with
  | query assumptions outcome => rfl
  | load clauses loaded => exact absurd hquery id
  | release => exact absurd hquery id

end Recorded

/-- The number of queries with an outcome. -/
def QueryOutcome.among (outcome : QueryOutcome) (made : List Query) : Nat :=
  made.countP fun query => query.2 == outcome

theorem QueryOutcome.among_append (outcome : QueryOutcome) (made more : List Query) :
    outcome.among (made ++ more) = outcome.among made + outcome.among more := List.countP_append

namespace Pair

variable {e : Size}

theorem filledCount_without {p : Pair e} {c : Cell} (hc : p.digit c ≠ 0) :
    (p.without c).filledCount + 1 = p.filledCount := by
  have hmem : c ∈ p.filled := mem_filled.2 ⟨inside_of_digit_ne_zero hc, hc⟩
  have hperm : (p.without c).filled.Perm (p.filled.erase c) := by
    refine (List.perm_ext_iff_of_nodup (p.without c).nodup_filled (p.nodup_filled.erase c)).2 ?_
    intro d
    rw [mem_filled, p.nodup_filled.mem_erase_iff, mem_filled, digit_without]
    by_cases hd : d = c <;> simp [hd]
  have hpos := List.length_pos_of_mem hmem
  rw [filledCount_eq_length_filled, filledCount_eq_length_filled, hperm.length_eq,
    List.length_erase_of_mem hmem]
  omega

end Pair

namespace Generation

variable {σ ρ : Type} {o : Oracle σ} {plan : Plan} {e : Size}
  {g g' g₁ g₂ g₃ : Generator (Recorded σ) ρ}

/-! ## What a run spends -/

/-- Between two states of a session these queries were asked, and `visits` of them were about
digits to remove. The tally went up by them. -/
structure Spends (before after : Generator (Recorded σ) ρ) (made visits : List Query) : Prop where
  asks : before.session.Asks after.session made
  queries : after.tally.queries = before.tally.queries + made.length
  removed : after.tally.removed = before.tally.removed + QueryOutcome.unsatisfiable.among visits
  restored : after.tally.restored = before.tally.restored + QueryOutcome.satisfiable.among visits

theorem Spends.refl (g : Generator (Recorded σ) ρ) : Spends g g [] [] :=
  ⟨.refl g.session, rfl, rfl, rfl⟩

theorem Spends.trans {made more visits others : List Query} (h₁ : Spends g₁ g₂ made visits)
    (h₂ : Spends g₂ g₃ more others) : Spends g₁ g₃ (made ++ more) (visits ++ others) where
  asks := h₁.asks.trans h₂.asks
  queries := by rw [h₂.queries, h₁.queries, List.length_append, Nat.add_assoc]
  removed := by rw [h₂.removed, h₁.removed, QueryOutcome.among_append, Nat.add_assoc]
  restored := by rw [h₂.restored, h₁.restored, QueryOutcome.among_append, Nat.add_assoc]

/-- The queries that a run asks. -/
def asking {α : Type} (x : Step (Recorded σ) ρ α) (g : Generator (Recorded σ) ρ) : List Query :=
  (x g).2.session.queries.drop g.session.queries.length

theorem Spends.asking_eq {α : Type} {x : Step (Recorded σ) ρ α} {result : Except Failure α}
    {made visits : List Query} (h : Spends g g' made visits) (hrun : x g = (result, g')) :
    asking x g = made := by
  rw [asking, hrun, h.asks, List.drop_left]

theorem ask_recorded (o : Oracle σ) (assumptions : List Int) (g : Generator (Recorded σ) ρ) :
    ∃ answer r, ask o.recorded assumptions g =
        (answer.mapError .oracle, { g with session := r }) ∧
      g.session.Asks r [(assumptions, .ofAnswer answer)] := by
  cases hsolve : o.recorded.solve assumptions g.session with
  | mk answer r => exact ⟨answer, r, ask_of_eq hsolve, (Oracle.solve_of_recorded hsolve).2.asks⟩

/-! ## Searching -/

/-- One more attempt asks one query. It ends the search, with a result or with a failure, or the
search goes on. -/
theorem attempt_spends (o : Oracle σ) (dice : Random.Dice ρ) (plan : Plan) (left : Nat)
    (g : Generator (Recorded σ) ρ) :
    ∃ g₁ query, Spends g g₁ [query] [] ∧ g₁.tally.attempts = plan.attempts - left ∧
      ((∃ result, solutionWithin o.recorded dice plan (left + 1) g = (result, g₁)) ∨
        solutionWithin o.recorded dice plan (left + 1) g =
          solutionWithin o.recorded dice plan left g₁) := by
  obtain ⟨answer, r, hask, hasks⟩ := ask_recorded o
    ((drawnNext dice plan g.random).map Placement.literal) (attempt dice plan left g g.session)
  refine ⟨attempt dice plan left g r, _, ⟨hasks, rfl, rfl, rfl⟩, rfl, ?_⟩
  rw [solutionWithin, Run.bind_of_ok (roll_apply _ g), Run.bind_of_ok (note_apply _ _)]
  cases answer with
  | error e => exact .inl ⟨_, Run.bind_of_error hask _⟩
  | ok answer =>
    cases answer with
    | none => exact .inr (Run.bind_of_ok hask _)
    | some m =>
      let pair := (Pair.ofPlacements (drawnNext dice plan g.random)).write m
      by_cases hpair : pair.isSolution plan.diagonal
      · exact .inl ⟨.ok pair, (Run.bind_of_ok hask _).trans (congrFun (if_pos hpair) _)⟩
      · exact .inl ⟨.error (.rulesBroken plan.size pair),
          (Run.bind_of_ok hask _).trans (congrFun (if_neg hpair) _)⟩

/-- A search has asked one query for each attempt it noted, also where the last of them failed. -/
theorem solutionWithin_spends (o : Oracle σ) (dice : Random.Dice ρ) {left : Nat}
    (hleft : left ≤ plan.attempts) (g : Generator (Recorded σ) ρ)
    (hg : left = 0 → g.tally.attempts = plan.attempts) :
    ∃ result g' made, solutionWithin o.recorded dice plan left g = (result, g') ∧
      Spends g g' made [] ∧ g'.tally.attempts + left = plan.attempts + made.length := by
  induction left generalizing g with
  | zero => exact ⟨_, g, [], rfl, .refl g, hg rfl⟩
  | succ left ih =>
    obtain ⟨g₁, query, hspent, hattempts, ⟨result, hend⟩ | hon⟩ :=
      attempt_spends o dice plan left g
    · refine ⟨result, g₁, [query], hend, hspent, ?_⟩
      rw [hattempts, List.length_singleton]
      omega
    · obtain ⟨result, g', made, hrun, hrest, hcount⟩ := ih (by omega) g₁ (by omega)
      refine ⟨result, g', [query] ++ made, hon.trans hrun, hspent.trans hrest, ?_⟩
      rw [List.length_append, List.length_singleton]
      omega

theorem solution_spends (o : Oracle σ) (dice : Random.Dice ρ) (g : Generator (Recorded σ) ρ)
    (hidle : plan.attempts = 0 → g.tally.attempts = 0) :
    ∃ result g' search, solution o.recorded dice plan g = (result, g') ∧
      Spends g g' search [] ∧ g'.tally.attempts = search.length := by
  obtain ⟨result, g', search, hrun, hspent, hcount⟩ :=
    solutionWithin_spends o dice (Nat.le_refl plan.attempts) g fun hzero => by
      rw [hzero, hidle hzero]
  exact ⟨result, g', search, hrun, hspent, by omega⟩

/-! ## Removing digits -/

/-- How the question about a digit ended, and the query asked for it. A pair or a cell that does not
fit is refused without a query. -/
inductive Told : Except Failure Bool → List Query → Prop
  | refused (e : Failure) : Told (.error e) []
  | failed (e : Failure) (assumptions : List Int) : Told (.error e) [(assumptions, .failed)]
  | kept (assumptions : List Int) : Told (.ok true) [(assumptions, .satisfiable)]
  | spared (assumptions : List Int) : Told (.ok false) [(assumptions, .unsatisfiable)]

theorem hasAlternative_spends (o : Oracle σ) (plan : Plan) (p : Pair e) (c : Cell) (d : Nat)
    (g : Generator (Recorded σ) ρ) :
    ∃ result g' made, hasAlternative o.recorded plan p c d g = (result, g') ∧
      Spends g g' made [] ∧ g'.tally.attempts = g.tally.attempts ∧ Told result made := by
  unfold hasAlternative
  cases plan.size.givens p with
  | error misuse => exact ⟨_, g, [], Run.bind_of_error rfl _, .refl g, rfl, .refused _⟩
  | ok givens =>
    rw [Run.bind_of_ok (Run.ofMisuse_ok givens g)]
    cases plan.size.denied c d with
    | error misuse => exact ⟨_, g, [], Run.bind_of_error rfl _, .refl g, rfl, .refused _⟩
    | ok denial =>
      rw [Run.bind_of_ok (Run.ofMisuse_ok denial g), Run.bind_of_ok (note_apply _ g)]
      obtain ⟨answer, r, hask, hasks⟩ := ask_recorded o (givens ++ [denial])
        { g with tally := { g.tally with queries := g.tally.queries + 1 } }
      cases answer with
      | error e =>
        exact ⟨_, _, _, Run.bind_of_error hask _, ⟨hasks, rfl, rfl, rfl⟩, rfl, .failed _ _⟩
      | ok answer =>
        cases answer with
        | none => exact ⟨_, _, _, Run.bind_of_ok hask _, ⟨hasks, rfl, rfl, rfl⟩, rfl, .spared _⟩
        | some m => exact ⟨_, _, _, Run.bind_of_ok hask _, ⟨hasks, rfl, rfl, rfl⟩, rfl, .kept _⟩

/-- A visit asks about one digit. Where it does not fail, the digit was kept or removed, by the
answer, and the other cells follow. -/
theorem visit_spends (o : Oracle σ) (plan : Plan) (c : Cell) (rest : List Cell) (p : Pair e)
    (g : Generator (Recorded σ) ρ) :
    (∃ failure g' made, minimizeIn o.recorded plan (c :: rest) p g = (.error failure, g') ∧
        Spends g g' made made ∧ g'.tally.attempts = g.tally.attempts) ∨
      ∃ q g₁ query, minimizeIn o.recorded plan (c :: rest) p g =
          minimizeIn o.recorded plan rest q g₁ ∧
        Spends g g₁ [query] [query] ∧ g₁.tally.attempts = g.tally.attempts ∧
        (∀ d, d ≠ c → q.digit d = p.digit d) ∧
        QueryOutcome.unsatisfiable.among [query] + QueryOutcome.satisfiable.among [query] = 1 ∧
        (p.digit c ≠ 0 →
          QueryOutcome.unsatisfiable.among [query] + q.filledCount = p.filledCount) := by
  obtain ⟨result, g₁, made, hrun, hspent, hattempts, htold⟩ :=
    hasAlternative_spends o plan (p.without c) c (p.digit c) g
  obtain ⟨hasks, hqueries, hremoved, hrestored⟩ := hspent
  rw [minimizeIn]
  cases htold with
  | refused failure =>
    exact .inl ⟨failure, g₁, [], Run.bind_of_error hrun _, ⟨hasks, hqueries, hremoved, hrestored⟩,
      hattempts⟩
  | failed failure assumptions =>
    exact .inl ⟨failure, g₁, _, Run.bind_of_error hrun _,
      ⟨hasks, hqueries, hremoved, hrestored⟩, hattempts⟩
  | kept assumptions =>
    refine .inr ⟨p, _, (assumptions, .satisfiable),
      (Run.bind_of_ok hrun _).trans (Run.bind_of_ok (note_apply _ g₁) _),
      ⟨hasks, hqueries, hremoved, congrArg (· + 1) hrestored⟩, hattempts, fun _ _ => rfl, rfl, ?_⟩
    exact fun _ => Nat.zero_add _
  | spared assumptions =>
    refine .inr ⟨p.without c, _, (assumptions, .unsatisfiable),
      (Run.bind_of_ok hrun _).trans (Run.bind_of_ok (note_apply _ g₁) _),
      ⟨hasks, hqueries, congrArg (· + 1) hremoved, hrestored⟩, hattempts,
      fun _ => p.digit_without_of_ne, rfl, ?_⟩
    exact fun hc => (Nat.add_comm 1 _).trans (Pair.filledCount_without hc)

/-- Visits of digits, each of them once. What is left has those that were kept. -/
theorem minimizeIn_spends (o : Oracle σ) (plan : Plan) (order : List Cell) (p : Pair e)
    (g : Generator (Recorded σ) ρ) :
    ∃ result g' visits, minimizeIn o.recorded plan order p g = (result, g') ∧
      Spends g g' visits visits ∧ g'.tally.attempts = g.tally.attempts ∧
      ∀ q, result = .ok q → order.Nodup → (∀ c ∈ order, p.digit c ≠ 0) →
        visits.length = order.length ∧
        QueryOutcome.unsatisfiable.among visits + QueryOutcome.satisfiable.among visits =
          visits.length ∧
        QueryOutcome.unsatisfiable.among visits + q.filledCount = p.filledCount := by
  induction order generalizing p g with
  | nil =>
    refine ⟨.ok p, g, [], rfl, .refl g, rfl, ?_⟩
    rintro _ ⟨⟩ - -
    exact ⟨rfl, rfl, Nat.zero_add _⟩
  | cons c rest ih =>
    obtain ⟨failure, g', made, hrun, hspent, hattempts⟩ |
      ⟨p', g₁, query, hon, hspent, hattempts, hothers, hone, hcount⟩ :=
      visit_spends o plan c rest p g
    · exact ⟨_, g', made, hrun, hspent, hattempts, nofun⟩
    · obtain ⟨result, g', visits, hrun, hrest, hsame, hvisits⟩ := ih p' g₁
      refine ⟨result, g', [query] ++ visits, hon.trans hrun, hspent.trans hrest,
        hsame.trans hattempts, fun q hq hnodup hfilled => ?_⟩
      obtain ⟨hc, hnodup'⟩ := List.nodup_cons.1 hnodup
      have hfilled' (d : Cell) (hd : d ∈ rest) : p'.digit d ≠ 0 := by
        rw [hothers d (ne_of_mem_of_not_mem hd hc)]
        exact hfilled d (List.mem_cons_of_mem c hd)
      obtain ⟨hlength, hsum, hleft⟩ := hvisits q hq hnodup' hfilled'
      have hfirst := hcount (hfilled c List.mem_cons_self)
      simp only [List.length_append, QueryOutcome.among_append, List.length_cons, List.length_nil]
      omega

/-- Each digit of the one pair was visited once, with a query about it. The other pair has those
that were kept. -/
structure Visited (p q : Pair e) (visits : List Query) : Prop where
  length : visits.length = p.filledCount
  kept : QueryOutcome.satisfiable.among visits = q.filledCount
  removed : QueryOutcome.unsatisfiable.among visits + q.filledCount = p.filledCount

theorem minimize_spends (o : Oracle σ) (dice : Random.Dice ρ) (plan : Plan) (p : Pair e)
    (g : Generator (Recorded σ) ρ) :
    ∃ result g' visits, minimize o.recorded dice plan p g = (result, g') ∧
      Spends g g' visits visits ∧ g'.tally.attempts = g.tally.attempts ∧
      ∀ q, result = .ok q → Visited p q visits := by
  have hperm := Random.shuffle_perm dice p.filled g.random
  obtain ⟨result, g', visits, hrun, hspent, hattempts, hcount⟩ :=
    minimizeIn_spends o plan (Random.shuffle dice p.filled g.random).1 p
      { g with random := (Random.shuffle dice p.filled g.random).2 }
  refine ⟨result, g', visits, (Run.bind_of_ok (roll_apply _ g) _).trans hrun,
    ⟨hspent.asks, hspent.queries, hspent.removed, hspent.restored⟩, hattempts, fun q hq => ?_⟩
  obtain ⟨hlength, hsum, hleft⟩ := hcount q hq (Pair.nodup_of_perm hperm)
    (Pair.digit_ne_zero_of_perm hperm)
  rw [hperm.length_eq, ← Pair.filledCount_eq_length_filled] at hlength
  exact ⟨hlength, by omega, hleft⟩

/-! ## Puzzles -/

/-- What a session that generates has spent: it searched and then visited digits. Where it gave a
puzzle, every digit of the solution was visited, and those kept are the digits of the puzzle. -/
theorem generate_spends (o : Oracle σ) (dice : Random.Dice ρ) (g : Generator (Recorded σ) ρ)
    (hidle : plan.attempts = 0 → g.tally.attempts = 0) :
    ∃ result g' search visits, generate o.recorded dice plan g = (result, g') ∧
      Spends g g' (search ++ visits) visits ∧ g'.tally.attempts = search.length ∧
      asking (solution o.recorded dice plan) g = search ∧
      ∀ made, result = .ok made → Visited made.solution made.puzzle visits ∧
        g'.tally.givens = made.puzzle.filledCount ∧ g'.tally = made.tally := by
  obtain ⟨result, g₁, search, hsolution, hspent, hattempts⟩ := solution_spends o dice g hidle
  have hasking := hspent.asking_eq hsolution
  cases result with
  | error failure =>
    refine ⟨.error failure, g₁, search, [], Run.bind_of_error hsolution _, ?_, hattempts, hasking,
      nofun⟩
    rwa [List.append_nil]
  | ok q =>
    obtain ⟨result, g₂, visits, hminimize, hvisits, hsame, hvisited⟩ :=
      minimize_spends o dice plan q g₁
    have hall : Spends g g₂ (search ++ visits) visits := hspent.trans hvisits
    cases result with
    | error failure =>
      have hrun : generate o.recorded dice plan g = (.error failure, g₂) := by
        rw [generate, Run.bind_of_ok hsolution, Run.bind_of_error hminimize]
      exact ⟨.error failure, g₂, search, visits, hrun, hall, hsame.trans hattempts, hasking, nofun⟩
    | ok puzzle =>
      refine ⟨_, _, search, visits, generate_of_steps hsolution hminimize,
        ⟨hall.asks, hall.queries, hall.removed, hall.restored⟩, hsame.trans hattempts, hasking, ?_⟩
      rintro _ ⟨⟩
      exact ⟨hvisited puzzle rfl, rfl, rfl⟩

/-- What a puzzle costs: the attempts of its search and one visit for each digit of its solution, of
which those of the puzzle were kept. -/
theorem tally_of_generate (o : Oracle σ) (dice : Random.Dice ρ)
    (hidle : plan.attempts = 0 → g.tally.attempts = 0) {made : Generated plan.size}
    (hrun : generate o.recorded dice plan g = (.ok made, g')) :
    g'.tally = made.tally ∧
      g'.tally.queries = g.tally.queries + g'.tally.attempts + made.solution.filledCount ∧
      g'.tally.removed + g'.tally.restored =
        g.tally.removed + g.tally.restored + made.solution.filledCount ∧
      g'.tally.restored = g.tally.restored + g'.tally.givens ∧
      g'.tally.givens = made.puzzle.filledCount := by
  obtain ⟨result, g'', search, visits, hrun', hspent, hattempts, -, hmade⟩ :=
    generate_spends o dice g hidle
  cases hrun.symm.trans hrun'
  obtain ⟨⟨hlength, hkept, hremoved⟩, hgivens, htally⟩ := hmade made rfl
  have hasked := hspent.queries
  have hless := hspent.removed
  have hmore := hspent.restored
  rw [List.length_append] at hasked
  exact ⟨htally, by omega, by omega, by omega, hgivens⟩

/-! ## All calls -/

/-- The queries that the numbers of a tally are about: those of the latest search for a solution,
and all about digits to remove. -/
structure Ledger where
  search : List Query
  visits : List Query

/-- The ledger after a call that finds the session in the state `g`. What is asked in generating is
a search at first, and then visits. -/
def Ledger.enter (ledger : Ledger) (o : Oracle σ) (dice : Random.Dice ρ) (plan : Plan)
    (g : Generator (Recorded σ) ρ) : Call → Ledger
  | .solution => { ledger with search := asking (solution o.recorded dice plan) g }
  | .minimize ⟨_, p⟩ =>
    { ledger with visits := ledger.visits ++ asking (minimize o.recorded dice plan p) g }
  | .generate =>
    let search := asking (solution o.recorded dice plan) g
    let visits := (asking (generate o.recorded dice plan) g).drop search.length
    { search, visits := ledger.visits ++ visits }
  | .alternative _ _ _ => ledger

/-- The ledger after calls one after another. -/
def Ledger.enterAll (o : Oracle σ) (dice : Random.Dice ρ) (plan : Plan) :
    Ledger → Generator (Recorded σ) ρ → List Call → Ledger
  | ledger, _, [] => ledger
  | ledger, g, call :: rest =>
    enterAll o dice plan (ledger.enter o dice plan g call)
      (respond o.recorded dice plan call g).2 rest

/-- The tally agrees with the record and the ledger. -/
structure Balanced (plan : Plan) (ledger : Ledger) (g : Generator (Recorded σ) ρ) : Prop where
  queries : g.tally.queries = g.session.queries.length
  removed : g.tally.removed = QueryOutcome.unsatisfiable.among ledger.visits
  restored : g.tally.restored = QueryOutcome.satisfiable.among ledger.visits
  attempts : g.tally.attempts = ledger.search.length
  idle : plan.attempts = 0 → g.tally.attempts = 0

theorem Balanced.spend {ledger : Ledger} {made visits search : List Query}
    (h : Balanced plan ledger g) (hspent : Spends g g' made visits)
    (hattempts : g'.tally.attempts = search.length)
    (hidle : plan.attempts = 0 → g'.tally.attempts = 0) :
    Balanced plan ⟨search, ledger.visits ++ visits⟩ g' where
  queries := by rw [hspent.queries, h.queries, hspent.asks, List.length_append]
  removed := by rw [hspent.removed, h.removed, QueryOutcome.among_append]
  restored := by rw [hspent.restored, h.restored, QueryOutcome.among_append]
  attempts := hattempts
  idle := hidle

/-- What is made of the result of a run does not change its end. -/
theorem bind_pure_snd {τ α β : Type} (x : Step τ ρ α) (f : α → β) (g : Generator τ ρ) :
    ((do return f (← x)) g : Except Failure β × Generator τ ρ).2 = (x g).2 := by
  cases hrun : x g with
  | mk result g' =>
    cases result with
    | error e => rw [Run.bind_of_error hrun]
    | ok a => rw [Run.bind_of_ok hrun, Run.pure_apply]

/-- Each call keeps the balance, whether or not it succeeds. -/
theorem Balanced.respond {ledger : Ledger} (h : Balanced plan ledger g) (o : Oracle σ)
    (dice : Random.Dice ρ) (call : Call) :
    Balanced plan (ledger.enter o dice plan g call) (respond o.recorded dice plan call g).2 := by
  have hidle := idle_lasting.keeps_respond (o := o.recorded) dice call g h.idle
  cases call with
  | solution =>
    rw [Generation.respond, bind_pure_snd] at hidle ⊢
    obtain ⟨result, g', search, hrun, hspent, hattempts⟩ := solution_spends o dice g h.idle
    rw [hrun] at hidle ⊢
    have hbalanced := h.spend hspent hattempts hidle
    rwa [List.append_nil, ← hspent.asking_eq hrun] at hbalanced
  | minimize pair =>
    obtain ⟨e, p⟩ := pair
    rw [Generation.respond, bind_pure_snd] at hidle ⊢
    obtain ⟨result, g', visits, hrun, hspent, hattempts, -⟩ :=
      minimize_spends o dice plan p g
    rw [hrun] at hidle ⊢
    have hbalanced := h.spend hspent (hattempts.trans h.attempts) hidle
    rwa [← hspent.asking_eq hrun] at hbalanced
  | generate =>
    rw [Generation.respond, bind_pure_snd] at hidle ⊢
    obtain ⟨result, g', search, visits, hrun, hspent, hattempts, hsearch, -⟩ :=
      generate_spends o dice g h.idle
    have hvisits : (asking (generate o.recorded dice plan) g).drop
        (asking (solution o.recorded dice plan) g).length = visits := by
      rw [hspent.asking_eq hrun, hsearch, List.drop_left]
    rw [hrun] at hidle ⊢
    have hbalanced := h.spend hspent hattempts hidle
    rwa [← hvisits, ← hsearch] at hbalanced
  | alternative pair c d =>
    obtain ⟨e, p⟩ := pair
    rw [Generation.respond, bind_pure_snd] at hidle ⊢
    obtain ⟨result, g', made, hrun, hspent, hattempts, -⟩ :=
      hasAlternative_spends o plan p c d g
    rw [hrun] at hidle ⊢
    have hbalanced := h.spend hspent (hattempts.trans h.attempts) hidle
    rwa [List.append_nil] at hbalanced

theorem Balanced.respondAll {ledger : Ledger} (h : Balanced plan ledger g) (o : Oracle σ)
    (dice : Random.Dice ρ) (calls : List Call) :
    Balanced plan (ledger.enterAll o dice plan g calls)
      (respondAll o.recorded dice plan calls g).2 := by
  induction calls generalizing ledger g with
  | nil => exact h
  | cons call rest ih => exact ih (h.respond o dice call)

/-- The clauses that a session counted when it began stay as they are. -/
theorem clauses_lasting {τ : Type} {o : Oracle τ} (n : Nat) :
    Lasting o plan fun g : Generator τ ρ => g.tally.clauses = n where
  keeps_ask _ _ hg := hg
  keeps_roll _ _ hg := hg
  keeps_note hentry _ hg := by cases hentry <;> exact hg

/-- A session begins with the rules loaded, nothing asked and nothing counted but the clauses. -/
theorem start_opened {st : σ} {tally : Tally} {r : Recorded σ}
    (h : start o.recorded plan ⟨st, #[]⟩ = (.ok tally, r)) :
    tally = ⟨(ClauseSet.rules plan.size plan.diagonal).clauses.length, 0, 0, 0, 0, 0⟩ ∧
      r.Opened (ClauseSet.rules plan.size plan.diagonal).clauses ∧ r.queries = [] := by
  cases hload : o.load (ClauseSet.rules plan.size plan.diagonal).clauses st with
  | mk outcome st' =>
    cases outcome with
    | error e =>
      obtain ⟨r', hstart, -⟩ := Oracle.start_recorded_of_error hload
      rw [start, Run.bind_of_error hstart] at h
      cases h
    | ok =>
      obtain ⟨r', hstart, hrecord⟩ := Oracle.start_recorded_of_ok hload
      rw [start, Run.bind_of_ok hstart, Run.pure_apply] at h
      cases h
      refine ⟨rfl, ⟨[], List.forall_mem_nil _, hrecord⟩, ?_⟩
      rw [Recorded.queries, hrecord]
      rfl

/-- The tally of a session accounts for every query, whatever the oracle has answered and whichever
calls have failed. It has the clauses loaded, all queries asked, the visits by their outcome and the
queries of the latest search. So a puzzle costs the attempts of its search and one visit for each
digit of its solution, of which those of the puzzle were kept. -/
theorem tally_accounts (o : Oracle σ) {st : σ} (dice : Random.Dice ρ) (plan : Plan) (random : ρ)
    (calls : List Call) {tally : Tally} {r : Recorded σ}
    (hstart : start o.recorded plan ⟨st, #[]⟩ = (.ok tally, r)) :
    let g := (respondAll o.recorded dice plan calls ⟨r, random, tally⟩).2
    let ledger := Ledger.enterAll o dice plan ⟨[], []⟩ ⟨r, random, tally⟩ calls
    g.session.loads = [g.tally.clauses] ∧
      g.tally.queries = g.session.queries.length ∧
      g.tally.removed = QueryOutcome.unsatisfiable.among ledger.visits ∧
      g.tally.restored = QueryOutcome.satisfiable.among ledger.visits ∧
      g.tally.attempts = ledger.search.length ∧
      ∀ made g', generate o.recorded dice plan g = (.ok made, g') →
        g'.tally = made.tally ∧
        g'.tally.queries = g.tally.queries + g'.tally.attempts + made.solution.filledCount ∧
        g'.tally.removed + g'.tally.restored =
          g.tally.removed + g.tally.restored + made.solution.filledCount ∧
        g'.tally.restored = g.tally.restored + g'.tally.givens ∧
        g'.tally.givens = made.puzzle.filledCount := by
  intro g ledger
  obtain ⟨htally, hopened, hqueries⟩ := start_opened hstart
  have hfirst : Balanced plan ⟨[], []⟩ (⟨r, random, tally⟩ : Generator (Recorded σ) ρ) := by
    rw [htally]
    exact ⟨(congrArg List.length hqueries).symm, rfl, rfl, rfl, fun _ => rfl⟩
  have h : Balanced plan ledger g := hfirst.respondAll o dice calls
  have hclauses : g.tally.clauses = (ClauseSet.rules plan.size plan.diagonal).clauses.length :=
    (clauses_lasting _).keeps_respondAll dice calls (congrArg Tally.clauses htally)
  have hlater : g.session.Opened (ClauseSet.rules plan.size plan.diagonal).clauses :=
    (opened_lasting _).keeps_respondAll dice calls hopened
  refine ⟨?_, h.queries, h.removed, h.restored, h.attempts, fun made g' hrun => ?_⟩
  · rw [hlater.loads, hclauses]
  · exact tally_of_generate o dice h.idle hrun

/-- The first query fails, and the session goes on to generate. -/
theorem tally_accounts_small :
    let script : Script := ⟨none, [.error (.backend "stopped"), .ok none]⟩
    ∃ tally r, start Oracle.scripted.recorded ⟨.small, true, 3⟩ ⟨script, #[]⟩ = (.ok tally, r) ∧
      let g := (respondAll Oracle.scripted.recorded Random.streamDice ⟨.small, true, 3⟩
        [.solution, .generate] ⟨r, .ofSeed 5, tally⟩).2
      g.session.loads = [g.tally.clauses] ∧ g.tally.queries = g.session.queries.length := by
  intro script
  obtain ⟨tally, r, hstart⟩ : ∃ tally r, start Oracle.scripted.recorded ⟨.small, true, 3⟩
      ⟨script, #[]⟩ = (.ok tally, r) := ⟨_, _, rfl⟩
  obtain ⟨hloads, hqueries, -⟩ := tally_accounts Oracle.scripted Random.streamDice
    ⟨.small, true, 3⟩ (.ofSeed 5) [.solution, .generate] hstart
  exact ⟨tally, r, hstart, hloads, hqueries⟩

end Generation

end TwinSudoku
