import TwinSudoku.Generation.Session
import TwinSudoku.Proofs.Oracle.Queries
import TwinSudoku.Proofs.Oracle.Record

/-!
# Steps of a generating session

* `Generation.ask_of_eq`, `roll_apply`, `note_apply`: the steps that a run is made of.
* `Generation.generate_of_steps`: a puzzle from its solution.
* `Generation.Lasting`: a property of sessions that each of these steps keeps, whatever it is asked
  for and whether or not it succeeds. Then every call keeps it (`Lasting.keeps_respondAll`).
* `Generation.Loaded`: the rules are loaded in the oracle's session. A session begins so
  (`start_loaded`), and this lasts (`respondAll_keeps`).
-/

namespace TwinSudoku.Generation

variable {σ ρ α : Type} {o : Oracle σ} {holding : List Clause → σ → Prop} {plan : Plan}

/-- The rules are loaded in the session of a generator. -/
def Loaded (holding : List Clause → σ → Prop) (plan : Plan) (g : Generator σ ρ) : Prop :=
  holding (ClauseSet.rules plan.size plan.diagonal).clauses g.session

/-! ## Single steps -/

theorem ask_of_eq {assumptions : List Int} {g : Generator σ ρ}
    {answer : Except OracleError (Option Model)} {st : σ}
    (h : o.solve assumptions g.session = (answer, st)) :
    ask o assumptions g = (answer.mapError .oracle, { g with session := st }) := by
  obtain ⟨session, random, tally⟩ := g
  change (((o.solve assumptions session).1.mapError Failure.oracle,
    ⟨(o.solve assumptions session).2, random, tally⟩) : Except Failure _ × Generator σ ρ) = _
  rw [h]

theorem ask_of_ok {assumptions : List Int} {g : Generator σ ρ} {answer : Option Model} {st : σ}
    (h : o.solve assumptions g.session = (.ok answer, st)) :
    ask o assumptions g = (.ok answer, { g with session := st }) := ask_of_eq h

theorem roll_apply (draw : StateM ρ α) (g : Generator σ ρ) :
    roll draw g = (.ok (draw g.random).1, { g with random := (draw g.random).2 }) := rfl

theorem note_apply (change : Tally → Tally) (g : Generator σ ρ) :
    note change g = (.ok (), { g with tally := change g.tally }) := rfl

/-- A solution and what minimizing leaves of it make a puzzle. -/
theorem generate_of_steps {dice : Random.Dice ρ} {g g₁ g₂ : Generator σ ρ}
    {q puzzle : Pair plan.size} (hsolution : solution o dice plan g = (.ok q, g₁))
    (hminimize : minimize o dice plan q g₁ = (.ok puzzle, g₂)) :
    let tally := { g₂.tally with givens := puzzle.filledCount }
    generate o dice plan g = (.ok ⟨q, puzzle, tally⟩, { g₂ with tally }) := by
  rw [generate, Run.bind_of_ok hsolution, Run.bind_of_ok hminimize,
    Run.bind_of_ok (note_apply _ g₂)]
  rfl

theorem start_loaded (ho : o.Conforms holding) {st : σ} (hst : holding [] st) (plan : Plan) :
    ∃ st', start o plan st =
        (.ok ⟨(ClauseSet.rules plan.size plan.diagonal).clauses.length, 0, 0, 0, 0, 0⟩, st') ∧
      holding (ClauseSet.rules plan.size plan.diagonal).clauses st' := by
  obtain ⟨st', hload, hst'⟩ := ho.start_rules hst plan.size plan.diagonal
  refine ⟨st', ?_, hst'⟩
  rw [start, Run.bind_of_ok hload, Run.pure_apply]

/-- A session that keeps a record begins in the same way. -/
theorem start_recorded (ho : o.Conforms holding) {st : σ} (hst : holding [] st) (plan : Plan) :
    ∃ r, start o.recorded plan ⟨st, #[]⟩ =
        (.ok ⟨(ClauseSet.rules plan.size plan.diagonal).clauses.length, 0, 0, 0, 0, 0⟩, r) ∧
      Recorded.Holding holding (ClauseSet.rules plan.size plan.diagonal).clauses r := by
  have hfresh : Recorded.Holding holding [] ⟨st, #[]⟩ := hst
  exact start_loaded ho.recorded hfresh plan

/-! ## What every step keeps -/

/-- What a session notes in its tally. -/
inductive Entry (plan : Plan) : (Tally → Tally) → Prop
  | attempt (left : Nat) : Entry plan fun tally =>
      { tally with attempts := plan.attempts - left, queries := tally.queries + 1 }
  | query : Entry plan fun tally => { tally with queries := tally.queries + 1 }
  | restored : Entry plan fun tally => { tally with restored := tally.restored + 1 }
  | removed : Entry plan fun tally => { tally with removed := tally.removed + 1 }
  | givens (n : Nat) : Entry plan fun tally => { tally with givens := n }

/-- A property of sessions that each single step keeps. No session asks about the literal zero. -/
structure Lasting (o : Oracle σ) (plan : Plan) (P : Generator σ ρ → Prop) : Prop where
  keeps_ask : ∀ {assumptions}, 0 ∉ assumptions → Run.Keeps P (ask o assumptions)
  keeps_roll : ∀ {α : Type} (draw : StateM ρ α), Run.Keeps P (roll draw)
  keeps_note : ∀ {change}, Entry plan change → Run.Keeps P (note change)

namespace Lasting

variable {P : Generator σ ρ → Prop}

theorem keeps_solutionWithin (h : Lasting o plan P) (dice : Random.Dice ρ) (left : Nat) :
    Run.Keeps P (solutionWithin o dice plan left) := by
  induction left with
  | zero => exact Run.keeps_throw _
  | succ left ih =>
    rw [solutionWithin]
    apply Run.keeps_bind (h.keeps_roll _)
    intro placements
    apply Run.keeps_bind (h.keeps_note (.attempt left))
    intro _
    apply Run.keeps_bind (h.keeps_ask (Placement.zero_not_mem_literals placements))
    intro answer
    cases answer with
    | none => exact ih
    | some m =>
      dsimp only
      split
      · exact Run.keeps_pure _
      · exact Run.keeps_throw _

theorem keeps_hasAlternative (h : Lasting o plan P) {e : Size} (p : Pair e) (c : Cell) (d : Nat) :
    Run.Keeps P (hasAlternative o plan p c d) := by
  unfold hasAlternative
  apply Run.keeps_ofMisuse_bind
  intro givens hgivens
  apply Run.keeps_ofMisuse_bind
  intro denial hdenial
  apply Run.keeps_bind (h.keeps_note .query)
  intro _
  apply Run.keeps_bind (h.keeps_ask (Pair.zero_not_mem_of_not_refused hgivens hdenial))
  intro answer
  exact Run.keeps_pure _

theorem keeps_minimizeIn (h : Lasting o plan P) {e : Size} (order : List Cell) (p : Pair e) :
    Run.Keeps P (minimizeIn o plan order p) := by
  induction order generalizing p with
  | nil => exact Run.keeps_pure _
  | cons c rest ih =>
    rw [minimizeIn]
    apply Run.keeps_bind (h.keeps_hasAlternative _ _ _)
    intro found
    cases found with
    | true => exact Run.keeps_bind (h.keeps_note .restored) fun _ => ih p
    | false => exact Run.keeps_bind (h.keeps_note .removed) fun _ => ih (p.without c)

theorem keeps_minimize (h : Lasting o plan P) (dice : Random.Dice ρ) {e : Size} (p : Pair e) :
    Run.Keeps P (minimize o dice plan p) :=
  Run.keeps_bind (h.keeps_roll _) fun _ => h.keeps_minimizeIn _ _

theorem keeps_generate (h : Lasting o plan P) (dice : Random.Dice ρ) :
    Run.Keeps P (generate o dice plan) := by
  unfold generate
  apply Run.keeps_bind (h.keeps_solutionWithin dice _)
  intro solution
  apply Run.keeps_bind (h.keeps_minimize dice _)
  intro puzzle
  apply Run.keeps_bind (h.keeps_note (.givens _))
  intro _
  -- looking at the tally changes nothing
  refine Run.keeps_bind (fun _ hg => hg) ?_
  intro g
  exact Run.keeps_pure _

theorem keeps_respond (h : Lasting o plan P) (dice : Random.Dice ρ) (call : Call) :
    Run.Keeps P (respond o dice plan call) := by
  cases call with
  | solution => exact Run.keeps_bind (h.keeps_solutionWithin dice _) fun _ => Run.keeps_pure _
  | minimize p => exact Run.keeps_bind (h.keeps_minimize dice _) fun _ => Run.keeps_pure _
  | generate => exact Run.keeps_bind (h.keeps_generate dice) fun _ => Run.keeps_pure _
  | alternative p c d =>
    exact Run.keeps_bind (h.keeps_hasAlternative _ _ _) fun _ => Run.keeps_pure _

/-- What lasts holds after any sequence of calls. -/
theorem keeps_respondAll (h : Lasting o plan P) (dice : Random.Dice ρ) (calls : List Call)
    {g : Generator σ ρ} (hg : P g) : P (respondAll o dice plan calls g).2 := by
  induction calls generalizing g with
  | nil => exact hg
  | cons call rest ih => exact ih (h.keeps_respond dice call g hg)

end Lasting

/-- No step disturbs what is loaded. -/
theorem loaded_lasting (ho : o.Conforms holding) :
    Lasting o plan (Loaded (ρ := ρ) holding plan) where
  keeps_ask hne g hg := ho.solve_keeps hne g.session hg
  keeps_roll _ _ hg := hg
  keeps_note _ _ hg := hg

/-- The rules stay loaded in any sequence of calls. -/
theorem respondAll_keeps (ho : o.Conforms holding) (dice : Random.Dice ρ) (calls : List Call)
    {g : Generator σ ρ} (hg : Loaded holding plan g) :
    Loaded holding plan (respondAll o dice plan calls g).2 :=
  (loaded_lasting ho).keeps_respondAll dice calls hg

end TwinSudoku.Generation
