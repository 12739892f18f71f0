import TwinSudoku.Proofs.Generation.Minimizing
import TwinSudoku.Proofs.Generation.Seeding
import TwinSudoku.Proofs.Oracle.Ordered

/-!
# Which models an oracle gives does not matter

Two oracles that answer right may give different models, but agree on whether there is one. A
session takes its course from that alone: the two runs ask the same queries, draw the same numbers
and note the same in their tallies. What differs is the solutions that a search finds.

* `Generation.Together`: two sessions that have done the same.
* `Generation.InStep`: this as a relation that each step of two sessions keeps.
* `Generation.solutionWithin_alike`, `Generation.minimizeIn_alike`: the searches and the loops.
* `Generation.minimizeIn_denies`: the order of visits shows in the queries.
* `Generation.courses_agree`: the result.
-/

namespace TwinSudoku.Generation

variable {σ₁ σ₂ ρ : Type} {o₁ : Oracle σ₁} {o₂ : Oracle σ₂}
  {holding₁ : List Clause → σ₁ → Prop} {holding₂ : List Clause → σ₂ → Prop} {plan : Plan}
  {r₁ : Recorded σ₁} {r₂ : Recorded σ₂}

/-- Two sessions that have made the same exchanges since they had these records, with the same state
of the dice and the same tally. -/
structure Together (r₁ : Recorded σ₁) (r₂ : Recorded σ₂) (g₁ : Generator (Recorded σ₁) ρ)
    (g₂ : Generator (Recorded σ₂) ρ) : Prop where
  adds : ∃ made, r₁.Adds g₁.session made ∧ r₂.Adds g₂.session made
  random : g₁.random = g₂.random
  tally : g₁.tally = g₂.tally

/-- Two sessions that have done the same, and in both the rules are loaded. -/
structure InStep (holding₁ : List Clause → σ₁ → Prop) (holding₂ : List Clause → σ₂ → Prop)
    (plan : Plan) (r₁ : Recorded σ₁) (r₂ : Recorded σ₂) (g₁ : Generator (Recorded σ₁) ρ)
    (g₂ : Generator (Recorded σ₂) ρ) : Prop extends Together r₁ r₂ g₁ g₂ where
  loaded₁ : Loaded (Recorded.Holding holding₁) plan g₁
  loaded₂ : Loaded (Recorded.Holding holding₂) plan g₂

/-! ## Single steps -/

/-- The answers to one query: no model, or a model of some solution each. -/
inductive SameAnswer (plan : Plan) : Option Model → Option Model → Prop
  | none : SameAnswer plan none none
  | some {m₁ m₂ : Model} {q₁ q₂ : Pair plan.size} (hq₁ : q₁.isSolution plan.diagonal)
      (hq₂ : q₂.isSolution plan.diagonal) (hm₁ : ∀ r : Pair plan.size, r.write m₁ = q₁)
      (hm₂ : ∀ r : Pair plan.size, r.write m₂ = q₂) : SameAnswer plan (some m₁) (some m₂)

theorem SameAnswer.isSome_eq {a₁ a₂ : Option Model} (h : SameAnswer plan a₁ a₂) :
    a₁.isSome = a₂.isSome := by
  cases h <;> rfl

theorem SameAnswer.ofAnswer_eq {a₁ a₂ : Option Model} (h : SameAnswer plan a₁ a₂) :
    QueryOutcome.ofAnswer (.ok a₁) = .ofAnswer (.ok a₂) := by
  cases h <;> rfl

theorem sameAnswer_of_answers {assumptions : List Int} {a₁ a₂ : Option Model}
    (h₁ : Oracle.Answers (ClauseSet.rules plan.size plan.diagonal).clauses assumptions a₁)
    (h₂ : Oracle.Answers (ClauseSet.rules plan.size plan.diagonal).clauses assumptions a₂) :
    SameAnswer plan a₁ a₂ := by
  cases a₁ with
  | none =>
    cases a₂ with
    | none => exact .none
    | some m₂ => exact absurd ⟨_, h₂⟩ h₁
  | some m₁ =>
    cases a₂ with
    | none => exact absurd ⟨_, h₁⟩ h₂
    | some m₂ =>
      obtain ⟨q₁, hq₁, hm₁⟩ := Pair.exists_write_eq h₁.1
      obtain ⟨q₂, hq₂, hm₂⟩ := Pair.exists_write_eq h₂.1
      exact .some hq₁ hq₂ hm₁ hm₂

theorem ask_alike (ho₁ : o₁.Conforms holding₁) (ho₂ : o₂.Conforms holding₂)
    {assumptions : List Int} (hne : 0 ∉ assumptions) :
    Run.Alike (InStep (ρ := ρ) holding₁ holding₂ plan r₁ r₂) (SameAnswer plan)
      (ask o₁.recorded assumptions) (ask o₂.recorded assumptions) := by
  intro g₁ g₂ h
  obtain ⟨a₁, st₁, hrun₁, hst₁, ha₁⟩ := ho₁.recorded.solve hne h.loaded₁
  obtain ⟨a₂, st₂, hrun₂, hst₂, ha₂⟩ := ho₂.recorded.solve hne h.loaded₂
  rw [ask_of_ok hrun₁, ask_of_ok hrun₂]
  have hanswers := sameAnswer_of_answers ha₁ ha₂
  obtain ⟨made, hmade₁, hmade₂⟩ := h.adds
  have hadds₁ := (Oracle.solve_of_recorded hrun₁).2
  have hadds₂ := (Oracle.solve_of_recorded hrun₂).2
  rw [hanswers.ofAnswer_eq] at hadds₁
  exact ⟨⟨⟨⟨_, hmade₁.trans hadds₁, hmade₂.trans hadds₂⟩, h.random, h.tally⟩, hst₁, hst₂⟩,
    .ok hanswers⟩

theorem roll_alike {α : Type} (draw : StateM ρ α) :
    Run.Alike (InStep holding₁ holding₂ plan r₁ r₂) Eq (roll draw) (roll draw) := by
  intro g₁ g₂ h
  rw [roll_apply, roll_apply, h.random]
  exact ⟨⟨⟨h.adds, rfl, h.tally⟩, h.loaded₁, h.loaded₂⟩, .ok rfl⟩

theorem note_alike (change : Tally → Tally) :
    Run.Alike (InStep (ρ := ρ) holding₁ holding₂ plan r₁ r₂) Eq (note change) (note change) := by
  intro g₁ g₂ h
  exact ⟨⟨⟨h.adds, h.random, congrArg change h.tally⟩, h.loaded₁, h.loaded₂⟩, .ok rfl⟩

/-! ## Searches -/

theorem solutionWithin_alike (ho₁ : o₁.Conforms holding₁) (ho₂ : o₂.Conforms holding₂)
    (dice : Random.Dice ρ) (left : Nat) :
    Run.Alike (InStep holding₁ holding₂ plan r₁ r₂)
      (fun q₁ q₂ => q₁.isSolution plan.diagonal = true ∧ q₂.isSolution plan.diagonal = true)
      (solutionWithin o₁.recorded dice plan left) (solutionWithin o₂.recorded dice plan left) := by
  induction left with
  | zero => exact Run.alike_throw _
  | succ left ih =>
    rw [solutionWithin, solutionWithin]
    apply Run.alike_bind (roll_alike _)
    rintro placements _ rfl
    apply Run.alike_bind (note_alike _)
    intro _ _ _
    apply Run.alike_bind (ask_alike ho₁ ho₂ (Placement.zero_not_mem_literals placements))
    intro a₁ a₂ hanswers
    cases hanswers with
    | none => exact ih
    | some hq₁ hq₂ hm₁ hm₂ =>
      dsimp only
      rw [hm₁, hm₂, if_pos hq₁, if_pos hq₂]
      exact Run.alike_pure ⟨hq₁, hq₂⟩

/-! ## Loops -/

theorem hasAlternative_alike (ho₁ : o₁.Conforms holding₁) (ho₂ : o₂.Conforms holding₂) {e : Size}
    (p : Pair e) (c : Cell) (d : Nat) :
    Run.Alike (InStep (ρ := ρ) holding₁ holding₂ plan r₁ r₂) Eq
      (hasAlternative o₁.recorded plan p c d) (hasAlternative o₂.recorded plan p c d) := by
  unfold hasAlternative
  apply Run.alike_ofMisuse_bind
  intro givens hgivens
  apply Run.alike_ofMisuse_bind
  intro denial hdenial
  apply Run.alike_bind (note_alike _)
  intro _ _ _
  apply Run.alike_bind
    (ask_alike ho₁ ho₂ (Pair.zero_not_mem_of_not_refused hgivens hdenial))
  intro a₁ a₂ hanswers
  exact Run.alike_pure hanswers.isSome_eq

/-- Two loops with the same order of visits and the same pair keep and remove the same digits. -/
theorem minimizeIn_alike (ho₁ : o₁.Conforms holding₁) (ho₂ : o₂.Conforms holding₂) {e : Size}
    (order : List Cell) (p : Pair e) :
    Run.Alike (InStep (ρ := ρ) holding₁ holding₂ plan r₁ r₂) Eq
      (minimizeIn o₁.recorded plan order p) (minimizeIn o₂.recorded plan order p) := by
  induction order generalizing p with
  | nil => exact Run.alike_pure rfl
  | cons c rest ih =>
    rw [minimizeIn, minimizeIn]
    apply Run.alike_bind (hasAlternative_alike ho₁ ho₂ _ _ _)
    rintro found _ rfl
    cases found with
    | true => exact Run.alike_bind (note_alike _) fun _ _ _ => ih p
    | false => exact Run.alike_bind (note_alike _) fun _ _ _ => ih (p.without c)

theorem minimize_alike (ho₁ : o₁.Conforms holding₁) (ho₂ : o₂.Conforms holding₂)
    (dice : Random.Dice ρ) {e : Size} (p : Pair e) :
    Run.Alike (InStep holding₁ holding₂ plan r₁ r₂) Eq
      (minimize o₁.recorded dice plan p) (minimize o₂.recorded dice plan p) := by
  apply Run.alike_bind (roll_alike _)
  rintro order _ rfl
  exact minimizeIn_alike ho₁ ho₂ order p

/-! ## The order of visits -/

section Visits

variable {σ : Type} {o : Oracle σ} {holding : List Clause → σ → Prop} {e : Size}
  {g : Generator (Recorded σ) ρ}

/-- The exchange is a query for another digit in the cell than this one. -/
def Denies (s : Size) (c : Cell) (d : Nat) (x : Exchange) : Prop :=
  ∃ givens outcome, x = .query (givens ++ [-(s.number c d : Int)]) outcome

/-- The loop asks one query for each cell, in the order of visits. -/
theorem minimizeIn_denies (ho : o.Conforms holding) (order : List Cell) {p : Pair e}
    (hp : p.FitsIn plan.size) (hnodup : order.Nodup) {digits : Cell → Nat}
    (hdigits : ∀ c ∈ order, p.digit c = digits c ∧ p.digit c ≠ 0)
    (hg : Loaded (Recorded.Holding holding) plan g) :
    ∃ q g' made, minimizeIn o.recorded plan order p g = (.ok q, g') ∧
      g.session.Adds g'.session made ∧
      List.Forall₂ (fun c => Denies plan.size c (digits c)) order made := by
  induction order generalizing p g with
  | nil => exact ⟨p, g, [], rfl, .refl g.session, .nil⟩
  | cons c rest ih =>
    obtain ⟨hcrest, hnodup⟩ := List.nodup_cons.1 hnodup
    obtain ⟨hdigit, hc⟩ := hdigits c List.mem_cons_self
    have hrest (d : Cell) (hd : d ∈ rest) := hdigits d (List.mem_cons_of_mem c hd)
    have hwithout := hp.mono (p.without_partOf c)
    let assumptions :=
      (p.without c).literals plan.size ++ [-(plan.size.number c (p.digit c) : Int)]
    have hne : 0 ∉ assumptions :=
      (p.without c).zero_not_mem_question plan.size c (Nat.one_le_iff_ne_zero.2 hc)
    obtain ⟨answer, st, hsolve, hst, -⟩ := ho.recorded.solve hne hg
    have hrun := hasAlternative_of_eq hwithout (hp c hc).1 (hp.mem_digits hc) hsolve
    obtain ⟨-, hadds⟩ := Oracle.solve_of_recorded hsolve
    have hdenies : Denies plan.size c (digits c) (.query assumptions (.ofAnswer (.ok answer))) := by
      rw [← hdigit]
      exact ⟨_, _, rfl⟩
    rw [minimizeIn, Run.bind_of_ok hrun]
    cases answer with
    | some m =>
      obtain ⟨q, g', made, hloop, hmade, hothers⟩ := ih hp hnodup hrest (g := ⟨st, g.random,
        { g.tally with queries := g.tally.queries + 1, restored := g.tally.restored + 1 }⟩) hst
      exact ⟨q, g', _, hloop, hadds.trans hmade, .cons hdenies hothers⟩
    | none =>
      have hstill (d : Cell) (hd : d ∈ rest) :
          (p.without c).digit d = digits d ∧ (p.without c).digit d ≠ 0 := by
        rw [p.digit_without_of_ne (ne_of_mem_of_not_mem hd hcrest)]
        exact hrest d hd
      obtain ⟨q, g', made, hloop, hmade, hothers⟩ := ih hwithout hnodup hstill (g := ⟨st, g.random,
        { g.tally with queries := g.tally.queries + 1, removed := g.tally.removed + 1 }⟩) hst
      exact ⟨q, g', _, hloop, hadds.trans hmade, .cons hdenies hothers⟩

/-- Minimizing the pair visits cells in this order: it asks one query for each, for another digit
than the pair has there. -/
def Visits (o : Oracle σ) (dice : Random.Dice ρ) (plan : Plan) (g : Generator (Recorded σ) ρ)
    (p : Pair e) (order : List Cell) : Prop :=
  ∃ q g' made, minimize o.recorded dice plan p g = (.ok q, g') ∧
    g.session.Adds g'.session made ∧
    List.Forall₂ (fun c => Denies plan.size c (p.digit c)) order made

theorem visits_shuffle (ho : o.Conforms holding) (dice : Random.Dice ρ) {p : Pair e}
    (hp : p.FitsIn plan.size) (hg : Loaded (Recorded.Holding holding) plan g) :
    Visits o dice plan g p (Random.shuffle dice p.filled g.random).1 := by
  have horder := Random.shuffle_perm dice p.filled g.random
  rw [Visits, minimize, Run.bind_of_ok (roll_apply _ g)]
  exact minimizeIn_denies ho _ hp (Pair.nodup_of_perm horder)
    (fun c hc => ⟨rfl, Pair.digit_ne_zero_of_perm horder c hc⟩)
    (g := { g with random := (Random.shuffle dice p.filled g.random).2 }) hg

end Visits

/-! ## The course of a session -/

/-- How two searches end that take the same course: both have used up their attempts, or both have
found solutions whose cells are then visited in one order, which is one of all cells. -/
inductive SameEnd {σ₁ σ₂ : Type} (o₁ : Oracle σ₁) (o₂ : Oracle σ₂) (dice : Random.Dice ρ)
    (plan : Plan) (g₁ : Generator (Recorded σ₁) ρ) (g₂ : Generator (Recorded σ₂) ρ) :
    Except Failure (Pair plan.size) → Except Failure (Pair plan.size) → Prop
  | exhausted : SameEnd o₁ o₂ dice plan g₁ g₂ (.error (.attemptsExhausted plan.attempts))
      (.error (.attemptsExhausted plan.attempts))
  | found {q₁ q₂ : Pair plan.size} {order : List Cell} (horder : order.Perm (Cell.all plan.size))
      (hq₁ : q₁.isSolution plan.diagonal) (hq₂ : q₂.isSolution plan.diagonal)
      (hvisits₁ : Visits o₁ dice plan g₁ q₁ order) (hvisits₂ : Visits o₂ dice plan g₂ q₂ order) :
      SameEnd o₁ o₂ dice plan g₁ g₂ (.ok q₁) (.ok q₂)

variable {g₁ : Generator (Recorded σ₁) ρ} {g₂ : Generator (Recorded σ₂) ρ}

/-- Two searches from like states end alike. Where they find solutions, these may differ, but their
cells are then visited in the same order. -/
theorem InStep.sameEnd (ho₁ : o₁.Conforms holding₁) (ho₂ : o₂.Conforms holding₂)
    (dice : Random.Dice ρ) (h : InStep holding₁ holding₂ plan r₁ r₂ g₁ g₂) :
    ∃ result₁ result₂ g₁' g₂', solution o₁.recorded dice plan g₁ = (result₁, g₁') ∧
      solution o₂.recorded dice plan g₂ = (result₂, g₂') ∧ Together r₁ r₂ g₁' g₂' ∧
      SameEnd o₁ o₂ dice plan g₁' g₂' result₁ result₂ := by
  obtain ⟨hafter, hout⟩ := solutionWithin_alike ho₁ ho₂ dice plan.attempts g₁ g₂ h
  obtain ⟨result₁, g₁', hrun₁, -, hend₁⟩ :=
    solutionWithin_gives dice ho₁.recorded h.loaded₁ plan.attempts
  cases hrun₂ : solutionWithin o₂.recorded dice plan plan.attempts g₂ with
  | mk result₂ g₂' =>
    rw [hrun₁, hrun₂] at hafter hout
    refine ⟨result₁, result₂, g₁', g₂', hrun₁, hrun₂, hafter.toTogether, ?_⟩
    cases hout with
    | @ok q₁ q₂ hsolutions =>
      have hvisits₁ := visits_shuffle ho₁ dice q₁.fitsIn_self hafter.loaded₁
      have hvisits₂ := visits_shuffle ho₂ dice q₂.fitsIn_self hafter.loaded₂
      -- no cell of a solution is empty, so the lists to shuffle are the same
      rw [Pair.filled_of_isSolution hsolutions.1] at hvisits₁
      rw [Pair.filled_of_isSolution hsolutions.2, ← hafter.random] at hvisits₂
      exact .found (Random.shuffle_perm dice _ _) hsolutions.1 hsolutions.2 hvisits₁ hvisits₂
    | error e =>
      rcases hend₁ with ⟨q, hq, -⟩ | hexhausted
      · cases hq
      · cases hexhausted
        exact .exhausted

/-- Two loops on one pair from like states leave the same puzzle. -/
theorem InStep.samePuzzle (ho₁ : o₁.Conforms holding₁) (ho₂ : o₂.Conforms holding₂)
    (dice : Random.Dice ρ) (h : InStep holding₁ holding₂ plan r₁ r₂ g₁ g₂) {e : Size} {p : Pair e}
    (hp : p.FitsIn plan.size) :
    ∃ q g₁' g₂', minimize o₁.recorded dice plan p g₁ = (.ok q, g₁') ∧
      minimize o₂.recorded dice plan p g₂ = (.ok q, g₂') ∧ Together r₁ r₂ g₁' g₂' := by
  obtain ⟨hafter, hout⟩ := minimize_alike ho₁ ho₂ dice p g₁ g₂ h
  obtain ⟨q, g₁', hrun₁, -⟩ := minimize_reduces_of_loaded ho₁.recorded dice h.loaded₁ hp
  cases hrun₂ : minimize o₂.recorded dice plan p g₂ with
  | mk result₂ g₂' =>
    rw [hrun₁, hrun₂] at hafter hout
    cases hout with
    | ok heq =>
      subst heq
      exact ⟨q, g₁', g₂', hrun₁, rfl, hafter.toTogether⟩

/-- The course of a session does not depend on the models that its oracle gives. Under two oracles
that answer right, searches from like states make the same exchanges, end at the same attempt and
leave the dice and the tally alike; the solutions found are then minimized in the same order. One
pair minimized under both leaves the same puzzle after the same exchanges. -/
theorem courses_agree (ho₁ : o₁.Conforms holding₁) (ho₂ : o₂.Conforms holding₂) {st₁ : σ₁}
    {st₂ : σ₂} (hst₁ : holding₁ [] st₁) (hst₂ : holding₂ [] st₂) (dice : Random.Dice ρ)
    (plan : Plan) :
    ∃ tally st₁' st₂', start o₁.recorded plan ⟨st₁, #[]⟩ = (.ok tally, st₁') ∧
      start o₂.recorded plan ⟨st₂, #[]⟩ = (.ok tally, st₂') ∧
      ∀ (random₁ random₂ : ρ) (calls₁ calls₂ : List Call),
        let g₁ := (respondAll o₁.recorded dice plan calls₁ ⟨st₁', random₁, tally⟩).2
        let g₂ := (respondAll o₂.recorded dice plan calls₂ ⟨st₂', random₂, tally⟩).2
        g₁.random = g₂.random → g₁.tally = g₂.tally →
          (∃ result₁ result₂ g₁' g₂', solution o₁.recorded dice plan g₁ = (result₁, g₁') ∧
            solution o₂.recorded dice plan g₂ = (result₂, g₂') ∧
            Together g₁.session g₂.session g₁' g₂' ∧
            SameEnd o₁ o₂ dice plan g₁' g₂' result₁ result₂) ∧
          ∀ (e : Size) (p : Pair e), p.FitsIn plan.size →
            ∃ q g₁' g₂', minimize o₁.recorded dice plan p g₁ = (.ok q, g₁') ∧
              minimize o₂.recorded dice plan p g₂ = (.ok q, g₂') ∧
              Together g₁.session g₂.session g₁' g₂' := by
  obtain ⟨st₁', hstart₁, hst₁'⟩ := start_recorded ho₁ hst₁ plan
  obtain ⟨st₂', hstart₂, hst₂'⟩ := start_recorded ho₂ hst₂ plan
  refine ⟨_, st₁', st₂', hstart₁, hstart₂, ?_⟩
  intro random₁ random₂ calls₁ calls₂ g₁ g₂ hrandom htally
  have hstep : InStep holding₁ holding₂ plan g₁.session g₂.session g₁ g₂ := {
    adds := ⟨[], .refl g₁.session, .refl g₂.session⟩
    random := hrandom
    tally := htally
    loaded₁ := respondAll_keeps ho₁.recorded dice calls₁ hst₁'
    loaded₂ := respondAll_keeps ho₂.recorded dice calls₂ hst₂' }
  exact ⟨hstep.sameEnd ho₁ ho₂ dice, fun e p hp => hstep.samePuzzle ho₁ ho₂ dice hp⟩

theorem courses_agree_small :
    ∃ tally st₁ st₂, start Oracle.exhaustive.recorded ⟨.small, false, 2⟩ ⟨[], #[]⟩ =
        (.ok tally, st₁) ∧
      start (Oracle.ordered (Size.variableCount .small)).recorded ⟨.small, false, 2⟩ ⟨[], #[]⟩ =
        (.ok tally, st₂) ∧
      ∃ q g₁ g₂, minimize Oracle.exhaustive.recorded Random.streamDice ⟨.small, false, 2⟩
          Pair.small ⟨st₁, .ofSeed 7, tally⟩ = (.ok q, g₁) ∧
        minimize (Oracle.ordered (Size.variableCount .small)).recorded Random.streamDice
          ⟨.small, false, 2⟩ Pair.small ⟨st₂, .ofSeed 7, tally⟩ = (.ok q, g₂) ∧
        Together st₁ st₂ g₁ g₂ := by
  obtain ⟨tally, st₁, st₂, hstart₁, hstart₂, hagree⟩ := courses_agree Oracle.exhaustive_conforms
    (Oracle.ordered_conforms (Size.variableCount .small)) rfl rfl
    Random.streamDice ⟨.small, false, 2⟩
  obtain ⟨-, hminimize⟩ := hagree (.ofSeed 7) (.ofSeed 7) [] [] rfl rfl
  exact ⟨tally, st₁, st₂, hstart₁, hstart₂, hminimize .small .small Pair.small.fitsIn_self⟩

end TwinSudoku.Generation
