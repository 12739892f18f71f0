import Mathlib.Order.Bounds.Defs
import TwinSudoku.Proofs.Generation.Seeding
import TwinSudoku.Proofs.Oracle.Exhaustive

/-!
# How many attempts a search takes

A search for a solution draws sets of random placements one after another. Which of them it
queries the oracle about, and what it ends with, depends only on which of them some solution has.

* `Generation.drawn`: the sets of placements that the dice give from some state on.
* `Generation.refusals`: the queries about sets that no solution has.
* `Generation.solutionWithin_of_unfit`: such sets are refused one after another.
* `Generation.solution_ends_at_first_fit`: the search ends with the first set that some solution
  has, or when its attempts are used up. Its tally has as many attempts as it made queries.
-/

namespace TwinSudoku.Generation

section Draws

variable {ρ : Type} (dice : Random.Dice ρ) (plan : Plan) (random : ρ)

/-- The state of the dice after `n` sets of placements. -/
def stateAfter (n : Nat) : ρ := (fun r => (Placement.drawSet dice plan.size r).2)^[n] random

/-- The `n`th set of placements drawn, where the first one has the number 0. -/
def drawn (n : Nat) : List (Placement plan.size) :=
  drawnNext dice plan (stateAfter dice plan random n)

/-- The query about the `n`th set, with its outcome. -/
def asked (outcome : QueryOutcome) (n : Nat) : Exchange :=
  .query ((drawn dice plan random n).map Placement.literal) outcome

/-- The queries about the first `n` sets where none of them has a model. -/
def refusals (n : Nat) : List Exchange :=
  (List.range n).map (asked dice plan random .unsatisfiable)

theorem length_refusals (n : Nat) : (refusals dice plan random n).length = n := by
  rw [refusals, List.length_map, List.length_range]

/-- The sets drawn after the first one are those drawn from the state that it leaves. -/
theorem refusals_succ (n : Nat) : refusals dice plan random (n + 1) =
    asked dice plan random .unsatisfiable 0 ::
      refusals dice plan (Placement.drawSet dice plan.size random).2 n := by
  rw [refusals, List.range_succ_eq_map, List.map_cons, List.map_map]
  rfl

end Draws

variable {σ ρ : Type} {o : Oracle σ} {holding : List Clause → σ → Prop} {plan : Plan}
  {g g' : Generator (Recorded σ) ρ} (dice : Random.Dice ρ)

/-- Placements that some solution has do not contradict one another. -/
theorem Fits.agree {placements : List (Placement plan.size)} (h : Fits plan placements) {c : Cell}
    {d d' : Nat} (hd : ∃ p ∈ placements, p.cell = c ∧ p.digit = d)
    (hd' : ∃ p ∈ placements, p.cell = c ∧ p.digit = d') : d = d' := by
  obtain ⟨q, -, hholds⟩ := h
  obtain ⟨p, hp, rfl, rfl⟩ := hd
  obtain ⟨p', hp', hcell, rfl⟩ := hd'
  rw [← hholds p hp, ← hholds p' hp', hcell]

/-! ## Sets that are refused -/

/-- A session after `n` attempts that failed, with `left` more to come. -/
structure Refused (plan : Plan) (n left : Nat) (g g' : Generator (Recorded σ) ρ) : Prop where
  random : g'.random = stateAfter dice plan g.random n
  adds : g.session.Adds g'.session (refusals dice plan g.random n)
  attempts : g'.tally.attempts = if n = 0 then g.tally.attempts else plan.attempts - left
  queries : g'.tally.queries = g.tally.queries + n

theorem solutionWithin_of_unfit (ho : o.Conforms holding)
    (hg : Loaded (Recorded.Holding holding) plan g) (n left : Nat)
    (hunfit : ∀ j < n, ¬ Fits plan (drawn dice plan g.random j)) :
    ∃ g', solutionWithin o.recorded dice plan (n + left) g =
        solutionWithin o.recorded dice plan left g' ∧
      Loaded (Recorded.Holding holding) plan g' ∧
      Refused dice plan n left g g' := by
  induction n generalizing g with
  | zero =>
    refine ⟨g, ?_, hg, rfl, .refl g.session, rfl, rfl⟩
    rw [Nat.zero_add]
  | succ n ih =>
    obtain ⟨answer, st, hsolve, hst, hnone, hsome⟩ :=
      solutionWithin_succ dice ho.recorded hg (n + left)
    have hfirst : ¬ Fits plan (drawnNext dice plan g.random) := hunfit 0 n.succ_pos
    cases answer with
    | some m =>
      obtain ⟨q, hq, hholds, -, -⟩ := hsome m rfl
      exact absurd ⟨q, hq, hholds⟩ hfirst
    | none =>
      obtain ⟨g', hrun, hg', hrefused⟩ := ih hst fun j hj => hunfit (j + 1) (by omega)
      refine ⟨g', ?_, hg', hrefused.random, ?_, ?_, ?_⟩
      · rw [Nat.succ_add_eq_add_succ, ← hrun]
        exact (hnone rfl).2
      · rw [refusals_succ]
        exact (Oracle.solve_of_recorded hsolve).2.trans hrefused.adds
      · rw [hrefused.attempts, if_neg n.succ_ne_zero]
        split
        · next hn =>
          subst hn
          show plan.attempts - (0 + left) = plan.attempts - left
          rw [Nat.zero_add]
        · rfl
      · rw [hrefused.queries]
        show g.tally.queries + 1 + n = g.tally.queries + (n + 1)
        omega

/-! ## The end of a search -/

/-- What a search has done: it made these exchanges, and they are the attempts of its tally. -/
structure Searched (before after : Generator (Recorded σ) ρ) (made : List Exchange) : Prop where
  adds : before.session.Adds after.session made
  attempts : after.tally.attempts = made.length
  queries : after.tally.queries = before.tally.queries + made.length

/-- The oracle's last answer was a model of the placements, and the pair is read off it alone. -/
def DecodedFrom (o : Oracle σ) {s : Size} (placements : List (Placement s)) (q : Pair s)
    (after : Generator (Recorded σ) ρ) : Prop :=
  ∃ m st, o.solve (placements.map Placement.literal) st = (.ok (some m), after.session.session) ∧
    ∀ r : Pair s, r.write m = q

theorem solution_of_first_fit (ho : o.Conforms holding)
    (hg : Loaded (Recorded.Holding holding) plan g) {i : Nat}
    (hi : i < plan.attempts)
    (hfirst : IsLeast {n | Fits plan (drawn dice plan g.random n)} i) :
    ∃ q g', solution o.recorded dice plan g = (.ok q, g') ∧ q.isSolution plan.diagonal ∧
      q.Holds (drawn dice plan g.random i) ∧
      DecodedFrom o (drawn dice plan g.random i) q g' ∧
      Searched g g' (refusals dice plan g.random i ++
        [asked dice plan g.random .satisfiable i]) := by
  obtain ⟨left, hleft⟩ := Nat.exists_eq_add_of_lt hi
  obtain ⟨g₁, hrun, hg₁, hrefused⟩ := solutionWithin_of_unfit dice ho hg i (left + 1)
    fun j hj hfits => hj.not_ge (hfirst.2 hfits)
  have hdrawn : drawnNext dice plan g₁.random = drawn dice plan g.random i := by
    rw [hrefused.random, drawn]
  obtain ⟨answer, st, hsolve, -, hnone, hsome⟩ := solutionWithin_succ dice ho.recorded hg₁ left
  rw [hdrawn] at hsolve hnone hsome
  cases answer with
  | none => exact absurd hfirst.1 (hnone rfl).1
  | some m =>
    obtain ⟨q, hq, hholds, hwrite, hend⟩ := hsome m rfl
    obtain ⟨hanswer, hadds⟩ := Oracle.solve_of_recorded hsolve
    refine ⟨q, attempt dice plan left g₁ st, ?_, hq, hholds, ⟨m, _, hanswer, hwrite⟩,
      hrefused.adds.trans hadds, ?_, ?_⟩
    · rw [solution, hleft, Nat.add_assoc, hrun, hend]
    · rw [List.length_append, length_refusals]
      show plan.attempts - left = i + 1
      omega
    · rw [List.length_append, length_refusals]
      show g₁.tally.queries + 1 = g.tally.queries + (i + 1)
      rw [hrefused.queries, Nat.add_assoc]

theorem solution_of_none_fit (ho : o.Conforms holding)
    (hg : Loaded (Recorded.Holding holding) plan g)
    (hidle : plan.attempts = 0 → g.tally.attempts = 0)
    (hunfit : ∀ i < plan.attempts, ¬ Fits plan (drawn dice plan g.random i)) :
    ∃ g', solution o.recorded dice plan g = (.error (.attemptsExhausted plan.attempts), g') ∧
      Searched g g' (refusals dice plan g.random plan.attempts) := by
  obtain ⟨g', hrun, -, hrefused⟩ := solutionWithin_of_unfit dice ho hg plan.attempts 0 hunfit
  refine ⟨g', hrun, hrefused.adds, ?_, ?_⟩
  · rw [hrefused.attempts, length_refusals]
    split
    · next hzero => rw [hidle hzero, hzero]
    · rfl
  · rw [hrefused.queries, length_refusals]

/-- Where no attempt is allowed, none is noted. -/
theorem idle_lasting : Lasting o plan
    fun g : Generator σ ρ => plan.attempts = 0 → g.tally.attempts = 0 where
  keeps_ask _ _ hg := hg
  keeps_roll _ _ hg := hg
  keeps_note hentry g hg := by
    intro hzero
    cases hentry with
    | attempt left => exact (congrArg (· - left) hzero).trans (Nat.zero_sub left)
    | query => exact hg hzero
    | restored => exact hg hzero
    | removed => exact hg hzero
    | givens n => exact hg hzero

/-- A search ends with the first set of placements that some solution has. It has asked about that
set and those before it, and gives a solution with all placements of the set. Where no such set is
drawn in time, it has asked about as many sets as it may draw. Its tally has as many attempts as it
made queries. -/
theorem solution_ends_at_first_fit (ho : o.Conforms holding) {st : σ} (hst : holding [] st)
    (dice : Random.Dice ρ) (plan : Plan) (random : ρ) (calls : List Call) :
    ∃ tally st', start o.recorded plan ⟨st, #[]⟩ = (.ok tally, st') ∧
      let g := (respondAll o.recorded dice plan calls ⟨st', random, tally⟩).2
      (∀ i < plan.attempts, IsLeast {n | Fits plan (drawn dice plan g.random n)} i →
        ∃ q g', solution o.recorded dice plan g = (.ok q, g') ∧ q.isSolution plan.diagonal ∧
          q.Holds (drawn dice plan g.random i) ∧
          DecodedFrom o (drawn dice plan g.random i) q g' ∧
          Searched g g' (refusals dice plan g.random i ++
            [asked dice plan g.random .satisfiable i])) ∧
      ((∀ i < plan.attempts, ¬ Fits plan (drawn dice plan g.random i)) →
        ∃ g', solution o.recorded dice plan g =
            (.error (.attemptsExhausted plan.attempts), g') ∧
          Searched g g' (refusals dice plan g.random plan.attempts)) := by
  obtain ⟨st', hstart, hst'⟩ := start_recorded ho hst plan
  refine ⟨_, st', hstart, ?_⟩
  intro g
  have hg : Loaded (Recorded.Holding holding) plan g :=
    respondAll_keeps ho.recorded dice calls hst'
  have hidle : plan.attempts = 0 → g.tally.attempts = 0 :=
    idle_lasting.keeps_respondAll dice calls fun _ => rfl
  exact ⟨fun i hi hfirst => solution_of_first_fit dice ho hg hi hfirst,
    solution_of_none_fit dice ho hg hidle⟩

/-- The first set drawn has two digits for one cell, and the second one fits. -/
theorem solution_ends_at_first_fit_small :
    ∃ tally st', start Oracle.exhaustive.recorded ⟨.small, false, 2⟩ ⟨[], #[]⟩ =
        (.ok tally, st') ∧
      ∃ q g', solution Oracle.exhaustive.recorded Random.streamDice ⟨.small, false, 2⟩
          ⟨st', .ofSeed 1224, tally⟩ = (.ok q, g') ∧ q.isSolution false ∧
        q.Holds (drawn Random.streamDice ⟨.small, false, 2⟩ (.ofSeed 1224) 1) ∧
        g'.tally.attempts = 2 := by
  obtain ⟨tally, st', hstart, hfound, -⟩ := solution_ends_at_first_fit
    Oracle.exhaustive_conforms rfl Random.streamDice ⟨.small, false, 2⟩
    (.ofSeed 1224) []
  have hfits : Fits ⟨.small, false, 2⟩
      (drawn Random.streamDice ⟨.small, false, 2⟩ (.ofSeed 1224) 1) :=
    ⟨Pair.small, Pair.small_isSolution, by decide +kernel⟩
  have hclash : ¬ Fits ⟨.small, false, 2⟩
      (drawn Random.streamDice ⟨.small, false, 2⟩ (.ofSeed 1224) 0) := by
    intro h
    have hd : 1 = 4 := h.agree (c := ⟨.a, 2, 3⟩) (by decide +kernel) (by decide +kernel)
    contradiction
  have hleast : IsLeast {n | Fits ⟨.small, false, 2⟩
      (drawn Random.streamDice ⟨.small, false, 2⟩ (.ofSeed 1224) n)} 1 := by
    refine ⟨hfits, fun n hn => Nat.one_le_iff_ne_zero.2 ?_⟩
    rintro rfl
    exact hclash hn
  obtain ⟨q, g', hrun, hq, hholds, -, hsearched⟩ := hfound 1 (by decide) hleast
  refine ⟨tally, st', hstart, q, g', hrun, hq, hholds, ?_⟩
  rw [hsearched.attempts, List.length_append, length_refusals]
  rfl

end TwinSudoku.Generation
