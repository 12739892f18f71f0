import TwinSudoku.Proofs.Generation.Minimizing
import TwinSudoku.Proofs.Generation.Seeding
import TwinSudoku.Proofs.Rules.Relabelling

/-!
# The digits of a puzzle

A puzzle with a single completion never loses two digits, in whatever order it was minimized.

* `Generation.generate_gives`, `Generation.made_of_generate`: what a session gives when it
  generates: a solution, a puzzle made from it and the number of its digits.
* `Generation.minimize_spares_digits`: all digits but at most one are left over the two boards. So a
  puzzle has at least one digit less than a row has cells.
-/

namespace TwinSudoku

namespace Pair

variable {s e : Size} {diagonal : Bool} {p q : Pair e}

/-- What is left of a pair with a single completion lacks at most one digit. -/
theorem ReducesTo.hasAllButOne (h : p.ReducesTo q s diagonal)
    (hunique : ∃! r : Pair s, r.Completes diagonal p) : q.HasAllButOne s := by
  obtain ⟨r, hr, hothers⟩ := hunique
  apply hasAllButOne_of_unique
  exact ⟨r, (h.completes_iff r).2 hr, fun r' hr' => hothers r' ((h.completes_iff r').1 hr')⟩

theorem existsUnique_completes {p : Pair s} (hp : p.isSolution diagonal) :
    ∃! r : Pair s, r.Completes diagonal p :=
  ⟨p, (completes_iff_eq hp).2 rfl, fun _ hr => (completes_iff_eq hp).1 hr⟩

end Pair

namespace Generation

variable {σ ρ : Type} {o : Oracle σ} {holding : List Clause → σ → Prop} {plan : Plan}
  {g : Generator σ ρ}

/-- A session that generates gives a solution and a puzzle made from it, with the number of its
digits in the tally, or it has used up its attempts. -/
theorem generate_gives (ho : o.Conforms holding) (hg : Loaded holding plan g)
    (dice : Random.Dice ρ) :
    (∃ made g', generate o dice plan g = (.ok made, g') ∧
        made.solution.isSolution plan.diagonal ∧
        made.solution.ReducesTo made.puzzle plan.size plan.diagonal ∧
        made.tally.givens = made.puzzle.filledCount ∧ g'.tally = made.tally) ∨
      ∃ g', generate o dice plan g = (.error (.attemptsExhausted plan.attempts), g') := by
  obtain ⟨result, g₁, hsolution, hg₁, ⟨q, rfl, hq⟩ | rfl⟩ :=
    solutionWithin_gives dice ho hg plan.attempts
  · obtain ⟨puzzle, g₂, hminimize, hreduces⟩ :=
      minimize_reduces_of_loaded ho dice hg₁ q.fitsIn_self
    exact .inl ⟨⟨q, puzzle, { g₂.tally with givens := puzzle.filledCount }⟩, _,
      generate_of_steps hsolution hminimize, hq, hreduces, rfl, rfl⟩
  · refine .inr ⟨g₁, ?_⟩
    rw [generate, solution, Run.bind_of_error hsolution]

/-- What a session that has generated gave. -/
theorem made_of_generate (ho : o.Conforms holding) (hg : Loaded holding plan g)
    {dice : Random.Dice ρ} {made : Generated plan.size} {g' : Generator σ ρ}
    (hrun : generate o dice plan g = (.ok made, g')) :
    made.solution.isSolution plan.diagonal ∧
      made.solution.ReducesTo made.puzzle plan.size plan.diagonal ∧
      made.tally.givens = made.puzzle.filledCount ∧ g'.tally = made.tally := by
  rcases generate_gives ho hg dice with ⟨made', g'', hmade, hgives⟩ | ⟨g'', hfailed⟩
  · cases hrun.symm.trans hmade
    exact hgives
  · cases hrun.symm.trans hfailed

/-- Minimizing a pair with a single completion leaves all digits but at most one, in any order of
visits. So every puzzle generated has at least one digit less than a row has cells, and its tally
says so. What makes it so is that a permutation of the digits keeps the rules. -/
theorem minimize_spares_digits (ho : o.Conforms holding) {st : σ} (hst : holding [] st)
    (dice : Random.Dice ρ) (plan : Plan) (random : ρ) (calls : List Call) :
    ∃ tally st', start o plan st = (.ok tally, st') ∧
      let g := (respondAll o dice plan calls ⟨st', random, tally⟩).2
      (∀ p : Pair plan.size, (∃! r : Pair plan.size, r.Completes plan.diagonal p) →
        (∀ order : List Cell, order.Perm p.filled →
          ∃ q g', minimizeIn o plan order p g = (.ok q, g') ∧ q.HasAllButOne plan.size) ∧
        ∃ q g', minimize o dice plan p g = (.ok q, g') ∧ q.HasAllButOne plan.size) ∧
      (∀ made g', generate o dice plan g = (.ok made, g') →
        made.puzzle.HasAllButOne plan.size ∧ plan.size.side - 1 ≤ made.puzzle.filledCount ∧
          made.tally.givens = made.puzzle.filledCount ∧ g'.tally = made.tally) ∧
      ∀ (π : Nat → Nat) (r : Pair plan.size), (plan.size.digits.map π).Perm plan.size.digits →
        r.isSolution plan.diagonal → (r.relabel π).isSolution plan.diagonal := by
  obtain ⟨st', hstart, hst'⟩ := start_loaded ho hst plan
  refine ⟨_, st', hstart, ?_⟩
  intro g
  have hg : Loaded holding plan g := respondAll_keeps ho dice calls hst'
  refine ⟨fun p hunique => ⟨fun order horder => ?_, ?_⟩, fun made g' hmade => ?_,
    fun π r hπ hr => Pair.isSolution_relabel hπ hr⟩
  · obtain ⟨q, g', hrun, hreduces⟩ := minimizeIn_reduces ho hg p.fitsIn_self horder
    exact ⟨q, g', hrun, hreduces.hasAllButOne hunique⟩
  · obtain ⟨q, g', hrun, hreduces⟩ := minimize_reduces_of_loaded ho dice hg p.fitsIn_self
    exact ⟨q, g', hrun, hreduces.hasAllButOne hunique⟩
  · obtain ⟨hsol, hreduces, hgivens, htally⟩ := made_of_generate ho hg hmade
    have hdigits := hreduces.hasAllButOne (Pair.existsUnique_completes hsol)
    exact ⟨hdigits, hdigits.side_le, hgivens, htally⟩

theorem minimize_spares_digits_small :
    ∃ tally st', start Oracle.exhaustive ⟨.small, false, 1⟩ [] = (.ok tally, st') ∧
      ∃ q g', minimize Oracle.exhaustive Random.streamDice ⟨.small, false, 1⟩ Pair.small
          ⟨st', .ofSeed 0, tally⟩ = (.ok q, g') ∧ q.HasAllButOne .small := by
  obtain ⟨tally, st', hstart, hminimize, -⟩ := minimize_spares_digits Oracle.exhaustive_conforms
    rfl Random.streamDice ⟨.small, false, 1⟩ (.ofSeed 0) []
  have hunique := Pair.existsUnique_completes Pair.small_isSolution
  exact ⟨tally, st', hstart, (hminimize Pair.small hunique).2⟩

end Generation

end TwinSudoku
