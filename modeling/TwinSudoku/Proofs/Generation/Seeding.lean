import TwinSudoku.Proofs.Generation.Steps

/-!
# Solutions from random placements

* `Pair.Holds`: a pair with all of some placements.
* `Pair.meets_placements`: an assignment that encodes a pair meets the literals of some placements
  exactly when the pair has them all.
* `Generation.Fits`: placements that some solution has.
* `Generation.solutionWithin_succ`: a set of placements that some solution has ends the search with
  such a solution, and another one leads to the next attempt.
* `Generation.solutionWithin_gives`: the search ends with a solution or has used up its attempts.
-/

namespace TwinSudoku

namespace Pair

variable {s : Size} {q : Pair s}

/-- The pair has all the placements. -/
def Holds (q : Pair s) (placements : List (Placement s)) : Prop :=
  ∀ placement ∈ placements, q.digit placement.cell = placement.digit

instance (placements : List (Placement s)) : Decidable (q.Holds placements) :=
  inferInstanceAs (Decidable (∀ placement ∈ placements, _))

theorem meets_placements (placements : List (Placement s)) {σ : Assignment}
    (hq : q.EncodedBy σ) : Meets σ (placements.map Placement.literal) ↔ q.Holds placements := by
  simp only [Meets, Holds, List.forall_mem_map]
  refine forall₂_congr fun placement _ => ?_
  have hd := Size.mem_digits.2 ⟨placement.one_le, placement.le_side⟩
  rw [Placement.literal, Literal.holds_natCast (Size.number_pos placement.one_le),
    encodedBy_iff.1 hq _ placement.inside _ hd]

end Pair

namespace Generation

variable {σ ρ : Type} {o : Oracle σ} {holding : List Clause → σ → Prop} {plan : Plan}
  {g : Generator σ ρ} (dice : Random.Dice ρ)

/-- The placements drawn next. -/
def drawnNext (plan : Plan) (random : ρ) : List (Placement plan.size) :=
  (Placement.drawSet dice plan.size random).1

/-- A session after one more attempt with `left` attempts to come, up to what became of the
oracle's session. -/
def attempt (plan : Plan) (left : Nat) (g : Generator σ ρ) (st : σ) :
    Generator σ ρ where
  session := st
  random := (Placement.drawSet dice plan.size g.random).2
  tally := { g.tally with attempts := plan.attempts - left, queries := g.tally.queries + 1 }

/-- Some solution has all the placements. -/
def Fits (plan : Plan) (placements : List (Placement plan.size)) : Prop :=
  ∃ q : Pair plan.size, q.isSolution plan.diagonal ∧ q.Holds placements

/-- One more attempt asks one query. Where the answer is a model, this is that of a solution with
all placements drawn, which ends the search; else no solution has them and the search goes on. -/
theorem solutionWithin_succ (ho : o.Conforms holding) (hg : Loaded holding plan g) (left : Nat) :
    ∃ answer st,
      o.solve ((drawnNext dice plan g.random).map Placement.literal) g.session =
        (.ok answer, st) ∧
      Loaded holding plan (attempt dice plan left g st) ∧
      (answer = none → ¬ Fits plan (drawnNext dice plan g.random) ∧
        solutionWithin o dice plan (left + 1) g =
          solutionWithin o dice plan left (attempt dice plan left g st)) ∧
      ∀ m, answer = some m → ∃ q : Pair plan.size, q.isSolution plan.diagonal ∧
        q.Holds (drawnNext dice plan g.random) ∧ (∀ r : Pair plan.size, r.write m = q) ∧
        solutionWithin o dice plan (left + 1) g = (.ok q, attempt dice plan left g st) := by
  obtain ⟨answer, st, hrun, hst, hnone, hsome⟩ := ho.solve_rules hg
    (Placement.zero_not_mem_literals (drawnNext dice plan g.random)) fun q σ hq =>
    Pair.meets_placements (drawnNext dice plan g.random) hq
  have hask := ask_of_ok (g := attempt dice plan left g g.session) hrun
  refine ⟨answer, st, hrun, hst, ?_, ?_⟩
  · rintro rfl
    refine ⟨hnone rfl, ?_⟩
    rw [solutionWithin, Run.bind_of_ok (roll_apply _ g), Run.bind_of_ok (note_apply _ _)]
    exact Run.bind_of_ok hask _
  · rintro m rfl
    obtain ⟨q, hq, hholds, hwrite⟩ := hsome m rfl
    refine ⟨q, hq, hholds, hwrite, ?_⟩
    rw [solutionWithin, Run.bind_of_ok (roll_apply _ g), Run.bind_of_ok (note_apply _ _)]
    refine (Run.bind_of_ok hask _).trans ?_
    dsimp only
    rw [hwrite, if_pos hq]
    rfl

/-- The search ends at once when some solution has the placements drawn first. -/
theorem solution_of_drawnNext (ho : o.Conforms holding) (hg : Loaded holding plan g)
    (hattempts : 0 < plan.attempts)
    (hdrawn : ∃ q : Pair plan.size,
      q.isSolution plan.diagonal ∧ q.Holds (drawnNext dice plan g.random)) :
    ∃ q g', solution o dice plan g = (.ok q, g') ∧ Loaded holding plan g' := by
  obtain ⟨left, hleft⟩ := Nat.exists_eq_add_one.2 hattempts
  obtain ⟨answer, st, -, hst, hnone, hsome⟩ := solutionWithin_succ dice ho hg left
  cases answer with
  | none => exact absurd hdrawn (hnone rfl).1
  | some m =>
    obtain ⟨q, -, -, -, hrun⟩ := hsome m rfl
    rw [← hleft] at hrun
    exact ⟨q, _, hrun, hst⟩

/-- The search for a solution ends with one, or with all its attempts used up. -/
theorem solutionWithin_gives (ho : o.Conforms holding) (hg : Loaded holding plan g) (left : Nat) :
    ∃ result g', solutionWithin o dice plan left g = (result, g') ∧ Loaded holding plan g' ∧
      ((∃ q : Pair plan.size, result = .ok q ∧ q.isSolution plan.diagonal) ∨
        result = .error (.attemptsExhausted plan.attempts)) := by
  induction left generalizing g with
  | zero => exact ⟨_, g, rfl, hg, .inr rfl⟩
  | succ left ih =>
    obtain ⟨answer, st, -, hst, hnone, hsome⟩ := solutionWithin_succ dice ho hg left
    cases answer with
    | none =>
      obtain ⟨result, g', hrest, hg', hresult⟩ := ih hst
      exact ⟨result, g', (hnone rfl).2.trans hrest, hg', hresult⟩
    | some m =>
      obtain ⟨q, hq, -, -, hrun⟩ := hsome m rfl
      exact ⟨.ok q, _, hrun, hst, .inl ⟨q, rfl, hq⟩⟩

end Generation

end TwinSudoku
