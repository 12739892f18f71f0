import TwinSudoku.Proofs.Generation.Minimizing

/-!
# Which questions about a digit are asked

The pair may have any size, and the cell and the digit may be any. A question that speaks of a cell
or a digit without variables is refused before the oracle is asked. All others are asked, and a
right answer decides them, whether the cell is empty in the pair or holds a digit, that one or
another.

* `Generation.misfit?`: the first reason to refuse a question.
* `Generation.Covers`: all that a question speaks of has variables. Just these questions are not
  refused (`misfit?_eq_none_iff`).
* `Generation.hasAlternative_of_misfit`, `Generation.minimizeIn_of_misfit`: a refused question
  changes nothing. Minimizing a pair that does not fit asks one at its first visit, in any order.
* `Generation.hasAlternative_decides`: what is refused, and what the answer to the others says.
-/

namespace TwinSudoku

namespace Pair

variable {s e : Size} {p : Pair e} {c : Cell}

/-- A digit that has a variable fits in again. -/
theorem FitsIn.of_without (h : (p.without c).FitsIn s) (hc : c.Inside s)
    (hd : p.digit c ∈ s.digits) : p.FitsIn s := by
  intro f hf
  by_cases hfc : f = c
  · exact hfc ▸ ⟨hc, (Size.mem_digits.1 hd).2⟩
  · have hwithout := p.digit_without_of_ne hfc
    rw [← hwithout] at hf ⊢
    exact h f hf

end Pair

namespace Generation

variable {σ ρ : Type} {o : Oracle σ} {holding : List Clause → σ → Prop} {plan : Plan} {s e : Size}
  {p : Pair e} {c : Cell} {d : Nat}

/-! ## Refused questions -/

/-- The first reason to refuse a question about a digit: the digits of the pair come before it. -/
def misfit? (s : Size) (p : Pair e) (c : Cell) (d : Nat) : Option Misuse :=
  (p.misfit? s).or (s.misfit? c d)

/-- The digits of the pair have variables, and so do the cell and the digit of the question. -/
structure Covers (s : Size) (p : Pair e) (c : Cell) (d : Nat) : Prop where
  fits : p.FitsIn s
  inside : c.Inside s
  mem_digits : d ∈ s.digits

theorem misfit?_eq_none_iff : misfit? s p c d = none ↔ Covers s p c d := by
  rw [misfit?, Option.or_eq_none_iff, Pair.misfit?_eq_none_iff, Size.misfit?_eq_none_iff]
  exact ⟨fun h => ⟨h.1, h.2.1, h.2.2⟩, fun h => ⟨h.fits, h.inside, h.mem_digits⟩⟩

theorem exists_misfit (h : ¬ Covers s p c d) : ∃ cause, misfit? s p c d = some cause :=
  Option.ne_none_iff_exists'.1 (mt misfit?_eq_none_iff.1 h)

/-- A refused question ends before the oracle is asked and before anything is counted. -/
theorem hasAlternative_of_misfit {cause : Misuse} (h : misfit? plan.size p c d = some cause)
    (g : Generator σ ρ) : hasAlternative o plan p c d g = (.error (.misuse cause), g) := by
  rw [hasAlternative, p.givens_eq, plan.size.denied_eq]
  rw [misfit?] at h
  cases hpair : p.misfit? plan.size with
  | some found =>
    rw [hpair, Option.some_or, Option.some.injEq] at h
    subst h
    exact Run.bind_of_error rfl _
  | none =>
    rw [hpair, Option.none_or] at h
    rw [h, Option.elim_none, Run.bind_of_ok (Run.ofMisuse_ok _ g)]
    exact Run.bind_of_error rfl _

/-- The first visit of a pair that does not fit is refused: either the digit visited has no
variable, or one of those that are still there. -/
theorem minimizeIn_of_misfit (hp : ¬ p.FitsIn plan.size) {order : List Cell}
    (horder : order.Perm p.filled) (g : Generator σ ρ) :
    ∃ c rest cause, order = c :: rest ∧
      misfit? plan.size (p.without c) c (p.digit c) = some cause ∧
      minimizeIn o plan order p g = (.error (.misuse cause), g) := by
  cases order with
  | nil =>
    refine absurd (fun c hc => ?_) hp
    have hmem : c ∈ p.filled := Pair.mem_filled.2 ⟨Pair.inside_of_digit_ne_zero hc, hc⟩
    exact absurd (horder.mem_iff.2 hmem) List.not_mem_nil
  | cons c rest =>
    obtain ⟨cause, hcause⟩ := exists_misfit (s := plan.size) (p := p.without c) (c := c)
      (d := p.digit c) fun h => hp (h.fits.of_without h.inside h.mem_digits)
    refine ⟨c, rest, cause, rfl, hcause, ?_⟩
    rw [minimizeIn]
    exact Run.bind_of_error (hasAlternative_of_misfit hcause g) _

theorem minimize_of_misfit (dice : Random.Dice ρ) (hp : ¬ p.FitsIn plan.size)
    (g : Generator σ ρ) :
    ∃ cause, minimize o dice plan p g = (.error (.misuse cause),
      { g with random := (Random.shuffle dice p.filled g.random).2 }) := by
  obtain ⟨c, rest, cause, -, -, hrun⟩ := minimizeIn_of_misfit (o := o) hp
    (Random.shuffle_perm dice p.filled g.random)
    { g with random := (Random.shuffle dice p.filled g.random).2 }
  exact ⟨cause, (Run.bind_of_ok (roll_apply _ g) _).trans hrun⟩

/-! ## Answered questions -/

/-- A question that is not refused is one query, and a right answer decides it. -/
theorem hasAlternative_recorded (ho : o.Conforms holding) {g : Generator (Recorded σ) ρ}
    (hg : Loaded (Recorded.Holding holding) plan g) (h : Covers plan.size p c d) :
    ∃ found r, hasAlternative o.recorded plan p c d g = (.ok found,
        { g with session := r, tally := { g.tally with queries := g.tally.queries + 1 } }) ∧
      g.session.Adds r [.query (p.literals plan.size ++ [-(plan.size.number c d : Int)])
        (if found then .satisfiable else .unsatisfiable)] ∧
      (found = true ↔
        ∃ q : Pair plan.size, q.Completes plan.diagonal p ∧ q.digit c ≠ d) := by
  obtain ⟨found, g', hrun, -, hfound⟩ :=
    hasAlternative_answers ho.recorded hg h.fits h.inside h.mem_digits
  cases hsolve : o.recorded.solve (p.literals plan.size ++ [-(plan.size.number c d : Int)])
    g.session with
  | mk answer r =>
    have hasked := hasAlternative_of_eq h.fits h.inside h.mem_digits hsolve
    cases answer with
    | error cause => cases hrun.symm.trans hasked
    | ok answer =>
      have hanswer : found = answer.isSome :=
        Except.ok.inj (congrArg Prod.fst (hrun.symm.trans hasked))
      refine ⟨found, r, hanswer ▸ hasked, ?_, hfound⟩
      rw [hanswer, ← QueryOutcome.ofAnswer_ok]
      exact (Oracle.solve_of_recorded hsolve).2

/-- A question about a pair of any size, any cell and any digit is refused when one of them has no
variable. Then no query is made and the session stays as it is, whatever the oracle. Otherwise one
query is made, and with right answers, after any calls, it is answered by whether some completion of
the pair does not hold the digit in the cell. Minimizing a pair that does not fit is refused at its
first visit. -/
theorem hasAlternative_decides (o : Oracle σ) (dice : Random.Dice ρ) (plan : Plan) (p : Pair e)
    (c : Cell) (d : Nat) :
    (¬ Covers plan.size p c d → ∀ g : Generator σ ρ, ∃ cause,
      misfit? plan.size p c d = some cause ∧
      hasAlternative o plan p c d g = (.error (.misuse cause), g)) ∧
    (Covers plan.size p c d → ∀ (holding : List Clause → σ → Prop) (st : σ) (random : ρ)
      (calls : List Call), o.Conforms holding → holding [] st →
      ∃ tally r, start o.recorded plan ⟨st, #[]⟩ = (.ok tally, r) ∧
        let g := (respondAll o.recorded dice plan calls ⟨r, random, tally⟩).2
        ∃ found r', hasAlternative o.recorded plan p c d g = (.ok found,
            { g with session := r', tally := { g.tally with queries := g.tally.queries + 1 } }) ∧
          g.session.Adds r' [.query (p.literals plan.size ++ [-(plan.size.number c d : Int)])
            (if found then .satisfiable else .unsatisfiable)] ∧
          (found = true ↔
            ∃ q : Pair plan.size, q.Completes plan.diagonal p ∧ q.digit c ≠ d)) ∧
    (¬ p.FitsIn plan.size → ∀ g : Generator σ ρ,
      (∀ order : List Cell, order.Perm p.filled → ∃ c rest cause, order = c :: rest ∧
        misfit? plan.size (p.without c) c (p.digit c) = some cause ∧
        minimizeIn o plan order p g = (.error (.misuse cause), g)) ∧
      ∃ cause, minimize o dice plan p g = (.error (.misuse cause),
        { g with random := (Random.shuffle dice p.filled g.random).2 })) := by
  refine ⟨fun hmisfit g => ?_, fun hcovers holding st random calls ho hst => ?_,
    fun hmisfit g => ⟨fun order horder => minimizeIn_of_misfit hmisfit horder g,
      minimize_of_misfit dice hmisfit g⟩⟩
  · obtain ⟨cause, hcause⟩ := exists_misfit hmisfit
    exact ⟨cause, hcause, hasAlternative_of_misfit hcause g⟩
  · obtain ⟨r, hstart, hr⟩ := start_recorded ho hst plan
    exact ⟨_, r, hstart, hasAlternative_recorded ho
      (respondAll_keeps ho.recorded dice calls (g := ⟨r, random, _⟩) hr) hcovers⟩

/-- The empty pair of another size has a completion without 1 in the first cell. The digits of a
pair of size 2 have no variables in a session of size 1. -/
theorem hasAlternative_decides_small :
    (∃ tally r g', start Oracle.exhaustive.recorded ⟨.small, false, 1⟩ ⟨[], #[]⟩ = (.ok tally, r) ∧
      hasAlternative Oracle.exhaustive.recorded ⟨.small, false, 1⟩ (Pair.empty .standard)
        ⟨.a, 0, 0⟩ 1 ⟨r, Random.Stream.ofSeed 0, tally⟩ = (.ok true, g')) ∧
    ∀ g : Generator (List Clause) Random.Stream, ∃ cause,
      minimize Oracle.exhaustive Random.streamDice ⟨⟨1, by decide, by decide⟩, false, 1⟩
          Pair.small g =
        (.error (.misuse cause), { g with
          random := (Random.shuffle Random.streamDice Pair.small.filled g.random).2 }) := by
  constructor
  · obtain ⟨-, hasked, -⟩ := hasAlternative_decides Oracle.exhaustive Random.streamDice
      ⟨.small, false, 1⟩ (Pair.empty .standard) ⟨.a, 0, 0⟩ 1
    have hcovers : Covers .small (Pair.empty .standard) ⟨.a, 0, 0⟩ 1 :=
      ⟨fun f hf => absurd (Pair.digit_empty f) hf, by decide, by decide⟩
    obtain ⟨tally, r, hstart, found, r', hrun, -, hfound⟩ :=
      hasked hcovers _ [] (.ofSeed 0) [] Oracle.exhaustive_conforms rfl
    have htrue : found = true := hfound.2 ⟨Pair.small, ⟨Pair.small_isSolution,
      fun f hf => absurd (Pair.digit_empty f) hf⟩, by decide⟩
    exact ⟨tally, r, _, hstart, htrue ▸ hrun⟩
  · intro g
    have hmisfit : ¬ Pair.small.FitsIn ⟨1, by decide, by decide⟩ := fun h =>
      absurd (h ⟨.a, 0, 0⟩ (by decide)).2 (by decide)
    obtain ⟨-, -, hrefused⟩ := hasAlternative_decides Oracle.exhaustive Random.streamDice
      ⟨⟨1, by decide, by decide⟩, false, 1⟩ Pair.small ⟨.a, 0, 0⟩ 1
    exact (hrefused hmisfit g).2

end Generation

end TwinSudoku
