import TwinSudoku.Proofs.Generation.Steps
import TwinSudoku.Proofs.Oracle.Exhaustive

/-!
# Minimizing keeps the completions and leaves no digit to spare

* `Pair.PartOf`: a pair with some digits of another one in their places and nothing else. Fewer
  digits leave more completions (`Pair.PartOf.completes`).
* `Generation.hasAlternative_of_eq`, `Generation.hasAlternative_answers`: the query about one digit
  of a cell.
* `Pair.completes_without_iff`: a digit that no completion can replace may be removed.
* `Generation.minimizeIn_spares_none`: the loop, for any order of visits. A digit kept early is
  still needed when later ones have been removed, since then there are more completions yet.
* `Pair.ReducesTo`: what is left has the same completions, and each digit of it is needed.
* `Generation.minimize_reduces`: the result, in any order and after any calls in the session.
-/

namespace TwinSudoku

namespace Pair

variable {s e : Size} {diagonal : Bool}

/-! ## Fewer digits -/

/-- The pair with some digits removed and nothing else changed. -/
def PartOf (q p : Pair e) : Prop := ∀ c : Cell, q.digit c = p.digit c ∨ q.digit c = 0

theorem PartOf.refl (p : Pair e) : p.PartOf p := fun _ => .inl rfl

theorem PartOf.trans {p q r : Pair e} (hrq : r.PartOf q) (hqp : q.PartOf p) : r.PartOf p := by
  intro c
  rcases hrq c with heq | hzero
  · rw [heq]
    exact hqp c
  · exact .inr hzero

theorem PartOf.digit_eq {p q : Pair e} (h : q.PartOf p) {c : Cell} (hc : q.digit c ≠ 0) :
    q.digit c = p.digit c := (h c).resolve_right hc

theorem digit_without_of_ne (p : Pair e) {c d : Cell} (h : d ≠ c) :
    (p.without c).digit d = p.digit d := by
  rw [digit_without, if_neg h]

/-- Cells that hold digits hold them still when another one is cleared. -/
theorem digit_without_ne_zero {p : Pair e} {c : Cell} {cells : List Cell} (hc : c ∉ cells)
    (h : ∀ d ∈ cells, p.digit d ≠ 0) : ∀ d ∈ cells, (p.without c).digit d ≠ 0 := by
  intro d hd
  rw [p.digit_without_of_ne (ne_of_mem_of_not_mem hd hc)]
  exact h d hd

theorem without_partOf (p : Pair e) (c : Cell) : (p.without c).PartOf p := by
  intro d
  rw [digit_without]
  split
  · exact .inr rfl
  · exact .inl rfl

theorem PartOf.without {p q : Pair e} (h : q.PartOf p) (c : Cell) :
    (q.without c).PartOf (p.without c) := by
  intro d
  rw [digit_without, digit_without]
  split
  · exact .inl rfl
  · exact h d

/-- Fewer digits leave more completions. -/
theorem PartOf.completes {p q : Pair e} (h : q.PartOf p) {r : Pair s}
    (hr : r.Completes diagonal p) : r.Completes diagonal q := by
  refine ⟨hr.1, fun c hc => ?_⟩
  have heq := h.digit_eq hc
  rw [heq]
  exact hr.2 c (heq ▸ hc)

theorem completes_iff_without {p : Pair e} {r : Pair s} {c : Cell} (hc : p.digit c ≠ 0) :
    r.Completes diagonal p ↔ r.Completes diagonal (p.without c) ∧ r.digit c = p.digit c := by
  constructor
  · intro h
    exact ⟨(p.without_partOf c).completes h, h.2 c hc⟩
  · rintro ⟨⟨hsol, hext⟩, heq⟩
    refine ⟨hsol, fun d hd => ?_⟩
    by_cases hdc : d = c
    · rw [hdc, heq]
    · have hwithout := p.digit_without_of_ne hdc
      rw [← hwithout]
      exact hext d (hwithout ▸ hd)

/-- A digit that no completion of the rest can replace may be removed. -/
theorem completes_without_iff {p : Pair e} {c : Cell} (hc : p.digit c ≠ 0)
    (hnone : ¬ ∃ r : Pair s, r.Completes diagonal (p.without c) ∧ r.digit c ≠ p.digit c)
    (r : Pair s) : r.Completes diagonal (p.without c) ↔ r.Completes diagonal p := by
  rw [completes_iff_without hc]
  constructor
  · intro h
    exact ⟨h, Decidable.byContradiction fun hne => hnone ⟨r, h, hne⟩⟩
  · exact And.left

/-- What is left of a pair: some of its digits, with the same completions, where the removal of
any one of them gives a completion that has another digit in its place. -/
structure ReducesTo (p q : Pair e) (s : Size) (diagonal : Bool) : Prop where
  partOf : q.PartOf p
  completes_iff : ∀ r : Pair s, r.Completes diagonal q ↔ r.Completes diagonal p
  needed : ∀ c : Cell, q.digit c ≠ 0 →
    ∃ r : Pair s, r.Completes diagonal (q.without c) ∧ r.digit c ≠ q.digit c

/-- What is left of a solution has no completion but that solution. -/
theorem ReducesTo.completes_solution {p q r : Pair s} (h : p.ReducesTo q s diagonal)
    (hp : p.isSolution diagonal) : r.Completes diagonal q ↔ r = p := by
  rw [h.completes_iff, completes_iff_eq hp]

theorem nodup_filled (p : Pair e) : p.filled.Nodup := by
  have hall : (Cell.all e).Nodup := by
    refine (List.nodup_map_iff_inj_on List.nodup_range).2 fun i hi j hj hij => ?_
    rw [← Cell.place_ofPlace (List.mem_range.1 hi), hij,
      Cell.place_ofPlace (List.mem_range.1 hj)]
  exact hall.filter _

/-- An order of the filled cells visits each of them once. -/
theorem nodup_of_perm {p : Pair e} {order : List Cell} (h : order.Perm p.filled) : order.Nodup :=
  h.nodup_iff.2 p.nodup_filled

theorem digit_ne_zero_of_perm {p : Pair e} {order : List Cell} (h : order.Perm p.filled) :
    ∀ c ∈ order, p.digit c ≠ 0 :=
  fun _ hc => (mem_filled.1 (h.mem_iff.1 hc)).2

end Pair

namespace Generation

variable {σ ρ : Type} {o : Oracle σ} {holding : List Clause → σ → Prop} {plan : Plan} {e : Size}

/-! ## One query -/

/-- The question about one digit of a cell is one query: the digits of the pair, and the denial. It
ends as the query does. -/
theorem hasAlternative_of_eq {g : Generator σ ρ} {p : Pair e} (hp : p.FitsIn plan.size)
    {c : Cell} {d : Nat} (hc : c.Inside plan.size) (hd : d ∈ plan.size.digits)
    {answer : Except OracleError (Option Model)} {st : σ}
    (h : o.solve (p.literals plan.size ++ [-(plan.size.number c d : Int)]) g.session =
      (answer, st)) :
    hasAlternative o plan p c d g = ((answer.mapError .oracle).map Option.isSome,
      { g with session := st, tally := { g.tally with queries := g.tally.queries + 1 } }) := by
  have hask := ask_of_eq
    (g := { g with tally := { g.tally with queries := g.tally.queries + 1 } }) h
  rw [hasAlternative, Pair.givens_of_fitsIn hp, Run.bind_of_ok (Run.ofMisuse_ok _ g),
    Size.denied_of_inside hc hd, Run.bind_of_ok (Run.ofMisuse_ok _ g),
    Run.bind_of_ok (note_apply _ g)]
  cases answer with
  | error e => exact Run.bind_of_error hask _
  | ok answer => exact Run.bind_of_ok hask _

/-- The answer to the question whether some completion of a pair has another digit in a cell. -/
theorem hasAlternative_answers (ho : o.Conforms holding) {g : Generator σ ρ}
    (hg : Loaded holding plan g) {p : Pair e} (hp : p.FitsIn plan.size) {c : Cell} {d : Nat}
    (hc : c.Inside plan.size) (hd : d ∈ plan.size.digits) :
    ∃ found g', hasAlternative o plan p c d g = (.ok found, g') ∧ Loaded holding plan g' ∧
      (found = true ↔
        ∃ r : Pair plan.size, r.Completes plan.diagonal p ∧ r.digit c ≠ d) := by
  have hdemand (q : Pair plan.size) (τ : Assignment) (hq : q.EncodedBy τ) :
      Meets τ (p.literals plan.size ++ [-(plan.size.number c d : Int)]) ↔
        q.Extends p ∧ q.digit c ≠ d := by
    rw [← Pair.meets_givens hp hq, ← Pair.holds_denial hq hc hd]
    simp only [Meets, List.forall_mem_append, List.forall_mem_singleton]
  obtain ⟨answer, st, hrun, hst, hnone, hsome⟩ := ho.solve_rules hg
    (p.zero_not_mem_question plan.size c (Size.mem_digits.1 hd).1) hdemand
  refine ⟨answer.isSome, _, hasAlternative_of_eq hp hc hd hrun, hst, ?_⟩
  cases answer with
  | none =>
    refine ⟨by simp, ?_⟩
    rintro ⟨r, ⟨hr, hext⟩, hne⟩
    exact absurd ⟨r, hr, hext, hne⟩ (hnone rfl)
  | some m =>
    obtain ⟨r, hr, ⟨hext, hne⟩, -⟩ := hsome m rfl
    exact ⟨fun _ => ⟨r, ⟨hr, hext⟩, hne⟩, fun _ => rfl⟩

/-! ## The loop -/

/-- Visiting cells that hold digits, in any order. The completions stay the same, and of the
digits visited those that are left are needed. -/
theorem minimizeIn_spares_none (ho : o.Conforms holding) (order : List Cell) {p : Pair e}
    (hp : p.FitsIn plan.size) (hnodup : order.Nodup) (hfilled : ∀ c ∈ order, p.digit c ≠ 0)
    {g : Generator σ ρ} (hg : Loaded holding plan g) :
    ∃ q g', minimizeIn o plan order p g = (.ok q, g') ∧ q.PartOf p ∧
      (∀ r : Pair plan.size, r.Completes plan.diagonal q ↔ r.Completes plan.diagonal p) ∧
      ∀ c ∈ order, q.digit c ≠ 0 →
        ∃ r : Pair plan.size, r.Completes plan.diagonal (q.without c) ∧
          r.digit c ≠ q.digit c := by
  induction order generalizing p g with
  | nil => exact ⟨p, g, rfl, .refl p, fun _ => .rfl, by simp⟩
  | cons c rest ih =>
    obtain ⟨hcrest, hnodup⟩ := List.nodup_cons.1 hnodup
    obtain ⟨hc, hfilled⟩ := List.forall_mem_cons.1 hfilled
    obtain ⟨found, g₁, hrun, hg₁, hfound⟩ := hasAlternative_answers ho hg
      (hp.mono (p.without_partOf c)) (hp c hc).1 (hp.mem_digits hc)
    cases found with
    | true =>
      -- the digit is kept, and stays needed when others go
      obtain ⟨alt, halt, hne⟩ := hfound.1 rfl
      obtain ⟨q, g', hloop, hpart, hsame, hneeded⟩ := ih hp hnodup hfilled
        (g := { g₁ with tally := { g₁.tally with restored := g₁.tally.restored + 1 } }) hg₁
      refine ⟨q, g', ?_, hpart, hsame, fun d hd hqd => ?_⟩
      · rw [minimizeIn, Run.bind_of_ok hrun, ← hloop]
        exact Run.bind_of_ok (note_apply _ g₁) _
      · rcases List.mem_cons.1 hd with rfl | hd
        · exact ⟨alt, (hpart.without d).completes halt, hpart.digit_eq hqd ▸ hne⟩
        · exact hneeded d hd hqd
    | false =>
      -- the digit is removed, and no completion is gained
      have hnone := fun h => Bool.false_ne_true (hfound.2 h)
      obtain ⟨q, g', hloop, hpart, hsame, hneeded⟩ := ih (hp.mono (p.without_partOf c)) hnodup
        (Pair.digit_without_ne_zero hcrest hfilled)
        (g := { g₁ with tally := { g₁.tally with removed := g₁.tally.removed + 1 } }) hg₁
      refine ⟨q, g', ?_, hpart.trans (p.without_partOf c), fun r => ?_, fun d hd hqd => ?_⟩
      · rw [minimizeIn, Run.bind_of_ok hrun, ← hloop]
        exact Run.bind_of_ok (note_apply _ g₁) _
      · rw [hsame, Pair.completes_without_iff hc hnone]
      · rcases List.mem_cons.1 hd with rfl | hd
        · have := hpart.digit_eq hqd
          rw [Pair.digit_without, if_pos rfl] at this
          exact absurd this hqd
        · exact hneeded d hd hqd

/-- Minimizing in any order of the digits. -/
theorem minimizeIn_reduces (ho : o.Conforms holding) {g : Generator σ ρ}
    (hg : Loaded holding plan g) {p : Pair e} (hp : p.FitsIn plan.size) {order : List Cell}
    (horder : order.Perm p.filled) :
    ∃ q g', minimizeIn o plan order p g = (.ok q, g') ∧
      p.ReducesTo q plan.size plan.diagonal := by
  obtain ⟨q, g', hrun, hpart, hsame, hneeded⟩ := minimizeIn_spares_none ho order hp
    (Pair.nodup_of_perm horder) (Pair.digit_ne_zero_of_perm horder) hg
  refine ⟨q, g', hrun, hpart, hsame, fun c hc => hneeded c ?_ hc⟩
  have hpc : p.digit c ≠ 0 := hpart.digit_eq hc ▸ hc
  exact horder.mem_iff.2 (Pair.mem_filled.2 ⟨Pair.inside_of_digit_ne_zero hpc, hpc⟩)

/-- Minimizing in the order that the dice give. -/
theorem minimize_reduces_of_loaded (ho : o.Conforms holding) (dice : Random.Dice ρ)
    {g : Generator σ ρ} (hg : Loaded holding plan g) {p : Pair e} (hp : p.FitsIn plan.size) :
    ∃ q g', minimize o dice plan p g = (.ok q, g') ∧
      p.ReducesTo q plan.size plan.diagonal := by
  rw [minimize, Run.bind_of_ok (roll_apply _ g)]
  exact minimizeIn_reduces ho
    (g := { g with random := (Random.shuffle dice p.filled g.random).2 }) hg hp
    (Random.shuffle_perm dice p.filled g.random)

/-- Minimizing ends with a pair that has the same completions and no digit to spare, in any order
of visits and after any calls in the session. What is left of a solution has no completion but
that solution. -/
theorem minimize_reduces (ho : o.Conforms holding) {st : σ} (hst : holding [] st)
    (dice : Random.Dice ρ) (plan : Plan) (random : ρ) (calls : List Call) {p : Pair e}
    (hp : p.FitsIn plan.size) :
    ∃ tally st', start o plan st = (.ok tally, st') ∧
      let g := (respondAll o dice plan calls ⟨st', random, tally⟩).2
      (∀ order : List Cell, order.Perm p.filled →
        ∃ q g', minimizeIn o plan order p g = (.ok q, g') ∧
          p.ReducesTo q plan.size plan.diagonal) ∧
      (∃ q g', minimize o dice plan p g = (.ok q, g') ∧
        p.ReducesTo q plan.size plan.diagonal) ∧
      ∀ (solution : Pair plan.size) (order : List Cell), solution.isSolution plan.diagonal →
        order.Perm solution.filled →
          ∃ q g', minimizeIn o plan order solution g = (.ok q, g') ∧
            ∀ r : Pair plan.size, r.Completes plan.diagonal q ↔ r = solution := by
  obtain ⟨st', hstart, hst'⟩ := start_loaded ho hst plan
  have hg := respondAll_keeps ho dice calls
    (g := ⟨st', random, ⟨(ClauseSet.rules plan.size plan.diagonal).clauses.length, 0, 0, 0, 0, 0⟩⟩)
    hst'
  refine ⟨_, st', hstart, fun order horder => minimizeIn_reduces ho hg hp horder,
    minimize_reduces_of_loaded ho dice hg hp, fun solution order hsolution horder => ?_⟩
  obtain ⟨q, g', hrun, hreduces⟩ := minimizeIn_reduces ho hg solution.fitsIn_self horder
  exact ⟨q, g', hrun, fun r => hreduces.completes_solution hsolution⟩

theorem minimize_reduces_small :
    ∃ tally st', start Oracle.exhaustive ⟨.small, false, 1⟩ [] = (.ok tally, st') ∧
      ∃ q g', minimize Oracle.exhaustive Random.streamDice ⟨.small, false, 1⟩ Pair.small
          ⟨st', .ofSeed 0, tally⟩ = (.ok q, g') ∧ Pair.small.ReducesTo q .small false := by
  obtain ⟨tally, st', hstart, -, hrun, -⟩ := minimize_reduces Oracle.exhaustive_conforms rfl
    Random.streamDice ⟨.small, false, 1⟩ (.ofSeed 0) [] Pair.small.fitsIn_self
  exact ⟨tally, st', hstart, hrun⟩

end Generation

end TwinSudoku
