import TwinSudoku.Oracle.Script
import TwinSudoku.Proofs.Generation.Minimizing
import TwinSudoku.Proofs.Numbering.Writing

/-!
# Minimizing follows the answers

Nothing is assumed here of what an oracle answers: not that answers are right, not that they go
together, not that there is one. What was answered until then determines the next query, and all
answers determine what is left.

* `Generation.minimizeInPlace`: the loop on one working pair, in which a digit is cleared and put
  back.
* `Generation.Visit`: a query about the digit of a cell, with its answer.
* `Generation.removed`: the cells that lost their digit by the answers.
* `Generation.Asked`: the query that the visits before it ask for.
* `Generation.Ended`: what the answers leave, or the failure of the last one.
* `Generation.Course`: a run of the loop, which holds also where it fails. A visit in front of a
  course makes a course (`Course.cons`), and so does one that fails (`Course.of_error`).
* `Generation.minimize_follows_answers`: minimizing runs such a course in any order of visits.
-/

namespace TwinSudoku

namespace Pair

variable {s e : Size}

/-- The pair without what it holds in some cells. -/
def withoutAll (p : Pair e) (cells : List Cell) : Pair e := cells.foldl without p

theorem digit_withoutAll (p : Pair e) (cells : List Cell) (c : Cell) :
    (p.withoutAll cells).digit c = if c ∈ cells then 0 else p.digit c := by
  induction cells generalizing p with
  | nil => rfl
  | cons d rest ih =>
    rw [withoutAll, List.foldl_cons, ← withoutAll, ih, digit_without]
    by_cases hcd : c = d <;> simp [hcd]

/-- A digit that was cleared is put back. -/
theorem set_without {p : Pair e} {c : Cell} (hc : p.digit c ≠ 0) :
    (p.without c).set c (p.digit c) = .ok p := by
  refine set_eq_ok_iff.2 ⟨digit_mem_digits.2 hc, inside_of_digit_ne_zero hc, fun d => ?_⟩
  rw [digit_without]
  by_cases hdc : d = c <;> simp [hdc]

end Pair

namespace Generation

variable {σ ρ : Type} {o : Oracle σ} {plan : Plan} {e : Size}

/-! ## One working pair -/

/-- Visits the cells as `minimizeIn` does, on one working pair. -/
def minimizeInPlace (o : Oracle σ) (plan : Plan) {e : Size} :
    (order : List Cell) → Pair e → Step σ ρ (Pair e)
  | [], working => return working
  | c :: rest, working => do
    let d ← Failure.ofMisuse (working.get c)
    let working ← Failure.ofMisuse (working.clear c)
    if ← hasAlternative o plan working c d then
      let working ← Failure.ofMisuse (working.set c d)
      note fun tally => { tally with restored := tally.restored + 1 }
      minimizeInPlace o plan rest working
    else
      note fun tally => { tally with removed := tally.removed + 1 }
      minimizeInPlace o plan rest working

/-- Every digit that is put back is put where it was. -/
theorem minimizeInPlace_eq (o : Oracle σ) (plan : Plan) {order : List Cell} {p : Pair e}
    (hnodup : order.Nodup) (hfilled : ∀ c ∈ order, p.digit c ≠ 0) :
    (minimizeInPlace o plan order p : Step σ ρ (Pair e)) = minimizeIn o plan order p := by
  induction order generalizing p with
  | nil => rfl
  | cons c rest ih =>
    obtain ⟨hcrest, hnodup⟩ := List.nodup_cons.1 hnodup
    obtain ⟨hc, hfilled⟩ := List.forall_mem_cons.1 hfilled
    have hstill := Pair.digit_without_ne_zero hcrest hfilled
    have hin := Pair.inside_of_digit_ne_zero hc
    have hback (f : Pair e → Step σ ρ (Pair e)) :
        (Failure.ofMisuse ((p.without c).set c (p.digit c)) >>= f) = f p := by
      rw [Pair.set_without hc]
      rfl
    rw [minimizeInPlace, minimizeIn, Pair.get, if_pos hin, Pair.clear, if_pos hin]
    change (hasAlternative o plan (p.without c) c (p.digit c) >>= fun found => _) = _
    rw [ih hnodup hstill]
    refine congrArg (_ >>= ·) (funext fun found => ?_)
    cases found with
    | true =>
      refine (hback _).trans ?_
      rw [ih hnodup hfilled]
      rfl
    | false => rfl

/-! ## Visits -/

/-- A visit of a cell: what the oracle was asked about its digit, and what it answered. -/
structure Visit where
  cell : Cell
  query : List Int
  answer : Except OracleError (Option Model)

namespace Visit

/-- How a visit appears in the record of a session. -/
def exchange (v : Visit) : Exchange := .query v.query (.ofAnswer v.answer)

/-- The cell, where no model was found. -/
def removed? (v : Visit) : Option Cell :=
  match v.answer with
  | .ok none => some v.cell
  | _ => none

end Visit

/-- The cells whose digit is removed by the answers. -/
def removed (visits : List Visit) : List Cell := visits.filterMap Visit.removed?

/-- What the answers leave of a pair. -/
def left (p : Pair e) (visits : List Visit) : Pair e := p.withoutAll (removed visits)

theorem digit_left (p : Pair e) (visits : List Visit) (c : Cell) :
    (left p visits).digit c = if c ∈ removed visits then 0 else p.digit c :=
  p.digit_withoutAll (removed visits) c

theorem left_cons (p : Pair e) (v : Visit) (visits : List Visit) :
    left p (v :: visits) = left (left p [v]) visits := by
  have hcons : removed (v :: visits) = removed [v] ++ removed visits :=
    @List.filterMap_append _ _ [v] visits Visit.removed?
  rw [left, hcons, Pair.withoutAll, List.foldl_append]
  rfl

/-- A visit changes no other cell. -/
theorem digit_left_singleton (p : Pair e) (v : Visit) {c : Cell} (h : c ≠ v.cell) :
    (left p [v]).digit c = p.digit c := by
  rw [digit_left, if_neg]
  intro hmem
  obtain ⟨u, hu, hremoved⟩ := List.mem_filterMap.1 hmem
  obtain rfl := List.mem_singleton.1 hu
  rw [Visit.removed?] at hremoved
  split at hremoved
  · exact h (Option.some.inj hremoved).symm
  · cases hremoved

/-- The oracle, asked what the visits ask, gives their answers one after another. -/
inductive Gives (o : Oracle σ) : σ → List Visit → σ → Prop
  | nil (st : σ) : Gives o st [] st
  | cons {st mid st' : σ} {v : Visit} {rest : List Visit}
      (h : o.solve v.query st = (v.answer, mid)) (hrest : Gives o mid rest st') :
      Gives o st (v :: rest) st'

/-- The visit asks for another digit in its cell than the pair has, given the digits that are left
of the pair without that one. Their literals are in increasing order. -/
def Asked (s : Size) (p : Pair e) (before : List Visit) (v : Visit) : Prop :=
  let givens := ((left p before).without v.cell).literals s
  v.query = givens ++ [-(s.number v.cell (p.digit v.cell) : Int)] ∧ givens.Pairwise (· < ·)

/-- How visits end. With an answer for each cell, the pair is left without the digits removed. The
first failure ends the visits and is the result. -/
inductive Ended (p : Pair e) (order : List Cell) : List Visit → Except Failure (Pair e) → Prop
  | finished {visits : List Visit} {q : Pair e} (hcells : visits.map Visit.cell = order)
      (hok : ∀ v ∈ visits, v.answer.isOk)
      (hq : ∀ c, q.digit c = if c ∈ removed visits then 0 else p.digit c) :
      Ended p order visits (.ok q)
  | failed {before : List Visit} {v : Visit} {cause : OracleError}
      (hok : ∀ u ∈ before, u.answer.isOk) (hv : v.answer = .error cause) :
      Ended p order (before ++ [v]) (.error (.oracle cause))

theorem Ended.cons {p : Pair e} {rest : List Cell} {v : Visit} {visits : List Visit}
    {result : Except Failure (Pair e)} (hok : v.answer.isOk)
    (h : Ended (left p [v]) rest visits result) :
    Ended p (v.cell :: rest) (v :: visits) result := by
  cases h with
  | finished hcells hoks hq =>
    refine .finished (congrArg (v.cell :: ·) hcells) (List.forall_mem_cons.2 ⟨hok, hoks⟩)
      fun c => ?_
    rw [hq, ← digit_left, ← left_cons, digit_left]
  | failed hoks hv => exact @Ended.failed _ _ _ (v :: _) _ _ (List.forall_mem_cons.2 ⟨hok, hoks⟩) hv

/-- A run that visits cells in order, from a generator to a result and a generator. -/
structure Course (o : Oracle σ) (s : Size) (p : Pair e) (order : List Cell)
    (g : Generator (Recorded σ) ρ) (run : Except Failure (Pair e) × Generator (Recorded σ) ρ)
    (visits : List Visit) : Prop where
  gives : Gives o g.session.session visits run.2.session.session
  adds : g.session.Adds run.2.session (visits.map Visit.exchange)
  inOrder : visits.map Visit.cell <+: order
  asked : ∀ before v after, visits = before ++ v :: after → Asked s p before v
  ended : Ended p order visits run.1

namespace Course

variable {s : Size} {p : Pair e} {rest : List Cell} {g g₁ : Generator (Recorded σ) ρ}
  {run : Except Failure (Pair e) × Generator (Recorded σ) ρ} {v : Visit} {visits : List Visit}

theorem nil (o : Oracle σ) (s : Size) (p : Pair e) (g : Generator (Recorded σ) ρ) :
    Course o s p [] g (.ok p, g) [] where
  gives := .nil _
  adds := .refl _
  inOrder := List.prefix_rfl
  asked before v after h := by simp at h
  ended := .finished rfl (by simp) fun _ => rfl

/-- A first visit that fails is the last. -/
theorem of_error {cause : OracleError}
    (hsolve : o.recorded.solve v.query g.session = (v.answer, g₁.session))
    (hasked : Asked s p [] v) (hv : v.answer = .error cause) :
    Course o s p (v.cell :: rest) g (.error (.oracle cause), g₁) [v] where
  gives := .cons (Oracle.solve_of_recorded hsolve).1 (.nil _)
  adds := (Oracle.solve_of_recorded hsolve).2
  inOrder := ⟨rest, rfl⟩
  asked before u after h := by
    cases before with
    | nil =>
      cases h
      exact hasked
    | cons w before => simp at h
  ended := @Ended.failed _ _ _ [] v cause (by simp) hv

/-- A first visit that is answered is followed by visits of what it leaves. -/
theorem cons (hsolve : o.recorded.solve v.query g.session = (v.answer, g₁.session))
    (hasked : Asked s p [] v) (hok : v.answer.isOk) (hfresh : v.cell ∉ rest)
    (h : Course o s (left p [v]) rest g₁ run visits) :
    Course o s p (v.cell :: rest) g run (v :: visits) where
  gives := .cons (Oracle.solve_of_recorded hsolve).1 h.gives
  adds := (Oracle.solve_of_recorded hsolve).2.trans h.adds
  inOrder := List.cons_prefix_cons.2 ⟨rfl, h.inOrder⟩
  asked before u after hvisits := by
    cases before with
    | nil =>
      cases hvisits
      exact hasked
    | cons w before =>
      obtain ⟨rfl, htail⟩ := List.cons.inj hvisits
      have hu : u.cell ∈ rest :=
        h.inOrder.subset (List.mem_map_of_mem (htail ▸ List.mem_append_right _ List.mem_cons_self))
      -- what comes before the visit is the same, and its digit is not the one just removed
      have hthere := h.asked before u after htail
      rwa [Asked, ← left_cons, digit_left_singleton p v (ne_of_mem_of_not_mem hu hfresh)] at hthere
  ended := h.ended.cons hok

end Course

/-! ## The loop -/

/-- Visiting cells that hold digits, in any order and with any answers. -/
theorem minimizeIn_course (o : Oracle σ) (order : List Cell) {p : Pair e} (hp : p.FitsIn plan.size)
    (hnodup : order.Nodup) (hfilled : ∀ c ∈ order, p.digit c ≠ 0)
    (g : Generator (Recorded σ) ρ) :
    ∃ visits, Course o plan.size p order g (minimizeIn o.recorded plan order p g) visits := by
  induction order generalizing p g with
  | nil => exact ⟨[], .nil o plan.size p g⟩
  | cons c rest ih =>
    obtain ⟨hcrest, hnodup⟩ := List.nodup_cons.1 hnodup
    obtain ⟨hc, hfilled⟩ := List.forall_mem_cons.1 hfilled
    have hwithout := hp.mono (p.without_partOf c)
    let query := (p.without c).literals plan.size ++ [-(plan.size.number c (p.digit c) : Int)]
    cases hsolve : o.recorded.solve query g.session with
    | mk answer st =>
      have hrun := hasAlternative_of_eq hwithout (hp c hc).1 (hp.mem_digits hc) hsolve
      have hasked : Asked plan.size p [] ⟨c, query, answer⟩ :=
        ⟨rfl, Pair.pairwise_literals hwithout⟩
      rw [minimizeIn]
      cases answer with
      | error cause =>
        rw [Run.bind_of_error hrun]
        exact ⟨_, .of_error hsolve hasked rfl⟩
      | ok answer =>
        rw [Run.bind_of_ok hrun]
        cases answer with
        | none =>
          obtain ⟨visits, hcourse⟩ := ih hwithout hnodup
            (Pair.digit_without_ne_zero hcrest hfilled) ⟨st, g.random,
            { g.tally with queries := g.tally.queries + 1, removed := g.tally.removed + 1 }⟩
          exact ⟨_, .cons hsolve hasked rfl hcrest hcourse⟩
        | some m =>
          obtain ⟨visits, hcourse⟩ := ih hp hnodup hfilled ⟨st, g.random,
            { g.tally with queries := g.tally.queries + 1, restored := g.tally.restored + 1 }⟩
          exact ⟨_, .cons hsolve hasked rfl hcrest hcourse⟩

/-- Whatever the oracle answers, minimizing a pair whose digits have variables visits its cells one
after another, each of them once. The query of a visit is determined by the answers before it. When
all visits are answered, the pair is left without the digits for which there was no model. The first
failure is the result, and no query follows it. So it is in every order of visits, on one working
pair too, and in the order that the dice give. -/
theorem minimize_follows_answers (o : Oracle σ) (dice : Random.Dice ρ) (plan : Plan) {p : Pair e}
    (hp : p.FitsIn plan.size) (g : Generator (Recorded σ) ρ) :
    (∀ order : List Cell, order.Perm p.filled →
      minimizeInPlace o.recorded plan order p g = minimizeIn o.recorded plan order p g ∧
      ∃ visits, Course o plan.size p order g (minimizeIn o.recorded plan order p g) visits) ∧
    ∃ (order : List Cell) (visits : List Visit), order.Perm p.filled ∧
      Course o plan.size p order g (minimize o.recorded dice plan p g) visits := by
  have hcourse {order : List Cell} (h : order.Perm p.filled) (g : Generator (Recorded σ) ρ) :=
    minimizeIn_course o order hp (Pair.nodup_of_perm h) (Pair.digit_ne_zero_of_perm h) g
  constructor
  · intro order horder
    have hsame := minimizeInPlace_eq (ρ := ρ) o.recorded plan (Pair.nodup_of_perm horder)
      (Pair.digit_ne_zero_of_perm horder)
    exact ⟨congrFun hsame g, hcourse horder g⟩
  · have hperm := Random.shuffle_perm dice p.filled g.random
    obtain ⟨visits, hvisits⟩ := hcourse hperm
      { g with random := (Random.shuffle dice p.filled g.random).2 }
    refine ⟨_, visits, hperm, ?_⟩
    rw [minimize, Run.bind_of_ok (roll_apply _ g)]
    exact ⟨hvisits.gives, hvisits.adds, hvisits.inOrder, hvisits.asked, hvisits.ended⟩

theorem minimize_follows_answers_small :
    let g : Generator (Recorded Script) Random.Stream :=
      ⟨⟨⟨none, [.ok none, .error .released]⟩, #[]⟩, .ofSeed 0, ⟨0, 0, 0, 0, 0, 0⟩⟩
    let run := minimizeIn Oracle.scripted.recorded ⟨.small, false, 1⟩ Pair.small.filled Pair.small g
    run.1 = .error (.oracle .released) ∧
      ∃ visits, Course Oracle.scripted .small Pair.small Pair.small.filled g run visits := by
  intro g run
  obtain ⟨hcourse, -⟩ := minimize_follows_answers Oracle.scripted Random.streamDice
    ⟨.small, false, 1⟩ Pair.small.fitsIn_self g
  exact ⟨by rfl, (hcourse _ (.refl _)).2⟩

end Generation

end TwinSudoku
