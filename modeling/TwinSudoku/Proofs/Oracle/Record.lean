import TwinSudoku.Oracle.Record

/-!
# What a record shows

An oracle that keeps a record answers as the oracle behind it does.

* `Oracle.solve_of_recorded`: the answer to a query is that of the oracle behind, and the record
  has the query with its outcome.
* `Recorded.Adds`: what a session has done between two points of time.
* `Recorded.Holding`: what is loaded, said of a session with its record.
* `Oracle.Conforms.recorded`: answers that are right stay right.
-/

namespace TwinSudoku

variable {σ : Type}

namespace Recorded

/-- The second record goes on from the first one with the exchanges given. -/
def Adds (before after : Recorded σ) (made : List Exchange) : Prop :=
  after.record.toList = before.record.toList ++ made

/-- The clauses are those loaded in the session of the oracle behind. -/
def Holding (holding : List Clause → σ → Prop) (clauses : List Clause) (r : Recorded σ) : Prop :=
  holding clauses r.session

theorem Adds.refl (r : Recorded σ) : r.Adds r [] := by
  rw [Adds, List.append_nil]

theorem Adds.trans {r₁ r₂ r₃ : Recorded σ} {made more : List Exchange} (h₁ : r₁.Adds r₂ made)
    (h₂ : r₂.Adds r₃ more) : r₁.Adds r₃ (made ++ more) := by
  rw [Adds, h₂, h₁, List.append_assoc]

end Recorded

/-- How the outcome of a query shows what was found. -/
theorem QueryOutcome.ofAnswer_ok (answer : Option Model) :
    ofAnswer (.ok answer) = if answer.isSome then satisfiable else unsatisfiable := by
  cases answer <;> rfl

namespace Oracle

variable {o : Oracle σ} {holding : List Clause → σ → Prop}

theorem recorded_load {clauses : List Clause} {r : Recorded σ} {outcome : Except OracleError Unit}
    {st : σ} (h : o.load clauses r.session = (outcome, st)) :
    o.recorded.load clauses r =
      (outcome, ⟨st, r.record.push (.load clauses outcome.toBool)⟩) := by
  change ((o.load clauses r.session).1,
    Recorded.mk (o.load clauses r.session).2
      (r.record.push (.load clauses (o.load clauses r.session).1.toBool))) = _
  rw [h]

theorem recorded_solve {assumptions : List Int} {r : Recorded σ}
    {outcome : Except OracleError (Option Model)} {st : σ}
    (h : o.solve assumptions r.session = (outcome, st)) :
    o.recorded.solve assumptions r =
      (outcome, ⟨st, r.record.push (.query assumptions (.ofAnswer outcome))⟩) := by
  change ((o.solve assumptions r.session).1,
    Recorded.mk (o.solve assumptions r.session).2
      (r.record.push (.query assumptions (.ofAnswer (o.solve assumptions r.session).1)))) = _
  rw [h]

theorem recorded_release (r : Recorded σ) :
    o.recorded.release r = ((), ⟨(o.release r.session).2, r.record.push .release⟩) := rfl

/-- What the record of a query says of the oracle behind. -/
theorem solve_of_recorded {assumptions : List Int} {r r' : Recorded σ}
    {outcome : Except OracleError (Option Model)}
    (h : o.recorded.solve assumptions r = (outcome, r')) :
    o.solve assumptions r.session = (outcome, r'.session) ∧
      r.Adds r' [.query assumptions (.ofAnswer outcome)] := by
  cases hrun : o.solve assumptions r.session with
  | mk outcome' st =>
    rw [recorded_solve hrun, Prod.mk.injEq] at h
    obtain ⟨rfl, rfl⟩ := h
    exact ⟨rfl, Array.toList_push⟩

/-- An oracle that answers right does so under a record. -/
theorem Conforms.recorded (ho : o.Conforms holding) :
    o.recorded.Conforms (Recorded.Holding holding) where
  load hmore hr := by
    obtain ⟨st, hrun, hst⟩ := ho.load hmore hr
    exact ⟨_, recorded_load hrun, hst⟩
  solve hne hr := by
    obtain ⟨answer, st, hrun, hst, hanswer⟩ := ho.solve hne hr
    exact ⟨answer, _, recorded_solve hrun, hst, hanswer⟩

end Oracle

end TwinSudoku
