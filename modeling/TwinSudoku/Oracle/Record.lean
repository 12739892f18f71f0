import TwinSudoku.Oracle.Basic

/-!
# Records of what an oracle is asked

`Oracle.recorded` is an oracle that behaves as another one does and keeps a record of every
operation and its outcome, in order.
-/

namespace TwinSudoku

/-- How a query ended. -/
inductive QueryOutcome
  | satisfiable
  | unsatisfiable
  | failed
deriving DecidableEq

/-- One operation of an oracle session. -/
inductive Exchange
  /-- Clauses were loaded, or the attempt failed. -/
  | load (clauses : List Clause) (loaded : Bool)
  | query (assumptions : List Int) (outcome : QueryOutcome)
  | release
deriving DecidableEq

/-- How the outcome of a query appears in a record. -/
def QueryOutcome.ofAnswer : Except OracleError (Option Model) → QueryOutcome
  | .ok (some _) => satisfiable
  | .ok none => unsatisfiable
  | .error _ => failed

/-- A session with its record, in the order of events. -/
structure Recorded (σ : Type) where
  session : σ
  record : Array Exchange

namespace Recorded

/-- The number of clauses of each attempt to load. -/
def loads {σ : Type} (r : Recorded σ) : List Nat :=
  r.record.toList.filterMap fun
    | .load clauses _ => some clauses.length
    | _ => none

def releases {σ : Type} (r : Recorded σ) : Nat := r.record.toList.count .release

def queries {σ : Type} (r : Recorded σ) : List (List Int × QueryOutcome) :=
  r.record.toList.filterMap fun
    | .query assumptions outcome => some (assumptions, outcome)
    | _ => none

end Recorded

def Oracle.recorded {σ : Type} (o : Oracle σ) : Oracle (Recorded σ) where
  load clauses := fun ⟨session, record⟩ =>
    let (outcome, session) := (o.load clauses).run session
    (outcome, ⟨session, record.push (.load clauses outcome.toBool)⟩)
  solve assumptions := fun ⟨session, record⟩ =>
    let (outcome, session) := (o.solve assumptions).run session
    (outcome, ⟨session, record.push (.query assumptions (.ofAnswer outcome))⟩)
  release := fun ⟨session, record⟩ =>
    let ((), session) := o.release.run session
    ((), ⟨session, record.push .release⟩)

end TwinSudoku
