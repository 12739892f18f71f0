import TwinSudoku.Oracle.Basic

/-!
# Sessions on a search procedure

* `Backend β`: a search procedure with a state of type `β`. It takes clauses one at a time and
  keeps them, takes the literals to assume in place of those assumed before, and decides whether
  all of them can be satisfied together.
* `Backend.Decides`: its decisions are right.
* `Oracle.incremental`: the session on such a procedure. It counts the clauses loaded and the
  queries made. Once released it gives the procedure up, refuses to load and to solve, and
  counts nothing any more.
-/

namespace TwinSudoku

/-- A search procedure with a state of type `β`. -/
structure Backend (β : Type) where
  start : β
  add : Clause → β → β
  /-- Assumes literals in place of those assumed before. -/
  assume : List Int → β → β
  /-- Decides whether all clauses taken so far can be satisfied together with the literals
  assumed, or tells why it cannot. -/
  decide : β → Except String Bool × β
  /-- The literals that hold in the model found last, if there is one. -/
  model? : β → Option (List Int)

/-- The literals are those of a model: no two of them are opposite, and there is one of each
clause and every assumed one among them. -/
structure ModelLiterals (literals : List Int) (clauses : List Clause) (assumptions : List Int) :
    Prop where
  consistent : ∀ l ∈ literals, -l ∉ literals
  clauses : ∀ c ∈ clauses, ∃ l ∈ c, l ∈ literals
  assumptions : ∀ l ∈ assumptions, l ∈ literals

/-- The decisions are right. `taken clauses assumptions b` says that the state `b` has taken just
these clauses, and was told last to assume just these literals. Nothing is asked of the procedure
where a literal is zero. -/
structure Backend.Decides {β : Type} (backend : Backend β)
    (taken : List Clause → List Int → β → Prop) : Prop where
  start : taken [] [] backend.start
  add : ∀ {clauses assumptions b c}, 0 ∉ c → taken clauses assumptions b →
    taken (clauses ++ [c]) assumptions (backend.add c b)
  assume : ∀ {clauses before b assumptions}, 0 ∉ assumptions → taken clauses before b →
    taken clauses assumptions (backend.assume assumptions b)
  decide : ∀ {clauses assumptions b}, taken clauses assumptions b →
    ∃ satisfiable b', backend.decide b = (.ok satisfiable, b') ∧ taken clauses assumptions b' ∧
      (satisfiable = true ↔ Satisfiable clauses assumptions) ∧
      (satisfiable = true → ∃ literals, backend.model? b' = some literals ∧
        ModelLiterals literals clauses assumptions)

/-- A session on a search procedure. -/
structure Session (β : Type) where
  /-- The procedure's state, until the session is released. -/
  solver : Option β
  clauses : Nat
  queries : Nat

namespace Session

def fresh {β : Type} (backend : Backend β) : Session β := ⟨some backend.start, 0, 0⟩

def isReleased {β : Type} (session : Session β) : Bool := session.solver.isNone

end Session

/-- The answer to a query, from the decision about it and the state after it. -/
def Backend.answer {β : Type} (backend : Backend β) (b : β) :
    Except String Bool → Except OracleError (Option Model)
  | .error report => .error (.backend report)
  | .ok false => .ok none
  | .ok true =>
    match backend.model? b with
    | some literals => .ok (some (.ofLiterals literals))
    | none => .error (.backend "satisfiable without a model")

/-- The oracle that asks a search procedure. -/
def Oracle.incremental {β : Type} (backend : Backend β) : Oracle (Session β) where
  load more := fun ⟨solver, clauses, queries⟩ =>
    match solver with
    | none => (.error .released, ⟨none, clauses, queries⟩)
    | some b =>
      (.ok (), ⟨some (more.foldl (fun b c => backend.add c b) b), clauses + more.length, queries⟩)
  solve assumptions := fun ⟨solver, clauses, queries⟩ =>
    match solver with
    | none => (.error .released, ⟨none, clauses, queries⟩)
    | some b =>
      let (decision, b) := backend.decide (backend.assume assumptions b)
      (backend.answer b decision, ⟨some b, clauses, queries + 1⟩)
  release := fun session => ((), { session with solver := none })

end TwinSudoku
