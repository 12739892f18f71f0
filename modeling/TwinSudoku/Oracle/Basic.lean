import TwinSudoku.Logic.Model

/-!
# Oracles

An oracle answers whether a list of clauses can be satisfied together with some literals. It
is used in a session: clauses are loaded and stay, literals are assumed for one query each,
and at the end the session is released.

* `Oracle σ`: the three operations on a session state of any type `σ`. Nothing is assumed of
  what they answer.
* `Oracle.Conforms`: the answers are right. A query is answered with a model exactly when
  the loaded clauses and the assumptions can be satisfied, and the model satisfies them. Of
  clauses and assumptions in which a literal is zero nothing is said.
* `Oracle.start`: loads the clauses of a session; where that fails, releases it at once.
-/

namespace TwinSudoku

/-- Why an oracle has no answer. -/
inductive OracleError
  /-- The session has been released. -/
  | released
  /-- The search behind the oracle failed. -/
  | backend (report : String)
deriving DecidableEq

/-- The text of a failure. -/
def OracleError.message : OracleError → String
  | released => "oracle session already released"
  | backend report => "SAT backend failure: " ++ report

/-- A run that may fail and that changes a state, also when it fails. -/
abbrev Run (σ ε α : Type) := ExceptT ε (StateM σ) α

/-- The operations of a session with state `σ`. -/
structure Oracle (σ : Type) where
  /-- Adds clauses to those loaded before. -/
  load : List Clause → Run σ OracleError Unit
  /-- Looks for a model of all loaded clauses and the assumed literals; `none` when there is
  no such model. -/
  solve : List Int → Run σ OracleError (Option Model)
  /-- Ends the session. -/
  release : StateM σ Unit

namespace Oracle

variable {σ : Type}

/-- What an answer says of the clauses and the assumptions is right. -/
def Answers (clauses : List Clause) (assumptions : List Int) : Option Model → Prop
  | none => ¬ Satisfiable clauses assumptions
  | some m => Satisfies m.assignment clauses ∧ Meets m.assignment assumptions

/-- All answers are right. `holding clauses st` says that in the state `st` just these clauses
are loaded and the session is not released. Zero is the literal of no variable, and nothing is
asked of the oracle where a literal is zero. -/
structure Conforms (o : Oracle σ) (holding : List Clause → σ → Prop) : Prop where
  load : ∀ {clauses st more}, (∀ c ∈ more, 0 ∉ c) → holding clauses st →
    ∃ st', o.load more st = (.ok (), st') ∧ holding (clauses ++ more) st'
  solve : ∀ {clauses st assumptions}, 0 ∉ assumptions → holding clauses st →
    ∃ answer st', o.solve assumptions st = (.ok answer, st') ∧ holding clauses st' ∧
      Answers clauses assumptions answer

/-- Loads the clauses of a session; a session that cannot be loaded is released. -/
def start (o : Oracle σ) (clauses : List Clause) : Run σ OracleError Unit :=
  tryCatch (o.load clauses) fun e => do
    o.release
    throw e

end Oracle

end TwinSudoku
