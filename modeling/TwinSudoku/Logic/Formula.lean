/-!
# Formulas in clausal form

A variable is a natural number from 1 on; a literal is an integer, `v` to assert the variable
`v` and `-v` to deny it; a clause is the disjunction of its literals, and a list of clauses
their conjunction.

* `Literal.Holds`, `Clause.Holds`, `Satisfies`: what an assignment of truth values makes
  of them. The empty clause never holds and the empty list of clauses always does.
* `Satisfiable`: the question that a search answers, for a list of clauses together with
  literals that are assumed for one query only.
-/

namespace TwinSudoku

/-- A disjunction of literals. -/
abbrev Clause := List Int

/-- A truth value for every variable. -/
abbrev Assignment := Nat → Bool

/-- A positive literal holds when its variable is true, any other when it is false. -/
def Literal.Holds (σ : Assignment) (l : Int) : Prop := σ l.natAbs = decide (0 < l)

instance (σ : Assignment) (l : Int) : Decidable (Literal.Holds σ l) :=
  inferInstanceAs (Decidable (_ = _))

/-- A clause holds when one of its literals does. -/
def Clause.Holds (σ : Assignment) (c : Clause) : Prop := ∃ l ∈ c, Literal.Holds σ l

instance (σ : Assignment) (c : Clause) : Decidable (c.Holds σ) :=
  inferInstanceAs (Decidable (∃ l ∈ c, Literal.Holds σ l))

/-- An assignment satisfies a list of clauses when each of them holds. -/
def Satisfies (σ : Assignment) (clauses : List Clause) : Prop :=
  ∀ c ∈ clauses, c.Holds σ

instance (σ : Assignment) (clauses : List Clause) : Decidable (Satisfies σ clauses) :=
  inferInstanceAs (Decidable (∀ c ∈ clauses, c.Holds σ))

/-- An assignment makes all assumed literals true. -/
def Meets (σ : Assignment) (assumptions : List Int) : Prop :=
  ∀ l ∈ assumptions, Literal.Holds σ l

instance (σ : Assignment) (assumptions : List Int) : Decidable (Meets σ assumptions) :=
  inferInstanceAs (Decidable (∀ l ∈ assumptions, Literal.Holds σ l))

/-- Some assignment satisfies the clauses and makes the assumed literals true. -/
def Satisfiable (clauses : List Clause) (assumptions : List Int) : Prop :=
  ∃ σ : Assignment, Satisfies σ clauses ∧ Meets σ assumptions

theorem satisfies_append {σ : Assignment} {xs ys : List Clause} :
    Satisfies σ (xs ++ ys) ↔ Satisfies σ xs ∧ Satisfies σ ys := by
  simp only [Satisfies, List.mem_append]
  exact ⟨fun h => ⟨fun c hc => h c (.inl hc), fun c hc => h c (.inr hc)⟩,
    fun h c hc => hc.elim (h.1 c) (h.2 c)⟩

end TwinSudoku
