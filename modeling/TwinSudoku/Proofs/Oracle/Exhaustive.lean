import Mathlib.Data.List.Sublists
import TwinSudoku.Oracle.Basic
import TwinSudoku.Proofs.Numbering.Assignments

/-!
# An oracle that tries all models

There are oracles that answer right. `Oracle.exhaustive` keeps the clauses loaded and tries the
models over all variables that the clauses and the assumed literals mention, which is of use for
a proof only: there are twice as many of them with each variable.

* `Literal.holds_modelUpTo`: a literal that an assignment makes true stays true in the model of
  the variables up to its own.
* `Oracle.answers_find?`: looking for a model among enough of them answers right.
* `Oracle.exhaustive_conforms`: all answers are right.
-/

namespace TwinSudoku

theorem Literal.holds_modelUpTo {σ : Assignment} {l : Int} {n : Nat} (hl : l.natAbs ≤ n)
    (h : Literal.Holds σ l) : Literal.Holds (σ.modelUpTo n).assignment l := by
  rw [Literal.Holds, Bool.eq_iff_iff, Model.assignment_eq_true, Assignment.mem_modelUpTo, h]
  simp only [decide_eq_true_eq]
  omega

namespace Oracle

/-- The largest variable that the literals mention. -/
def largest (literals : List Int) : Nat := literals.foldr (fun l n => max l.natAbs n) 0

/-- The models over the variables up to `n`. -/
def modelsUpTo (n : Nat) : List Model :=
  (List.range' 1 n).sublists.map fun vs => Model.ofLiterals (vs.map fun v : Nat => (v : Int))

/-- The oracle that tries all models. -/
def exhaustive : Oracle (List Clause) where
  load more := fun clauses => (.ok (), clauses ++ more)
  solve assumptions := fun clauses =>
    (.ok ((modelsUpTo (largest (clauses.flatten ++ assumptions))).find? fun m =>
      decide (Satisfies m.assignment clauses ∧ Meets m.assignment assumptions)), clauses)
  release := fun _ => ((), [])

theorem natAbs_le_largest {literals : List Int} {l : Int} (h : l ∈ literals) :
    l.natAbs ≤ largest literals := by
  induction literals with
  | nil => simp at h
  | cons m rest ih =>
    rw [largest, List.foldr_cons]
    rcases List.mem_cons.1 h with rfl | hrest
    · exact Nat.le_max_left _ _
    · exact Nat.le_trans (ih hrest) (Nat.le_max_right _ _)

theorem modelUpTo_mem_modelsUpTo (σ : Assignment) (n : Nat) :
    σ.modelUpTo n ∈ modelsUpTo n :=
  List.mem_map.2 ⟨_, List.mem_sublists.2 List.filter_sublist, rfl⟩

/-- What an assignment satisfies, the model of the variables that are mentioned satisfies too. -/
theorem satisfies_modelUpTo {clauses : List Clause} {assumptions : List Int} {σ : Assignment}
    {n : Nat} (hn : largest (clauses.flatten ++ assumptions) ≤ n) (hσ : Satisfies σ clauses)
    (hmeets : Meets σ assumptions) :
    Satisfies (σ.modelUpTo n).assignment clauses ∧
      Meets (σ.modelUpTo n).assignment assumptions := by
  have hle {l : Int} (hl : l ∈ clauses.flatten ++ assumptions) : l.natAbs ≤ n :=
    Nat.le_trans (natAbs_le_largest hl) hn
  refine ⟨fun c hc => ?_, fun l hl => ?_⟩
  · obtain ⟨l, hl, hholds⟩ := hσ c hc
    have hmem : l ∈ clauses.flatten := List.mem_flatten.2 ⟨c, hc, hl⟩
    exact ⟨l, hl, Literal.holds_modelUpTo (hle (List.mem_append_left _ hmem)) hholds⟩
  · exact Literal.holds_modelUpTo (hle (List.mem_append_right _ hl)) (hmeets l hl)

/-- Looking for a model among some is a right answer when each assignment has one of them that
agrees with it on the variables that are mentioned. -/
theorem answers_find? {models : List Model} {clauses : List Clause} {assumptions : List Int}
    (h : ∀ σ : Assignment, ∃ n, largest (clauses.flatten ++ assumptions) ≤ n ∧
      σ.modelUpTo n ∈ models) :
    Answers clauses assumptions (models.find? fun m =>
      decide (Satisfies m.assignment clauses ∧ Meets m.assignment assumptions)) := by
  cases hfind : models.find? fun m =>
      decide (Satisfies m.assignment clauses ∧ Meets m.assignment assumptions) with
  | none =>
    rintro ⟨σ, hσ, hmeets⟩
    obtain ⟨n, hn, hmem⟩ := h σ
    have := List.find?_eq_none.1 hfind _ hmem
    exact this (decide_eq_true (satisfies_modelUpTo hn hσ hmeets))
  | some m =>
    have hm := List.find?_some hfind
    rwa [decide_eq_true_eq] at hm

/-- The oracle that tries all models answers right. -/
theorem exhaustive_conforms : exhaustive.Conforms fun clauses st => st = clauses where
  load _ hst := ⟨_, rfl, congrArg (· ++ _) hst⟩
  solve := by
    intro clauses st assumptions _ hst
    subst hst
    exact ⟨_, _, rfl, rfl, answers_find? fun σ => ⟨_, Nat.le_refl _, modelUpTo_mem_modelsUpTo σ _⟩⟩

end Oracle

end TwinSudoku
