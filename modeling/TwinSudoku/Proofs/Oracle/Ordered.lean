import TwinSudoku.Proofs.Numbering.Order
import TwinSudoku.Proofs.Oracle.Exhaustive

/-!
# Oracles that answer with the first model

Assignments are in the order of `Assignment.Before`. An oracle may be known to answer each query
with the first of all models, so that its answer is determined by the clauses and the assumed
literals. `Oracle.ordered` is such an oracle: it tries the models in this order.

* `Oracle.PicksFirst`: no assignment that satisfies a query comes before the answer.
* `pairwise_selections`: the selections from an increasing list, in the order in which they are
  tried.
* `Oracle.ordered_conforms`, `Oracle.ordered_picksFirst`: the oracle that tries the models in order
  answers right, and with the first model.
-/

namespace TwinSudoku

/-! ## Selections in order -/

/-- All selections from a list; those with its first element come before those without it. -/
def selections : List Nat → List (List Nat)
  | [] => [[]]
  | v :: rest => (selections rest).map (v :: ·) ++ selections rest

theorem filter_mem_selections (test : Nat → Bool) (vs : List Nat) :
    vs.filter test ∈ selections vs := by
  induction vs with
  | nil => simp [selections]
  | cons v rest ih =>
    rw [selections, List.mem_append, List.filter_cons]
    split
    · exact .inl (List.mem_map_of_mem ih)
    · exact .inr ih

theorem mem_of_mem_selections {vs xs : List Nat} (h : xs ∈ selections vs) {v : Nat} (hv : v ∈ xs) :
    v ∈ vs := by
  induction vs generalizing xs with
  | nil =>
    rw [selections, List.mem_singleton] at h
    rwa [h] at hv
  | cons w rest ih =>
    rw [selections, List.mem_append, List.mem_map] at h
    rcases h with ⟨ys, hys, rfl⟩ | h
    · rcases List.mem_cons.1 hv with rfl | hv
      · exact List.mem_cons_self
      · exact List.mem_cons_of_mem w (ih hys hv)
    · exact List.mem_cons_of_mem w (ih h hv)

/-- Of the elements of `vs`, the first one that only one of two selections has belongs to `xs`. -/
def Precedes (vs xs ys : List Nat) : Prop :=
  ∃ v ∈ vs, v ∈ xs ∧ v ∉ ys ∧ ∀ u ∈ vs, u < v → (u ∈ xs ↔ u ∈ ys)

/-- The selections from an increasing list are in order. -/
theorem pairwise_selections {vs : List Nat} (h : vs.Pairwise (· < ·)) :
    (selections vs).Pairwise (Precedes vs) := by
  induction vs with
  | nil => exact List.pairwise_singleton _ _
  | cons w rest ih =>
    obtain ⟨hw, hrest⟩ := List.pairwise_cons.1 h
    have hnot {xs : List Nat} (hxs : xs ∈ selections rest) : w ∉ xs := fun hmem =>
      Nat.lt_irrefl w (hw w (mem_of_mem_selections hxs hmem))
    rw [selections, List.pairwise_append, List.pairwise_map]
    refine ⟨?_, ?_, ?_⟩
    · refine (ih hrest).imp ?_
      rintro xs ys ⟨v, hv, hvx, hvy, hbelow⟩
      have hwv := hw v hv
      refine ⟨v, List.mem_cons_of_mem w hv, List.mem_cons_of_mem w hvx, ?_, fun u hu huv => ?_⟩
      · rw [List.mem_cons, not_or]
        exact ⟨by omega, hvy⟩
      · rcases List.mem_cons.1 hu with rfl | hu
        · simp
        · simp only [List.mem_cons, hbelow u hu huv]
    · refine (ih hrest).imp_of_mem ?_
      rintro xs ys hxs hys ⟨v, hv, hvx, hvy, hbelow⟩
      refine ⟨v, List.mem_cons_of_mem w hv, hvx, hvy, fun u hu huv => ?_⟩
      rcases List.mem_cons.1 hu with rfl | hu
      · simp [hnot hxs, hnot hys]
      · exact hbelow u hu huv
    · -- a selection with the first element and one without it
      rintro _ hxs ys hys
      obtain ⟨xs, -, rfl⟩ := List.mem_map.1 hxs
      refine ⟨w, List.mem_cons_self, List.mem_cons_self, hnot hys, fun u hu huw => ?_⟩
      rcases List.mem_cons.1 hu with rfl | hu
      · omega
      · have := hw u hu
        omega

theorem eq_or_rel_of_find? {α : Type} {R : α → α → Prop} {xs : List α} {test : α → Bool} {x y : α}
    (h : xs.Pairwise R) (hx : xs.find? test = some x) (hy : y ∈ xs) (htest : test y) :
    y = x ∨ R x y := by
  obtain ⟨-, before, after, rfl, hbefore⟩ := List.find?_eq_some_iff_append.1 hx
  rcases List.mem_append.1 hy with hy | hy
  · have := hbefore y hy
    simp [htest] at this
  · rcases List.mem_cons.1 hy with rfl | hy
    · exact .inl rfl
    · exact .inr (List.rel_of_pairwise_cons (List.pairwise_append.1 h).2.1 hy)

namespace Oracle

/-! ## First models -/

/-- While just these clauses are loaded, the answer to a query is the first of its models, as far
as the variables up to `n` go. -/
def PicksFirst {σ : Type} (o : Oracle σ) (holding : List Clause → σ → Prop) (clauses : List Clause)
    (n : Nat) : Prop :=
  ∀ {st st' : σ} {assumptions : List Int} {m : Model}, holding clauses st →
    o.solve assumptions st = (.ok (some m), st') →
      ∀ τ : Assignment, Satisfies τ clauses → Meets τ assumptions → ¬ τ.Before n m.assignment

/-- The models over the variables up to `n`, in order. -/
def modelsInOrder (n : Nat) : List Model :=
  (selections (List.range' 1 n)).map fun vs => Model.ofLiterals (vs.map fun v : Nat => (v : Int))

/-- The oracle that tries the models in order, at least those over the variables up to `n`. -/
def ordered (n : Nat) : Oracle (List Clause) where
  load more := fun clauses => (.ok (), clauses ++ more)
  solve assumptions := fun clauses =>
    (.ok ((modelsInOrder (max n (largest (clauses.flatten ++ assumptions)))).find? fun m =>
      decide (Satisfies m.assignment clauses ∧ Meets m.assignment assumptions)), clauses)
  release := fun _ => ((), [])

theorem modelUpTo_mem_modelsInOrder (σ : Assignment) (n : Nat) :
    σ.modelUpTo n ∈ modelsInOrder n :=
  List.mem_map_of_mem (filter_mem_selections σ (List.range' 1 n))

theorem pairwise_modelsInOrder (n : Nat) :
    (modelsInOrder n).Pairwise fun m m' => m.assignment.Before n m'.assignment := by
  have hrange {v : Nat} : v ∈ List.range' 1 n ↔ 1 ≤ v ∧ v ≤ n := by
    rw [List.mem_range'_1]
    omega
  have htrue {vs : List Nat} {v : Nat} (hv : 1 ≤ v) :
      (Model.ofLiterals (vs.map fun v : Nat => (v : Int))).assignment v = true ↔ v ∈ vs := by
    rw [Model.assignment_eq_true, Model.mem_ofLiterals, List.mem_map]
    constructor
    · rintro ⟨-, w, hw, hwv⟩
      obtain rfl : w = v := by omega
      exact hw
    · intro h
      exact ⟨hv, v, h, rfl⟩
  rw [modelsInOrder, List.pairwise_map]
  refine (pairwise_selections List.pairwise_lt_range').imp ?_
  rintro xs ys ⟨v, hv, hvx, hvy, hbelow⟩
  have hv' := hrange.1 hv
  refine ⟨v, hv', (htrue hv'.1).2 hvx, ?_, fun u hu huv => ?_⟩
  · rwa [← Bool.not_eq_true, htrue hv'.1]
  · rw [Bool.eq_iff_iff, htrue hu, htrue hu]
    exact hbelow u (hrange.2 ⟨hu, by omega⟩) huv

theorem ordered_conforms (n : Nat) : (ordered n).Conforms fun clauses st => st = clauses where
  load _ hst := ⟨_, rfl, congrArg (· ++ _) hst⟩
  solve := by
    intro clauses st assumptions _ hst
    subst hst
    exact ⟨_, _, rfl, rfl, answers_find? fun σ =>
      ⟨_, Nat.le_max_right _ _, modelUpTo_mem_modelsInOrder σ _⟩⟩

/-- The oracle that tries the models in order answers with the first one. -/
theorem ordered_picksFirst (n : Nat) (clauses : List Clause) :
    (ordered n).PicksFirst (fun clauses st => st = clauses) clauses n := by
  intro st st' assumptions m hst hrun τ hτ hmeets hbefore
  subst hst
  have hfind := Except.ok.inj (congrArg Prod.fst hrun)
  let N := max n (largest (st.flatten ++ assumptions))
  have hmodel := satisfies_modelUpTo (Nat.le_max_right n _) hτ hmeets
  -- the model of the assignment is among those tried, and agrees with it up to `n`
  have hbefore' : (τ.modelUpTo N).assignment.Before N m.assignment := by
    refine (hbefore.mono (Nat.le_max_left n _)).congr fun v hv hvN => ?_
    rw [Bool.eq_iff_iff, Model.assignment_eq_true, Assignment.mem_modelUpTo]
    exact ⟨fun h => ⟨⟨hv, hvN⟩, h⟩, And.right⟩
  rcases eq_or_rel_of_find? (pairwise_modelsInOrder N) hfind (modelUpTo_mem_modelsInOrder τ N)
    (decide_eq_true hmodel) with heq | hafter
  · rw [heq] at hbefore'
    exact hbefore'.asymm hbefore'
  · exact hbefore'.asymm hafter

end Oracle

end TwinSudoku
