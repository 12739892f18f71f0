import TwinSudoku.Logic.OneHot

/-!
# The meaning of exactly-one clauses

An assignment satisfies `oneHot literals` exactly when one position of the list holds. Positions
count and not values: a literal that stands at two places and holds, holds at both of them.

* `countP_eq_one_iff`: counting what a test accepts finds one exactly when it accepts a single
  value.
* `Literal.holds_neg`: a literal other than 0 holds exactly when its opposite does not.
* `satisfies_excludeTwo`: no two positions hold.
* `satisfies_oneHot`: exactly one position holds, counted by `trueCount`.
* `exists_natAbs_eq_of_mem_oneHot`: the clauses speak of the variables of the list only.
-/

namespace TwinSudoku

/-- Among different values, counting those that a test accepts finds one exactly when it accepts a
single one. -/
theorem countP_eq_one_iff {α : Type} {xs : List α} (h : xs.Nodup) {test : α → Bool} :
    xs.countP test = 1 ↔ ∃ x ∈ xs, ∀ y ∈ xs, (test y = true ↔ x = y) := by
  rw [List.countP_eq_length_filter, List.length_eq_one_iff]
  constructor
  · rintro ⟨x, hx⟩
    have hmem (y : α) : y ∈ xs ∧ test y = true ↔ y = x := by
      rw [← List.mem_filter, hx, List.mem_singleton]
    refine ⟨x, ((hmem x).2 rfl).1, fun y hy => ?_⟩
    exact ⟨fun ht => ((hmem y).1 ⟨hy, ht⟩).symm, fun hxy => ((hmem y).2 hxy.symm).2⟩
  · rintro ⟨x, hx, htest⟩
    refine ⟨x, List.perm_singleton.1 ?_⟩
    rw [List.perm_ext_iff_of_nodup (h.filter _) (by simp)]
    intro y
    rw [List.mem_filter, List.mem_singleton]
    constructor
    · rintro ⟨hy, ht⟩
      exact ((htest y hy).1 ht).symm
    · rintro rfl
      exact ⟨hx, (htest y hx).2 rfl⟩

namespace Literal

theorem holds_neg {σ : Assignment} {l : Int} (h : l ≠ 0) : Holds σ (-l) ↔ ¬ Holds σ l := by
  have hsign : decide (0 < -l) = !decide (0 < l) := by
    rw [Bool.eq_iff_iff]
    simp
    omega
  rw [Holds, Holds, Int.natAbs_neg, hsign]
  cases σ l.natAbs <;> cases decide (0 < l) <;> simp

theorem holds_natCast {σ : Assignment} {v : Nat} (h : 0 < v) :
    Holds σ (v : Int) ↔ σ v = true := by
  simp [Holds, h]

theorem holds_neg_natCast {σ : Assignment} {v : Nat} (h : 0 < v) :
    Holds σ (-(v : Int)) ↔ σ v = false := by
  rw [holds_neg (by omega), holds_natCast h, Bool.not_eq_true]

end Literal

/-- The number of positions of a list that hold. -/
def trueCount (σ : Assignment) (literals : List Int) : Nat :=
  literals.countP fun l => decide (Literal.Holds σ l)

theorem trueCount_cons (σ : Assignment) (l : Int) (rest : List Int) :
    trueCount σ (l :: rest) = trueCount σ rest + if Literal.Holds σ l then 1 else 0 := by
  simp [trueCount, List.countP_cons]

theorem trueCount_pos_iff {σ : Assignment} {literals : List Int} :
    0 < trueCount σ literals ↔ Clause.Holds σ literals := by
  simp [trueCount, Clause.Holds]

/-- No two positions hold exactly when the clauses that exclude each two of them do. -/
theorem satisfies_excludeTwo {σ : Assignment} {literals : List Int} (h : ∀ l ∈ literals, l ≠ 0) :
    Satisfies σ (excludeTwo literals) ↔ trueCount σ literals ≤ 1 := by
  induction literals with
  | nil => simp [excludeTwo, Satisfies, trueCount]
  | cons l rest ih =>
    have hl : l ≠ 0 := h l (by simp)
    have hrest : ∀ m ∈ rest, m ≠ 0 := fun m hm => h m (List.mem_cons_of_mem _ hm)
    -- the clauses with the first position: where it holds, nothing after it may
    have hfirst : Satisfies σ (rest.map fun m => [-l, -m]) ↔
        (Literal.Holds σ l → trueCount σ rest = 0) := by
      simp only [Satisfies, List.forall_mem_map, trueCount, List.countP_eq_zero,
        decide_eq_true_eq]
      constructor
      · intro hclauses hholds m hm
        obtain ⟨x, hx, hxh⟩ := hclauses m hm
        simp only [List.mem_cons, List.not_mem_nil, or_false] at hx
        rcases hx with rfl | rfl
        · exact absurd hholds ((Literal.holds_neg hl).1 hxh)
        · exact (Literal.holds_neg (hrest m hm)).1 hxh
      · intro hnone m hm
        by_cases hholds : Literal.Holds σ l
        · exact ⟨-m, by simp, (Literal.holds_neg (hrest m hm)).2 (hnone hholds m hm)⟩
        · exact ⟨-l, by simp, (Literal.holds_neg hl).2 hholds⟩
    rw [excludeTwo, satisfies_append, hfirst, ih hrest, trueCount_cons]
    by_cases hholds : Literal.Holds σ l
    · simp only [hholds, if_true, true_implies]
      omega
    · simp [hholds]

/-- The exactly-one clauses hold exactly when one position of the list does. -/
theorem satisfies_oneHot {σ : Assignment} {literals : List Int} (h : ∀ l ∈ literals, l ≠ 0) :
    Satisfies σ (oneHot literals) ↔ trueCount σ literals = 1 := by
  have hsplit : Satisfies σ (oneHot literals) ↔
      Clause.Holds σ literals ∧ Satisfies σ (excludeTwo literals) := by
    simp [Satisfies, oneHot]
  rw [hsplit, satisfies_excludeTwo h, ← trueCount_pos_iff]
  omega

theorem exists_natAbs_eq_of_mem_excludeTwo {literals : List Int} {clause : Clause} {l : Int}
    (hclause : clause ∈ excludeTwo literals) (hl : l ∈ clause) :
    ∃ m ∈ literals, l.natAbs = m.natAbs := by
  induction literals with
  | nil => simp [excludeTwo] at hclause
  | cons first rest ih =>
    rw [excludeTwo, List.mem_append, List.mem_map] at hclause
    rcases hclause with ⟨m, hm, rfl⟩ | hclause
    · simp only [List.mem_cons, List.not_mem_nil, or_false] at hl
      rcases hl with rfl | rfl
      · exact ⟨first, by simp, Int.natAbs_neg first⟩
      · exact ⟨m, by simp [hm], Int.natAbs_neg m⟩
    · obtain ⟨m, hm, heq⟩ := ih hclause
      exact ⟨m, List.mem_cons_of_mem first hm, heq⟩

/-- The clauses have no other variables than the literals of the list. -/
theorem exists_natAbs_eq_of_mem_oneHot {literals : List Int} {clause : Clause} {l : Int}
    (hclause : clause ∈ oneHot literals) (hl : l ∈ clause) :
    ∃ m ∈ literals, l.natAbs = m.natAbs := by
  rcases List.mem_cons.1 hclause with rfl | hclause
  · exact ⟨l, hl, rfl⟩
  · exact exists_natAbs_eq_of_mem_excludeTwo hclause hl

end TwinSudoku
