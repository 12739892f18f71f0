import Mathlib.Data.List.FinRange
import Mathlib.Data.List.NodupEquivFin
import Mathlib.Data.Prod.Lex
import TwinSudoku.Clauses
import TwinSudoku.Proofs.Clauses.OneHot

/-!
# Exactly-one clauses, position by position

`oneHot` follows the list of literals from its front. Here its clauses are those of the pairs of
positions of the list, and what they say is said of positions: literals may be repeated, and a
literal may stand beside its opposite.

* `twoPositions`: the pairs of positions in lexicographic order. `mem_twoPositions` and
  `pairwise_twoPositions` say which they are and how they are ordered, so that there is no other
  such list.
* `excludeTwo_eq`: the clauses that exclude two literals, one for each pair of positions.
* `trueCount_eq_one_iff`: counting the positions that hold gives 1 when there is just one of them.
* `holds_elsewhere`: a literal that stands at two positions is not the one that holds.
* `exactlyOne_holds_at_one_position`: from these, what the clauses are and what they mean.
-/

namespace TwinSudoku

/-! ## Pairs of positions -/

/-- The pairs of positions of a list of length `n`, the smaller position first, in lexicographic
order. -/
def twoPositions : (n : Nat) → List (Fin n × Fin n)
  | 0 => []
  | n + 1 => (List.finRange n).map (fun j => (0, j.succ)) ++
      (twoPositions n).map (Prod.map Fin.succ Fin.succ)

theorem mem_twoPositions {n : Nat} {i j : Fin n} : (i, j) ∈ twoPositions n ↔ i < j := by
  induction n with
  | zero => exact i.elim0
  | succ n ih =>
    simp only [twoPositions, List.mem_append, List.mem_map, Prod.exists, Prod.map, Prod.mk.injEq]
    cases i using Fin.cases with
    | zero =>
      cases j using Fin.cases with
      | zero => simp
      | succ j => simp
    | succ i =>
      cases j using Fin.cases with
      | zero => simp
      | succ j => simp [ih, (Fin.succ_ne_zero i).symm]

theorem pairwise_twoPositions (n : Nat) :
    (twoPositions n).Pairwise fun p q => toLex p < toLex q := by
  simp only [Prod.Lex.toLex_lt_toLex]
  induction n with
  | zero => exact .nil
  | succ n ih =>
    refine List.pairwise_append.2 ⟨?_, ?_, ?_⟩
    · refine List.pairwise_map.2 ((List.pairwise_lt_finRange n).imp fun hij => .inr ⟨rfl, ?_⟩)
      exact Fin.succ_lt_succ_iff.2 hij
    · refine List.pairwise_map.2 (ih.imp fun hpq => ?_)
      simpa using hpq
    · simp only [List.forall_mem_map]
      intro j _ p _
      exact .inl p.1.succ_pos

/-- One clause for every two positions. -/
theorem excludeTwo_eq (literals : List Int) :
    excludeTwo literals =
      (twoPositions literals.length).map fun p => [-literals.get p.1, -literals.get p.2] := by
  induction literals with
  | nil => rfl
  | cons l rest ih =>
    have hfirst : rest.map (fun m => [-l, -m]) =
        (List.finRange rest.length).map fun j => [-l, -rest.get j] := by
      conv_lhs => rw [← List.map_get_finRange rest, List.map_map]
      rfl
    rw [excludeTwo, ih, hfirst]
    simp only [List.length_cons, twoPositions, List.map_append, List.map_map]
    rfl

/-! ## The position that holds -/

variable {σ : Assignment} {literals : List Int} {l : Int}

theorem trueCount_eq_one_iff :
    trueCount σ literals = 1 ↔ ∃! i, Literal.Holds σ (literals.get i) := by
  have hcount : trueCount σ literals =
      (List.finRange literals.length).countP fun i => Literal.Holds σ (literals.get i) := by
    rw [trueCount]
    conv_lhs => rw [← List.map_get_finRange literals, List.countP_map]
    rfl
  rw [hcount, countP_eq_one_iff (List.nodup_finRange literals.length)]
  simp only [List.mem_finRange, true_and, true_implies, decide_eq_true_eq]
  constructor
  · rintro ⟨i, hi⟩
    exact ⟨i, (hi i).2 rfl, fun j hj => ((hi j).1 hj).symm⟩
  · rintro ⟨i, hi, hunique⟩
    exact ⟨i, fun j => ⟨fun hj => (hunique j hj).symm, fun hij => hij ▸ hi⟩⟩

/-- If just one position holds, a literal that stands at two positions does not, and another one
does. -/
theorem holds_elsewhere (hone : ∃! i, Literal.Holds σ (literals.get i))
    (hl : 2 ≤ literals.count l) :
    ¬ Literal.Holds σ l ∧ ∃ m ∈ literals, m ≠ l ∧ Literal.Holds σ m := by
  have hnot : ¬ Literal.Holds σ l := by
    intro hholds
    obtain ⟨i, j, hij, hi, hj⟩ := List.duplicate_iff_exists_distinct_get.1
      (List.duplicate_iff_two_le_count.2 hl)
    exact hij.ne (hone.unique (hi ▸ hholds) (hj ▸ hholds))
  obtain ⟨i, hi, -⟩ := hone
  refine ⟨hnot, literals.get i, List.get_mem literals i, ?_, hi⟩
  intro heq
  exact hnot (heq ▸ hi)

/-- Of literals other than 0 that have an opposite, the exactly-one clauses are the clause of all of
them and then, in lexicographic order of the positions, one clause for every two. They hold exactly
when one position does. So a literal that is there twice cannot be the one that holds, and no
assignment satisfies the clauses of the empty list. -/
theorem exactlyOne_holds_at_one_position (hzero : ∀ l ∈ literals, l ≠ 0)
    (hleast : ∀ l ∈ literals, l ≠ leastLiteral) :
    ∃ places : List (Fin literals.length × Fin literals.length),
      (∀ i j, (i, j) ∈ places ↔ i < j) ∧ places.Pairwise (fun p q => toLex p < toLex q) ∧
      let clauses := literals :: places.map fun p => [-literals.get p.1, -literals.get p.2]
      exactlyOne literals = .ok clauses ∧
        clauses.length = 1 + literals.length * (literals.length - 1) / 2 ∧
        (∀ σ, Satisfies σ clauses ↔ ∃! i, Literal.Holds σ (literals.get i)) ∧
        (∀ σ l, 2 ≤ literals.count l → Satisfies σ clauses →
          ¬ Literal.Holds σ l ∧ ∃ m ∈ literals, m ≠ l ∧ Literal.Holds σ m) ∧
        (literals = [] → ∀ σ, ¬ Satisfies σ clauses) := by
  refine ⟨twoPositions literals.length, fun i j => mem_twoPositions,
    pairwise_twoPositions literals.length, ?_⟩
  intro clauses
  have hclauses : oneHot literals = clauses := congrArg (literals :: ·) (excludeTwo_eq literals)
  have hmeans (σ : Assignment) :
      Satisfies σ clauses ↔ ∃! i, Literal.Holds σ (literals.get i) := by
    rw [← hclauses, satisfies_oneHot hzero, trueCount_eq_one_iff]
  refine ⟨?_, ?_, hmeans, ?_, ?_⟩
  · rw [exactlyOne, if_neg fun h => hleast _ h.2 rfl, hclauses]
  · rw [← hclauses, length_oneHot]
  · intro σ l hl hσ
    exact holds_elsewhere ((hmeans σ).1 hσ) hl
  · rintro rfl σ hσ
    obtain ⟨i, -⟩ := (hmeans σ).1 hσ
    exact i.elim0

/-- A literal at two positions, and another one beside its opposite. -/
theorem exactlyOne_holds_at_one_position_repeated :
    (∀ l ∈ [2, -1, 2, 1], l ≠ (0 : Int)) ∧ (∀ l ∈ [2, -1, 2, 1], l ≠ leastLiteral) ∧
      ∃ clauses, exactlyOne [2, -1, 2, 1] = .ok clauses ∧ clauses.length = 7 ∧
        Satisfies (fun v => v = 1) clauses ∧ ¬ Satisfies (fun v => v = 2) clauses := by
  have hzero : ∀ l ∈ [2, -1, 2, 1], l ≠ (0 : Int) := by decide
  have hleast : ∀ l ∈ [2, -1, 2, 1], l ≠ leastLiteral := by decide
  obtain ⟨places, -, -, hclauses, hlength, hmeans, htwice, -⟩ :=
    exactlyOne_holds_at_one_position hzero hleast
  refine ⟨hzero, hleast, _, hclauses, hlength, (hmeans _).2 ?_, fun hσ => ?_⟩
  · exact ⟨3, by decide, by decide⟩
  · exact (htwice _ 2 (by decide) hσ).1 (by decide)

end TwinSudoku
