import TwinSudoku.Clauses
import TwinSudoku.Proofs.Clauses.OneHot

/-!
# What the clauses of each family say

The clauses speak of an assignment only through the truth of the variables `s.number c d`. Here
each family is read as a statement about these, without clauses:

* `clauses_ofParts`: the clauses of several parts are those of each, one after the other;
  `satisfies_ofParts`: they hold when those of each part do.
* `Part.Says`: all clauses of a labelled list hold. It distributes over the ways in which the
  families are put together, and on `Part.one` it is a number of true literals.
* `Assignment.KeepsRules`: every cell has exactly one digit, every house exactly one cell for
  each digit, and twins have no digit in common.
* `satisfies_rules`: the clauses of all rules say just that.
-/

namespace TwinSudoku

/-! ## Parts -/

namespace ClauseSet

/-- Parts one after another are collected like the list of all their clauses. -/
theorem foldl_add (s : Size) (diagonal : Bool) (parts : List Part) (set : ClauseSet) :
    parts.foldl (add s diagonal) set =
      ⟨set.clauses ++ (parts.flatMap (Part.labelled s diagonal)).map Prod.snd,
        (parts.flatMap (Part.labelled s diagonal)).foldl (fun n clause => n.count clause.1)
          set.counts⟩ := by
  induction parts generalizing set with
  | nil => simp
  | cons part rest ih =>
    rw [List.foldl_cons, ih]
    simp [add]

theorem clauses_ofParts (s : Size) (diagonal : Bool) (parts : List Part) :
    (ofParts s diagonal parts).clauses = parts.flatMap (Part.clauses s diagonal) := by
  rw [ofParts, foldl_add, List.map_flatMap]
  rfl

end ClauseSet

/-! ## Labelled clauses -/

namespace Part

variable {s : Size} {σ : Assignment}

/-- All clauses of a labelled list hold. -/
def Says (σ : Assignment) (labelled : List Labelled) : Prop := ∀ entry ∈ labelled, entry.2.Holds σ

theorem satisfies_clauses (σ : Assignment) (diagonal : Bool) (part : Part) :
    Satisfies σ (part.clauses s diagonal) ↔ Says σ (part.labelled s diagonal) := by
  simp only [Satisfies, clauses, Says, List.forall_mem_map]

theorem says_append {xs ys : List Labelled} : Says σ (xs ++ ys) ↔ Says σ xs ∧ Says σ ys := by
  simp only [Says, List.mem_append, or_imp, forall_and]

theorem says_flatMap {α : Type} {xs : List α} {f : α → List Labelled} :
    Says σ (xs.flatMap f) ↔ ∀ x ∈ xs, Says σ (f x) := by
  simp only [Says, List.mem_flatMap]
  exact ⟨fun h x hx entry he => h entry ⟨x, hx, he⟩, fun h entry ⟨x, hx, he⟩ => h x hx entry he⟩

theorem says_one {family : Family} {literals : List Int} (h : ∀ l ∈ literals, l ≠ 0) :
    Says σ (one family literals) ↔ trueCount σ literals = 1 := by
  rw [← satisfies_oneHot h]
  simp only [Says, one, Satisfies, List.forall_mem_map]

theorem holdsDigit_ne_zero {c : Cell} {d : Nat} (hd : d ∈ s.digits) : holdsDigit s d c ≠ 0 := by
  have hpos := Size.number_pos (s := s) (c := c) (Size.mem_digits.1 hd).1
  rw [holdsDigit]
  omega

theorem holds_holdsDigit {c : Cell} {d : Nat} (hd : d ∈ s.digits) :
    Literal.Holds σ (holdsDigit s d c) ↔ σ (s.number c d) = true :=
  Literal.holds_natCast (Size.number_pos (Size.mem_digits.1 hd).1)

/-- Exactly one cell of the house has the digit. -/
theorem says_once {family : Family} {house : List Cell} {d : Nat} (hd : d ∈ s.digits) :
    Says σ (once s family house d) ↔ house.countP (fun c => σ (s.number c d)) = 1 := by
  have hne : ∀ l ∈ house.map (holdsDigit s d), l ≠ 0 := by
    rw [List.forall_mem_map]
    intro c _
    exact holdsDigit_ne_zero hd
  have hcount : trueCount σ (house.map (holdsDigit s d)) =
      house.countP fun c => σ (s.number c d) := by
    rw [trueCount, List.countP_map]
    apply List.countP_congr
    intro c _
    simp [holds_holdsDigit hd]
  rw [once, says_one hne, hcount]

/-- The cell has exactly one digit. -/
theorem says_one_digits {family : Family} {c : Cell} :
    Says σ (one family (s.digits.map (holdsDigit s · c))) ↔
      s.digits.countP (fun d => σ (s.number c d)) = 1 := by
  have hne : ∀ l ∈ s.digits.map (holdsDigit s · c), l ≠ 0 := by
    rw [List.forall_mem_map]
    intro d hd
    exact holdsDigit_ne_zero hd
  have hcount : trueCount σ (s.digits.map (holdsDigit s · c)) =
      s.digits.countP fun d => σ (s.number c d) := by
    rw [trueCount, List.countP_map]
    apply List.countP_congr
    intro d hd
    simp [holds_holdsDigit hd]
  rw [says_one hne, hcount]

/-! ## Families -/

/-- The cells of a board are those of its rows. -/
theorem forall_rows {g : Board} {P : Cell → Prop} :
    (∀ r ∈ List.range s.side, ∀ c ∈ House.row s g r, P c) ↔
      ∀ c : Cell, c.Inside s → c.board = g → P c := by
  simp only [House.row, List.mem_range, List.mem_map]
  constructor
  · rintro h ⟨g', r, k⟩ hin rfl
    exact h r hin.1 _ ⟨k, hin.2, rfl⟩
  · rintro h r hr _ ⟨k, hk, rfl⟩
    exact h _ ⟨hr, hk⟩ rfl

theorem says_cells {g : Board} :
    Says σ (cells s g) ↔
      ∀ c : Cell, c.Inside s → c.board = g → s.digits.countP (fun d => σ (s.number c d)) = 1 := by
  rw [← forall_rows]
  simp only [cells, says_flatMap, says_one_digits]

/-- Every digit has exactly one cell in each of the houses. -/
def Spread (σ : Assignment) (s : Size) (houses : List (List Cell)) : Prop :=
  ∀ house ∈ houses, ∀ d ∈ s.digits, house.countP (fun c => σ (s.number c d)) = 1

theorem spread_append {hs ks : List (List Cell)} :
    Spread σ s (hs ++ ks) ↔ Spread σ s hs ∧ Spread σ s ks := by
  simp only [Spread, List.mem_append, or_imp, forall_and]

theorem says_lines {g : Board} :
    Says σ (lines s g) ↔
      Spread σ s ((List.range s.side).map (House.row s g)) ∧
        Spread σ s ((List.range s.side).map (House.column s g)) := by
  simp only [lines, says_flatMap, says_append, Spread, List.forall_mem_map]
  constructor
  · intro h
    exact ⟨fun i hi d hd => (says_once hd).1 (h i hi d hd).1,
      fun i hi d hd => (says_once hd).1 (h i hi d hd).2⟩
  · intro h i hi d hd
    exact ⟨(says_once hd).2 (h.1 i hi d hd), (says_once hd).2 (h.2 i hi d hd)⟩

theorem says_blocks {g : Board} :
    Says σ (blocks s g) ↔ Spread σ s ((List.range s.side).map (House.block s g)) := by
  simp only [blocks, says_flatMap, Spread, List.forall_mem_map]
  exact forall₂_congr fun b _ => forall₂_congr fun d hd => says_once hd

theorem says_diagonals {g : Board} :
    Says σ (diagonals s g) ↔ Spread σ s [House.falling s g, House.rising s g] := by
  simp only [diagonals, says_flatMap, says_append, Spread, List.mem_cons, List.not_mem_nil,
    or_false, forall_eq_or_imp, forall_eq]
  constructor
  · intro h
    exact ⟨fun d hd => (says_once hd).1 (h d hd).1, fun d hd => (says_once hd).1 (h d hd).2⟩
  · intro h d hd
    exact ⟨(says_once hd).2 (h.1 d hd), (says_once hd).2 (h.2 d hd)⟩

theorem says_twins {diagonal : Bool} :
    Says σ (twins.labelled s diagonal) ↔ ∀ c : Cell, c.Inside s → c.board = .a → ∀ d ∈ s.digits,
      ¬ (σ (s.number c d) = true ∧ σ (s.number c.twin d) = true) := by
  rw [← forall_rows]
  simp only [labelled, differences, says_flatMap]
  refine forall₂_congr fun r _ => forall₂_congr fun c _ => ?_
  simp only [Says, List.forall_mem_map]
  refine forall₂_congr fun d hd => ?_
  simp only [Clause.Holds, List.mem_cons, List.not_mem_nil, or_false, exists_eq_or_imp,
    exists_eq_left, Literal.holds_neg (holdsDigit_ne_zero hd), holds_holdsDigit hd]
  exact Decidable.not_and_iff_not_or_not.symm

end Part

/-! ## All rules -/

/-- What the clauses of all rules say of an assignment. -/
structure Assignment.KeepsRules (σ : Assignment) (s : Size) (diagonal : Bool) : Prop where
  cell : ∀ c : Cell, c.Inside s → s.digits.countP (fun d => σ (s.number c d)) = 1
  house : ∀ g : Board, Part.Spread σ s (House.all s diagonal g)
  twin : ∀ c : Cell, c.Inside s → ∀ d ∈ s.digits,
    ¬ (σ (s.number c d) = true ∧ σ (s.number c.twin d) = true)

theorem Part.says_board {s : Size} {σ : Assignment} {diagonal : Bool} {g : Board} :
    Says σ ((board g).labelled s diagonal) ↔
      (∀ c : Cell, c.Inside s → c.board = g →
        s.digits.countP (fun d => σ (s.number c d)) = 1) ∧
      Spread σ s (House.all s diagonal g) := by
  simp only [labelled, House.all, says_append, says_cells, says_lines, says_blocks,
    spread_append]
  cases diagonal with
  | false => simp [Says, Spread, and_assoc]
  | true => simp only [if_true, says_diagonals, and_assoc]

/-- The clauses of several parts hold exactly when those of each part do. -/
theorem satisfies_ofParts {s : Size} {diagonal : Bool} {σ : Assignment} {parts : List Part} :
    Satisfies σ (ClauseSet.ofParts s diagonal parts).clauses ↔
      ∀ part ∈ parts, Part.Says σ (part.labelled s diagonal) := by
  simp only [ClauseSet.clauses_ofParts, ← Part.satisfies_clauses, Satisfies, List.mem_flatMap]
  constructor
  · intro h part hp c hc
    exact h c ⟨part, hp, hc⟩
  · rintro h c ⟨part, hp, hc⟩
    exact h part hp c hc

/-- The clauses of all rules hold exactly when the assignment keeps the rules. -/
theorem satisfies_rules {s : Size} {diagonal : Bool} {σ : Assignment} :
    Satisfies σ (ClauseSet.rules s diagonal).clauses ↔ σ.KeepsRules s diagonal := by
  simp only [ClauseSet.rules, satisfies_ofParts, ClauseSet.allParts, List.mem_cons,
    List.not_mem_nil, or_false, forall_eq_or_imp, forall_eq, Part.says_board, Part.says_twins]
  constructor
  · rintro ⟨⟨hcellA, hhouseA⟩, ⟨hcellB, hhouseB⟩, htwin⟩
    refine ⟨fun c hc => ?_, fun g => ?_, fun c hc d hd => ?_⟩
    · cases hg : c.board with
      | a => exact hcellA c hc hg
      | b => exact hcellB c hc hg
    · cases g with
      | a => exact hhouseA
      | b => exact hhouseB
    · cases hg : c.board with
      | a => exact htwin c hc hg d hd
      | b =>
        have := htwin c.twin hc (by simp [Cell.twin, hg, Board.other]) d hd
        rwa [Cell.twin_twin, and_comm] at this
  · intro h
    exact ⟨⟨fun c hc _ => h.cell c hc, h.house .a⟩, ⟨fun c hc _ => h.cell c hc, h.house .b⟩,
      fun c hc _ => h.twin c hc⟩

end TwinSudoku
