import Mathlib.Tactic.Ring
import TwinSudoku.Proofs.Clauses.Families
import TwinSudoku.Proofs.Numbering.Assignments
import TwinSudoku.Proofs.Rules.Houses

/-!
# How many clauses there are

Each family of a part consists of groups, one for every digit and house or for every cell, and each
group has one clause more than there are pairs of digits. The counts of a set of clauses are kept
clause by clause; here they are read off from the parts that were collected.

* `Part.numberOf`: the clauses of one family in a labelled list. It adds up where lists are put
  together, and `Part.numberOf_labelled` gives it for each part.
* `Part.within_labelled`: a part speaks only of the variables of cells and digits.
* `FamilyCounts.get_foldl_count`, `FamilyCounts.total_foldl_count`: counting clause by clause gives
  the number of each family, and together the number of all clauses.
* `ClauseSet.get_ofParts`: how many clauses of a family several parts have.
-/

namespace TwinSudoku

/-- The number of clauses that say that exactly one of as many literals as there are digits
holds. -/
def Size.groupClauses (s : Size) : Nat := 1 + s.side * (s.side - 1) / 2

/-- The number of clauses of the family `f` in a group of another family or the same. -/
def Size.inGroup (s : Size) (family f : Family) : Nat := if family = f then s.groupClauses else 0

namespace Part

/-! ## Counting a family -/

/-- The number of clauses of a family. -/
def numberOf (f : Family) (labelled : List Labelled) : Nat := labelled.countP (·.1 == f)

variable {s : Size} {f : Family} {diagonal : Bool} {g : Board}

@[simp] theorem numberOf_nil : numberOf f [] = 0 := rfl

@[simp] theorem numberOf_append (xs ys : List Labelled) :
    numberOf f (xs ++ ys) = numberOf f xs + numberOf f ys := List.countP_append

theorem numberOf_flatMap {α : Type} {xs : List α} {clauses : α → List Labelled} {m : Nat}
    (h : ∀ x ∈ xs, numberOf f (clauses x) = m) :
    numberOf f (xs.flatMap clauses) = xs.length * m := by
  induction xs with
  | nil => simp
  | cons x rest ih =>
    rw [List.forall_mem_cons] at h
    rw [List.flatMap_cons, numberOf_append, h.1, ih h.2, List.length_cons, Nat.succ_mul,
      Nat.add_comm]

theorem numberOf_map {α : Type} {family : Family} {clause : α → Clause} (xs : List α) :
    numberOf f (xs.map fun x => (family, clause x)) = if family = f then xs.length else 0 := by
  rw [numberOf, List.countP_map]
  split <;> simp [Function.comp_def, *]

theorem numberOf_one {family : Family} {literals : List Int} (h : literals.length = s.side) :
    numberOf f (one family literals) = s.inGroup family f := by
  rw [one, numberOf_map, length_oneHot, h, Size.inGroup, Size.groupClauses]

theorem numberOf_once {family : Family} {house : List Cell} (h : house.length = s.side) (d : Nat) :
    numberOf f (once s family house d) = s.inGroup family f :=
  numberOf_one (by rw [List.length_map, h])

/-! ## The families of a part -/

theorem numberOf_cells : numberOf f (cells s g) = s.side * (s.side * s.inGroup .cell f) := by
  have hcell (c : Cell) :
      numberOf f (one .cell (s.digits.map (holdsDigit s · c))) = s.inGroup .cell f :=
    numberOf_one (by rw [List.length_map, s.length_digits])
  have hrow (r : Nat) : numberOf f ((House.row s g r).flatMap fun c =>
      one .cell (s.digits.map (holdsDigit s · c))) = s.side * s.inGroup .cell f := by
    rw [numberOf_flatMap fun c _ => hcell c, House.row, List.length_map, List.length_range]
  rw [cells, numberOf_flatMap fun r _ => hrow r, List.length_range]

theorem numberOf_lines :
    numberOf f (lines s g) = s.side * (s.side * (s.inGroup .row f + s.inGroup .column f)) := by
  have hline (i d : Nat) : numberOf f (once s .row (House.row s g i) d ++
      once s .column (House.column s g i) d) = s.inGroup .row f + s.inGroup .column f := by
    rw [numberOf_append, numberOf_once (by simp [House.row]),
      numberOf_once (by simp [House.column])]
  rw [lines, numberOf_flatMap fun i _ => numberOf_flatMap fun d _ => hline i d,
    List.length_range, s.length_digits]

theorem numberOf_blocks : numberOf f (blocks s g) = s.side * (s.side * s.inGroup .block f) := by
  rw [blocks, numberOf_flatMap fun b _ => numberOf_flatMap fun d _ =>
    numberOf_once (by simp [House.block]) d, List.length_range, s.length_digits]

theorem numberOf_diagonals :
    numberOf f (diagonals s g) = s.side * (s.inGroup .diagonal f + s.inGroup .diagonal f) := by
  have hboth (d : Nat) : numberOf f (once s .diagonal (House.falling s g) d ++
      once s .diagonal (House.rising s g) d) = s.inGroup .diagonal f + s.inGroup .diagonal f := by
    rw [numberOf_append, numberOf_once (by simp [House.falling]),
      numberOf_once (by simp [House.rising])]
  rw [diagonals, numberOf_flatMap fun d _ => hboth d, s.length_digits]

theorem numberOf_differences :
    numberOf f (differences s) = s.side * (s.side * if .twin = f then s.side else 0) := by
  have hrow (r : Nat) : numberOf f ((House.row s .a r).flatMap fun c => s.digits.map fun d =>
      (.twin, [-holdsDigit s d c, -holdsDigit s d c.twin])) =
      s.side * if .twin = f then s.side else 0 := by
    rw [numberOf_flatMap fun c _ => numberOf_map _, House.row, List.length_map, List.length_range,
      s.length_digits]
  rw [differences, numberOf_flatMap fun r _ => hrow r, List.length_range]

/-- How many clauses of a family a part of the rules has. -/
def clausesOf (s : Size) (diagonal : Bool) : Part → Family → Nat
  | board _, .diagonal => if diagonal then 2 * s.side * s.groupClauses else 0
  | board _, .twin => 0
  | board _, _ => s.side ^ 2 * s.groupClauses
  | twins, .twin => s.side ^ 3
  | twins, _ => 0

theorem numberOf_labelled (part : Part) :
    numberOf f (part.labelled s diagonal) = part.clausesOf s diagonal f := by
  cases part with
  | board g =>
    simp only [labelled, numberOf_append, numberOf_cells, numberOf_lines, numberOf_blocks]
    cases diagonal <;> cases f <;>
      simp [clausesOf, numberOf_diagonals, Size.inGroup, Nat.pow_two, Nat.mul_assoc,
        ← Nat.two_mul, Nat.mul_left_comm]
  | twins =>
    rw [labelled, numberOf_differences]
    cases f <;> simp [clausesOf, Nat.pow_succ, Nat.mul_assoc]

/-! ## Variables -/

/-- All literals are those of variables. -/
def Within (s : Size) (labelled : List Labelled) : Prop :=
  ∀ entry ∈ labelled, ∀ l ∈ entry.2, s.HasVariable l.natAbs

theorem within_append {xs ys : List Labelled} :
    Within s (xs ++ ys) ↔ Within s xs ∧ Within s ys := List.forall_mem_append

theorem within_flatMap {α : Type} {xs : List α} {clauses : α → List Labelled}
    (h : ∀ x ∈ xs, Within s (clauses x)) : Within s (xs.flatMap clauses) := by
  intro entry hentry
  obtain ⟨x, hx, hmem⟩ := List.mem_flatMap.1 hentry
  exact h x hx entry hmem

theorem within_one {family : Family} {literals : List Int}
    (h : ∀ l ∈ literals, s.HasVariable l.natAbs) : Within s (one family literals) := by
  rw [Within, one, List.forall_mem_map]
  intro clause hclause l hl
  obtain ⟨m, hm, heq⟩ := exists_natAbs_eq_of_mem_oneHot hclause hl
  rw [heq]
  exact h m hm

theorem hasVariable_holdsDigit {c : Cell} {d : Nat} (hc : c.Inside s) (hd : d ∈ s.digits) :
    s.HasVariable (holdsDigit s d c).natAbs := Size.hasVariable_number hc hd

theorem within_once {family : Family} {house : List Cell} {d : Nat}
    (h : house ∈ House.all s diagonal g) (hd : d ∈ s.digits) :
    Within s (once s family house d) := by
  apply within_one
  rw [List.forall_mem_map]
  intro c hc
  exact hasVariable_holdsDigit ((House.proper_of_mem_all h).inside c hc) hd

/-- A part speaks only of the variables of cells and digits. -/
theorem within_labelled (part : Part) : Within s (part.labelled s diagonal) := by
  cases part with
  | board g =>
    simp only [labelled, within_append]
    refine ⟨⟨⟨?_, ?_⟩, ?_⟩, ?_⟩
    · refine within_flatMap fun r hr => within_flatMap fun c hc => within_one ?_
      have hin : c.Inside s := House.inside_of_mem_row (List.mem_range.1 hr) hc
      exact List.forall_mem_map.2 fun d hd => hasVariable_holdsDigit hin hd
    · refine within_flatMap fun i hi => within_flatMap fun d hd => within_append.2 ⟨?_, ?_⟩
      · exact within_once (House.row_mem_all diagonal (List.mem_range.1 hi)) hd
      · exact within_once (House.column_mem_all diagonal (List.mem_range.1 hi)) hd
    · refine within_flatMap fun b hb => within_flatMap fun d hd => ?_
      exact within_once (House.block_mem_all diagonal (List.mem_range.1 hb)) hd
    · cases diagonal with
      | false => simp [Within]
      | true =>
        refine within_flatMap fun d hd => within_append.2 ⟨?_, ?_⟩
        · exact within_once (House.falling_mem_all rfl) hd
        · exact within_once (House.rising_mem_all rfl) hd
  | twins =>
    refine within_flatMap fun r hr => within_flatMap fun c hc => ?_
    rw [Within, List.forall_mem_map]
    intro d hd l hl
    have hin : c.Inside s := House.inside_of_mem_row (List.mem_range.1 hr) hc
    have htwin : c.twin.Inside s := hin
    simp only [List.mem_cons, List.not_mem_nil, or_false] at hl
    rcases hl with rfl | rfl
    · rw [Int.natAbs_neg]
      exact hasVariable_holdsDigit hin hd
    · rw [Int.natAbs_neg]
      exact hasVariable_holdsDigit htwin hd

end Part

namespace FamilyCounts

/-- The number of clauses of one family. -/
def get (n : FamilyCounts) : Family → Nat
  | .cell => n.cell
  | .row => n.row
  | .column => n.column
  | .block => n.block
  | .diagonal => n.diagonal
  | .twin => n.twin

theorem ext_get {m n : FamilyCounts} (h : ∀ f, m.get f = n.get f) : m = n := by
  obtain ⟨cell, row, column, block, diagonal, twin⟩ := m
  rw [mk.injEq]
  exact ⟨h .cell, h .row, h .column, h .block, h .diagonal, h .twin⟩

theorem get_count (n : FamilyCounts) (f f' : Family) :
    (n.count f').get f = n.get f + if f' = f then 1 else 0 := by
  cases f <;> cases f' <;> rfl

theorem get_foldl_count (n : FamilyCounts) (f : Family) (labelled : List Part.Labelled) :
    (labelled.foldl (fun n clause => n.count clause.1) n).get f =
      n.get f + Part.numberOf f labelled := by
  induction labelled generalizing n with
  | nil => rfl
  | cons clause rest ih =>
    rw [List.foldl_cons, ih, get_count, Part.numberOf, Part.numberOf, List.countP_cons]
    simp only [beq_iff_eq]
    omega

/-- Every clause is of one family. -/
theorem total_foldl_count (n : FamilyCounts) (labelled : List Part.Labelled) :
    (labelled.foldl (fun n clause => n.count clause.1) n).total = n.total + labelled.length := by
  induction labelled generalizing n with
  | nil => rfl
  | cons clause rest ih =>
    have hone : (n.count clause.1).total = n.total + 1 := by
      cases clause.1 <;> simp only [count, total] <;> omega
    rw [List.foldl_cons, ih, hone, List.length_cons]
    omega

end FamilyCounts

namespace ClauseSet

variable {s : Size} {diagonal : Bool} {parts : List Part}

/-- A part puts its clauses at the end and adds their number to the count of each family. -/
theorem eq_add {set set' : ClauseSet} {part : Part}
    (hclauses : set'.clauses = set.clauses ++ part.clauses s diagonal)
    (hcounts : ∀ f, set'.counts.get f =
      set.counts.get f + Part.numberOf f (part.labelled s diagonal)) :
    set' = set.add s diagonal part := by
  have hequal : set'.counts = (set.add s diagonal part).counts := by
    refine FamilyCounts.ext_get fun f => ?_
    rw [hcounts, add, FamilyCounts.get_foldl_count]
  obtain ⟨clauses, counts⟩ := set'
  rw [mk.injEq]
  exact ⟨hclauses, hequal⟩

theorem total_ofParts :
    (ofParts s diagonal parts).counts.total = (ofParts s diagonal parts).clauses.length := by
  rw [ofParts, foldl_add, FamilyCounts.total_foldl_count]
  simp [empty, FamilyCounts.zero, FamilyCounts.total]

theorem hasVariable_of_mem_ofParts {clause : Clause} {l : Int}
    (hclause : clause ∈ (ofParts s diagonal parts).clauses) (hl : l ∈ clause) :
    s.HasVariable l.natAbs := by
  rw [clauses_ofParts] at hclause
  obtain ⟨part, _, hmem⟩ := List.mem_flatMap.1 hclause
  obtain ⟨entry, hentry, rfl⟩ := List.mem_map.1 hmem
  exact Part.within_labelled part entry hentry l hl

theorem zero_not_mem_rules (s : Size) (diagonal : Bool) :
    ∀ c ∈ (rules s diagonal).clauses, 0 ∉ c := by
  intro c hc hzero
  exact absurd (hasVariable_of_mem_ofParts hc hzero).1 (by decide)

/-- Each board and the twins add as many clauses every time. -/
theorem get_ofParts (f : Family) :
    (ofParts s diagonal parts).counts.get f =
      (parts.count (.board .a) + parts.count (.board .b)) * (Part.board .a).clausesOf s diagonal f +
        parts.count .twins * Part.twins.clausesOf s diagonal f := by
  rw [ofParts, foldl_add, FamilyCounts.get_foldl_count]
  have hzero : empty.counts.get f = 0 := by cases f <;> rfl
  rw [hzero, Nat.zero_add]
  induction parts with
  | nil => simp
  | cons part rest ih =>
    rw [List.flatMap_cons, Part.numberOf_append, ih, Part.numberOf_labelled]
    simp only [List.count_cons]
    cases part with
    | board g =>
      have hsame : (Part.board g).clausesOf s diagonal f =
          (Part.board .a).clausesOf s diagonal f := by
        cases f <;> rfl
      cases g <;> simp [hsame] <;> ring
    | twins => simp; ring

end ClauseSet

end TwinSudoku
