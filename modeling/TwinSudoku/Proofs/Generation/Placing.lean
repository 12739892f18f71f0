import Mathlib.Data.List.Induction
import TwinSudoku.Proofs.Generation.Seeding
import TwinSudoku.Proofs.Numbering.Writing
import TwinSudoku.Proofs.Pair.Changes

/-!
# Random placements on tables that are kept

A search makes a new pair of every set of placements. Here the same draws are made with one pair of
tables that is kept from set to set. It is cleared first, whatever it held. Then numbers are drawn
for a board, a row, a column and a digit; the digit is stored where the position allows it, over the
one that is there, and its literal is put behind the literals before. Placements may repeat or
contradict one another, so the tables hold less than the literals say.

* `Slate.fill`: the draws and the changes of the tables. `Slate.fill_board` says that nothing is
  refused and that the literals and the tables are those of the placements drawn.
* `Size.LastMeans`: the last of some literals that speak of a cell says that it holds the digit.
* `Pair.lastMeans_iff_digit`: a pair made of placements holds what their last literals say.
* `Pair.literals_ofPlacements_subset`, `Pair.literals_ofPlacements_of_holds`: the literals of that
  pair are among those of the placements, and are all of them if some pair has all placements.
* `Slate.fill_keeps_step`: from these, the literals and the tables after any draws.
-/

namespace TwinSudoku

/-! ## Draws and changes -/

theorem Size.side_succ_pos (s : Size) : 0 < s.side + 1 := s.side.succ_pos

/-- Tables that are written again and again, and the dice. -/
structure Slate (ρ : Type) where
  tables : Boards
  random : ρ

namespace Slate

variable {ρ α : Type} (dice : Random.Dice ρ) (s : Size)

/-- A number below `n`. -/
def drawBelow (n : Nat) (h : 0 < n) : Run (Slate ρ) Refusal Nat := fun slate =>
  let (drawn, random) := (dice.draw n h).run slate.random
  (.ok drawn.val, { slate with random })

/-- An operation on the tables. -/
def make (change : Change) : Run (Slate ρ) Refusal Unit := fun slate =>
  let (outcome, tables) := change.carryOut s slate.tables
  (outcome, { slate with tables })

/-- A result, unless it is refused. -/
def unlessRefused (result : Except Misuse α) : Run (Slate ρ) Refusal α :=
  match result with
  | .ok a => pure a
  | .error cause => throw (.misuse cause)

/-- Stores a random digit in a random cell and gives its literal. -/
def place : Run (Slate ρ) Refusal Int := do
  let board ← unlessRefused (Board.ofIndex (← drawBelow dice 2 Nat.two_pos))
  let row ← drawBelow dice s.side s.side_pos
  let col ← drawBelow dice s.side s.side_pos
  let less ← drawBelow dice s.side s.side_pos
  make s (.set ⟨board, row, col⟩ (1 + less))
  unlessRefused (s.asserted ⟨board, row, col⟩ (1 + less))

def placeMany : (n : Nat) → Run (Slate ρ) Refusal (List Int)
  | 0 => return []
  | n + 1 => do
    let literal ← place dice s
    let rest ← placeMany n
    return literal :: rest

/-- Clears the tables, then stores from as many random digits as a board has rows to twice as
many. -/
def fill : Run (Slate ρ) Refusal (List Int) := do
  make s .clearAll
  let more ← drawBelow dice (s.side + 1) s.side_succ_pos
  placeMany dice s (s.side + more)

end Slate

/-- The last of the literals that speak of the cell says that it holds the digit. -/
def Size.LastMeans (s : Size) (literals : List Int) (c : Cell) (d : Nat) : Prop :=
  ∃ before l after, literals = before ++ l :: after ∧ s.meaningOf l.toNat = .ok (c, d) ∧
    ∀ m ∈ after, ∀ e, s.meaningOf m.toNat ≠ .ok (c, e)

/-! ## Single placements -/

namespace Placement

variable {s : Size} (placement : Placement s)

theorem digit_mem : placement.digit ∈ s.digits :=
  Size.mem_digits.2 ⟨placement.one_le, placement.le_side⟩

theorem asserted_eq : s.asserted placement.cell placement.digit = .ok placement.literal :=
  Size.asserted_of_inside placement.inside placement.digit_mem

theorem set_eq (p : Pair s) : p.set placement.cell placement.digit = .ok (p.place placement) := by
  rw [Pair.set, dif_pos ⟨placement.one_le, placement.le_side⟩, dif_pos placement.inside, Pair.place]

/-- The literal of a placement speaks of its cell and its digit. -/
theorem meaningOf_literal :
    s.meaningOf placement.literal.toNat = .ok (placement.cell, placement.digit) :=
  Size.variableOf_eq_ok_iff_meaningOf.1
    (Size.variableOf_eq_ok_iff.2 ⟨placement.inside, placement.digit_mem, rfl⟩)

theorem literal_bounds : 1 ≤ placement.literal ∧ placement.literal ≤ 2 * (s.k : Int) ^ 6 := by
  obtain ⟨hpos, hle⟩ := Size.hasVariable_number placement.inside placement.digit_mem
  rw [Size.variableCount_eq] at hle
  exact ⟨Int.ofNat_le.2 hpos, (Int.ofNat_le.2 hle).trans_eq (by push_cast; rfl)⟩

end Placement

/-! ## The tables after the draws -/

namespace Slate

variable {ρ : Type} (dice : Random.Dice ρ) {s : Size} {p q : Pair s} {random : ρ}

theorem make_of_ok {change : Change} (h : change.apply p = .ok q) :
    make s change ⟨p.board, random⟩ = (.ok (), ⟨q.board, random⟩) := by
  rw [make, Change.carryOut_eq_settled, h]
  rfl

theorem drawBelow_apply {n : Nat} (h : 0 < n) (slate : Slate ρ) :
    drawBelow dice n h slate = (.ok (dice.below n h slate.random).1.val,
      ⟨slate.tables, (dice.below n h slate.random).2⟩) := rfl

theorem unlessRefused_of_ok {α : Type} {result : Except Misuse α} {a : α} (h : result = .ok a)
    (slate : Slate ρ) : unlessRefused result slate = (.ok a, slate) := by
  rw [h]
  rfl

theorem ofIndex_two :
    ∀ i : Fin 2, Board.ofIndex i.val = .ok (if i.val = 0 then .a else .b)
  | 0 => rfl
  | 1 => rfl

/-- One draw stores the digit of a placement and gives its literal. -/
theorem place_board (p : Pair s) (random : ρ) :
    place dice s ⟨p.board, random⟩ =
      let (placement, random) := Placement.draw dice s random
      (.ok placement.literal, ⟨(p.place placement).board, random⟩) := by
  let placement := (Placement.draw dice s random).1
  have hset : (Change.set placement.cell placement.digit).apply p = .ok (p.place placement) := by
    rw [Change.apply, placement.set_eq]
    rfl
  rw [place, Run.bind_of_ok (drawBelow_apply dice _ _),
    Run.bind_of_ok (unlessRefused_of_ok (ofIndex_two _) _),
    Run.bind_of_ok (drawBelow_apply dice _ _), Run.bind_of_ok (drawBelow_apply dice _ _),
    Run.bind_of_ok (drawBelow_apply dice _ _)]
  -- the numbers drawn are those of the placement
  refine (Run.bind_of_ok (make_of_ok hset) _).trans ?_
  exact unlessRefused_of_ok placement.asserted_eq _

theorem placeMany_board (n : Nat) (p : Pair s) (random : ρ) :
    placeMany dice s n ⟨p.board, random⟩ =
      let (placements, random) := Placement.drawMany dice s n random
      (.ok (placements.map Placement.literal),
        ⟨(placements.foldl Pair.place p).board, random⟩) := by
  induction n generalizing p random with
  | zero => rfl
  | succ n ih =>
    rw [placeMany, Run.bind_of_ok (place_board dice p random), Run.bind_of_ok (ih _ _)]
    rfl

theorem fill_board (p : Pair s) (random : ρ) :
    fill dice s ⟨p.board, random⟩ =
      let (placements, random) := Placement.drawSet dice s random
      (.ok (placements.map Placement.literal), ⟨(Pair.ofPlacements placements).board, random⟩) := by
  rw [fill, Run.bind_of_ok (make_of_ok rfl)]
  exact placeMany_board dice _ _ _

end Slate

/-! ## The last literal of a cell -/

namespace Size

variable {s : Size} {literals : List Int} {l : Int} {c : Cell} {d : Nat}

theorem not_lastMeans_nil : ¬ s.LastMeans [] c d := by
  rintro ⟨before, l, after, heq, -⟩
  exact List.append_ne_nil_of_right_ne_nil before (List.cons_ne_nil l after) heq.symm

/-- One more literal is the last one of the cell that it speaks of, and of no other cell. -/
theorem lastMeans_concat : s.LastMeans (literals ++ [l]) c d ↔
    s.meaningOf l.toNat = .ok (c, d) ∨
      (∀ e, s.meaningOf l.toNat ≠ .ok (c, e)) ∧ s.LastMeans literals c d := by
  constructor
  · rintro ⟨before, m, after, heq, hm, hafter⟩
    cases after using List.reverseRecOn with
    | nil =>
      obtain ⟨-, rfl⟩ := List.append_singleton_inj.1 heq
      exact .inl hm
    | append_singleton after n =>
      rw [← List.cons_append, ← List.append_assoc] at heq
      obtain ⟨rfl, rfl⟩ := List.append_singleton_inj.1 heq
      rw [List.forall_mem_append, List.forall_mem_singleton] at hafter
      exact .inr ⟨hafter.2, before, m, after, rfl, hm, hafter.1⟩
  · rintro (hl | ⟨hl, before, m, after, rfl, hm, hafter⟩)
    · exact ⟨literals, l, [], rfl, hl, nofun⟩
    · refine ⟨before, m, after ++ [l], by simp, hm, ?_⟩
      rw [List.forall_mem_append, List.forall_mem_singleton]
      exact ⟨hafter, hl⟩

theorem exists_lastMeans_iff : (∃ d, s.LastMeans literals c d) ↔
    ∃ l ∈ literals, ∃ d, s.meaningOf l.toNat = .ok (c, d) := by
  constructor
  · rintro ⟨d, before, l, after, rfl, hl, -⟩
    exact ⟨l, by simp, d, hl⟩
  · rintro ⟨l, hl, d, hmeans⟩
    induction literals using List.reverseRecOn with
    | nil => cases hl
    | append_singleton rest m ih =>
      by_cases hm : ∃ e, s.meaningOf m.toNat = .ok (c, e)
      · obtain ⟨e, he⟩ := hm
        exact ⟨e, lastMeans_concat.2 (.inl he)⟩
      · rcases List.mem_append.1 hl with hl | hl
        · obtain ⟨e, he⟩ := ih hl
          exact ⟨e, lastMeans_concat.2 (.inr ⟨not_exists.1 hm, he⟩)⟩
        · rw [List.mem_singleton.1 hl] at hmeans
          exact absurd ⟨d, hmeans⟩ hm

end Size

namespace Pair

variable {s : Size} {placements : List (Placement s)} {c : Cell} {d : Nat}

/-- One more placement changes its cell and no other. -/
theorem digit_ofPlacements_concat (placements : List (Placement s)) (placement : Placement s)
    (c : Cell) : (ofPlacements (placements ++ [placement])).digit c =
      if c = placement.cell then placement.digit else (ofPlacements placements).digit c := by
  rw [ofPlacements, List.foldl_concat, ← ofPlacements, place, digit_put]

/-- A cell of a pair made of placements holds what the last literal of the cell says, and nothing
where no literal speaks of it. -/
theorem lastMeans_iff_digit : s.LastMeans (placements.map Placement.literal) c d ↔
    d ≠ 0 ∧ (ofPlacements placements).digit c = d := by
  induction placements using List.reverseRecOn with
  | nil =>
    rw [ofPlacements, List.foldl_nil, digit_empty]
    exact ⟨fun h => absurd h Size.not_lastMeans_nil, fun h => absurd h.2.symm h.1⟩
  | append_singleton rest placement ih =>
    rw [List.map_append, List.map_singleton, Size.lastMeans_concat, ih, digit_ofPlacements_concat,
      placement.meaningOf_literal]
    simp only [Except.ok.injEq, Prod.mk.injEq, ne_eq]
    by_cases hc : c = placement.cell
    · rw [if_pos hc]
      constructor
      · rintro (⟨-, rfl⟩ | ⟨hnone, -⟩)
        · exact ⟨Nat.ne_of_gt placement.one_le, rfl⟩
        · exact absurd ⟨hc.symm, rfl⟩ (hnone placement.digit)
      · rintro ⟨-, rfl⟩
        exact .inl ⟨hc.symm, rfl⟩
    · rw [if_neg hc]
      constructor
      · rintro (⟨hcell, -⟩ | ⟨-, hrest⟩)
        · exact absurd hcell.symm hc
        · exact hrest
      · intro hrest
        exact .inr ⟨fun e he => hc he.1.symm, hrest⟩

theorem digit_ofPlacements_ne_zero_iff : (ofPlacements placements).digit c ≠ 0 ↔
    ∃ l ∈ placements.map Placement.literal, ∃ d, s.meaningOf l.toNat = .ok (c, d) := by
  rw [← Size.exists_lastMeans_iff]
  constructor
  · intro hc
    exact ⟨_, lastMeans_iff_digit.2 ⟨hc, rfl⟩⟩
  · rintro ⟨d, hd⟩
    obtain ⟨hne, rfl⟩ := lastMeans_iff_digit.1 hd
    exact hne

/-- What a pair made of placements holds is one of them. -/
theorem exists_placement (hc : (ofPlacements placements).digit c ≠ 0) :
    ∃ placement ∈ placements,
      placement.cell = c ∧ placement.digit = (ofPlacements placements).digit c := by
  obtain ⟨before, l, after, heq, hl, -⟩ := lastMeans_iff_digit.2 ⟨hc, rfl⟩
  have hmem : l ∈ placements.map Placement.literal := by
    rw [heq]
    simp
  obtain ⟨placement, hplacement, rfl⟩ := List.mem_map.1 hmem
  rw [placement.meaningOf_literal, Except.ok.injEq, Prod.mk.injEq] at hl
  exact ⟨placement, hplacement, hl⟩

theorem literals_ofPlacements_subset :
    (ofPlacements placements).literals s ⊆ placements.map Placement.literal := by
  intro l hl
  obtain ⟨c, hc, rfl⟩ := mem_literals.1 hl
  obtain ⟨placement, hmem, rfl, hdigit⟩ := exists_placement hc
  rw [← hdigit]
  exact List.mem_map_of_mem hmem

/-- Placements that some pair has all are not in each other's way. -/
theorem literals_ofPlacements_of_holds {q : Pair s} (hq : q.Holds placements) :
    placements.map Placement.literal ⊆ (ofPlacements placements).literals s := by
  intro l hl
  obtain ⟨placement, hmem, rfl⟩ := List.mem_map.1 hl
  have hc : (ofPlacements placements).digit placement.cell ≠ 0 :=
    digit_ofPlacements_ne_zero_iff.2 ⟨_, hl, _, placement.meaningOf_literal⟩
  obtain ⟨last, hlast, hcell, hdigit⟩ := exists_placement hc
  have hsame : last.digit = placement.digit := by
    rw [← hq last hlast, ← hq placement hmem, hcell]
  refine mem_literals.2 ⟨placement.cell, hc, ?_⟩
  rw [← hdigit, hsame, Placement.literal]

end Pair

/-! ## Any draws -/

namespace Placement

variable {ρ : Type} (dice : Random.Dice ρ) (s : Size)

theorem length_drawMany (n : Nat) (random : ρ) : (drawMany dice s n random).1.length = n := by
  induction n generalizing random with
  | zero => rfl
  | succ n ih => exact congrArg (· + 1) (ih (draw dice s random).2)

theorem length_drawSet (random : ρ) : s.side ≤ (drawSet dice s random).1.length ∧
    (drawSet dice s random).1.length ≤ 2 * s.side := by
  have hmore := (dice.below (s.side + 1) s.side_succ_pos random).1.isLt
  have hlength : (drawSet dice s random).1.length = s.side +
      (dice.below (s.side + 1) s.side_succ_pos random).1.val := length_drawMany dice s _ _
  omega

end Placement

namespace Slate

variable {ρ : Type}

/-- Whatever is drawn and whatever the tables of a pair hold, nothing is refused, and there are from
as many literals as a board has rows to twice as many, each the variable of a digit in a cell.
Nothing of what the tables held is left: a cell is filled exactly where one of the literals speaks
of it, with the digit of the last one. So the literals of the new tables are among them, and they
are the same, up to order and repetitions, when some pair makes them all true. -/
theorem fill_keeps_step (dice : Random.Dice ρ) (s : Size) (previous : Pair s) (random : ρ) :
    let placements := (Placement.drawSet dice s random).1
    let literals := placements.map Placement.literal
    let working := Pair.ofPlacements placements
    fill dice s ⟨previous.board, random⟩ =
        (.ok literals, ⟨working.board, (Placement.drawSet dice s random).2⟩) ∧
      (s.k ^ 2 ≤ literals.length ∧ literals.length ≤ 2 * s.k ^ 2) ∧
      (∀ l ∈ literals, 1 ≤ l ∧ l ≤ 2 * s.k ^ 6) ∧
      (∀ c, working.digit c ≠ 0 ↔ ∃ l ∈ literals, ∃ d, s.meaningOf l.toNat = .ok (c, d)) ∧
      (∀ c d, s.LastMeans literals c d ↔ d ≠ 0 ∧ working.digit c = d) ∧
      ∃ givens, s.givens working = .ok givens ∧ givens ⊆ literals ∧
        ∀ q : Pair s, Meets q.assignment literals → ∀ l, l ∈ givens ↔ l ∈ literals := by
  intro placements literals working
  refine ⟨fill_board dice previous random, ?_, ?_, fun c => Pair.digit_ofPlacements_ne_zero_iff,
    fun c d => Pair.lastMeans_iff_digit, working.literals s,
    Pair.givens_of_fitsIn working.fitsIn_self, Pair.literals_ofPlacements_subset, ?_⟩
  · have hside : s.k ^ 2 = s.side := Nat.pow_two s.k
    rw [List.length_map, hside]
    exact Placement.length_drawSet dice s random
  · exact List.forall_mem_map.2 fun placement _ => placement.literal_bounds
  · intro q hq l
    have hholds : q.Holds placements :=
      (Pair.meets_placements placements q.encodedBy_assignment).1 hq
    constructor
    · apply Pair.literals_ofPlacements_subset
    · apply Pair.literals_ofPlacements_of_holds hholds

/-- Four placements that a solution has, two of which are the same, on the tables of that
solution. -/
theorem fill_keeps_step_repeated :
    let placements := (Placement.drawSet Random.streamDice .small (.ofSeed 5)).1
    let literals := placements.map Placement.literal
    let working := Pair.ofPlacements placements
    Meets Pair.small.assignment literals ∧
      (fill Random.streamDice .small ⟨Pair.small.board, .ofSeed 5⟩).1 = .ok literals ∧
      literals.length = 4 ∧ working.filledCount = 3 ∧
      ∃ givens, Size.small.givens working = .ok givens ∧ ∀ l, l ∈ givens ↔ l ∈ literals := by
  intro placements literals working
  obtain ⟨hfill, -, -, -, -, givens, hgivens, -, hequal⟩ :=
    fill_keeps_step Random.streamDice .small Pair.small (.ofSeed 5)
  have hdrawn : Meets Pair.small.assignment literals ∧
      literals.length = 4 ∧ working.filledCount = 3 := by
    decide +kernel
  exact ⟨hdrawn.1, congrArg Prod.fst hfill, hdrawn.2.1, hdrawn.2.2, givens, hgivens,
    hequal Pair.small hdrawn.1⟩

end Slate

end TwinSudoku
