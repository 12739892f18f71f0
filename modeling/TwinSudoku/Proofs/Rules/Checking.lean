import TwinSudoku.Proofs.Pair.Changes

/-!
# The check on tables

`Pair.isSolution` counts the cells of each house that hold a digit, and a pair has every cell that
it is asked for. Here the check is made on two tables of numbers, of which nothing is known: it
counts what is not zero, sorts the values of each house and compares them with the digits, and then
goes through both tables side by side. A position that the tables do not have ends it.

* `Boards.checkRules`: the check, with the houses in the order in which they are looked at.
* `House.blockByRows_eq`: going through a block row by row meets the cells of the block.
* `Pair.listsDigits_house`: what is sorted into the digits holds each of them once.
* `Pair.checkRules_board`: on the tables of a pair every position is there, and the answer is that
  of `Pair.isSolution`.
* `Pair.check_decides_rules`: the check accepts the pairs that keep the rules, said of two cells at
  a time, and no others.
-/

namespace TwinSudoku

/-- The cells of a block, column by column in each of its rows. -/
def House.blockByRows (s : Size) (g : Board) (b : Nat) : List Cell :=
  (List.range s.k).flatMap fun r => (List.range s.k).map fun c =>
    ⟨g, b / s.k * s.k + r, b % s.k * s.k + c⟩

/-- The values are the digits in some order. -/
def Size.listsDigits (s : Size) (values : List Nat) : Bool :=
  values.mergeSort (fun v w => decide (v ≤ w)) == s.digits

namespace Boards

section Check

variable (s : Size) (diagonal : Bool) (t : Boards)

/-- The value at a position that the tables have. -/
def read (c : Cell) : Except Misuse Nat :=
  match t.value? c with
  | some v => .ok v
  | none => .error .beyondBoards

/-- A row that the tables have, whatever its length. -/
def readRow (g : Board) (r : Nat) : Except Misuse (List Nat) :=
  match (t g)[r]? with
  | some values => .ok values
  | none => .error .beyondBoards

/-- The values of the houses of a board, in the order in which they are looked at. -/
def readHouses (g : Board) : List (Except Misuse (List Nat)) :=
  ((List.range s.side).flatMap fun i =>
    [t.readRow g i, (House.column s g i).mapM t.read, (House.blockByRows s g i).mapM t.read]) ++
  if diagonal then [(House.falling s g).mapM t.read, (House.rising s g).mapM t.read] else []

/-- Checks the tables against all rules. The first rule that is broken ends the check. -/
def checkRules : Except Misuse Bool := do
  if (t .a ++ t .b).flatten.countP (· != 0) != 2 * s.area then return false
  let proper ← Board.all.allM fun g =>
    (t.readHouses s diagonal g).allM fun values => values.map s.listsDigits
  if !proper then return false
  return ((t .a).flatten.zip (t .b).flatten).all fun (v, w) => v != w

end Check

end Boards

/-! ## Houses -/

namespace House

variable {s : Size} {g : Board} {diagonal : Bool}

theorem blockByRows_eq (s : Size) (g : Board) (b : Nat) : blockByRows s g b = block s g b := by
  rw [block, Size.side, range_mul, List.map_flatMap, blockByRows]
  refine List.flatMap_congr fun r _ => ?_
  rw [List.map_map]
  refine List.map_congr_left fun c hc => ?_
  have hc := List.mem_range.1 hc
  rw [Function.comp_apply, Size.pack_div hc, Size.pack_mod hc]

/-- The houses of a board in the order in which they are looked at. -/
def inTurn (s : Size) (diagonal : Bool) (g : Board) : List (List Cell) :=
  ((List.range s.side).flatMap fun i => [row s g i, column s g i, block s g i]) ++
    if diagonal then [falling s g, rising s g] else []

theorem mem_inTurn {house : List Cell} :
    house ∈ inTurn s diagonal g ↔ house ∈ all s diagonal g := by
  simp only [inTurn, all, List.mem_append, List.mem_flatMap, List.mem_map, List.mem_cons,
    List.not_mem_nil, or_false, eq_comm (a := house)]
  refine or_congr_left ⟨?_, ?_⟩
  · rintro ⟨i, hi, hrow | hcolumn | hblock⟩
    · exact .inl (.inl ⟨i, hi, hrow⟩)
    · exact .inl (.inr ⟨i, hi, hcolumn⟩)
    · exact .inr ⟨i, hi, hblock⟩
  · rintro ((⟨i, hi, hrow⟩ | ⟨i, hi, hcolumn⟩) | ⟨i, hi, hblock⟩)
    · exact ⟨i, hi, .inl hrow⟩
    · exact ⟨i, hi, .inr (.inl hcolumn)⟩
    · exact ⟨i, hi, .inr (.inr hblock)⟩

end House

/-! ## Sorted values -/

namespace Size

variable {s : Size} {values : List Nat}

theorem listsDigits_iff : s.listsDigits values ↔ values.Perm s.digits := by
  rw [listsDigits, beq_iff_eq]
  constructor
  · intro h
    exact h ▸ (List.mergeSort_perm values _).symm
  · intro h
    exact List.Perm.eq_of_pairwise (fun v w _ _ => Nat.le_antisymm) (pairwise_sorted values)
      ((List.pairwise_lt_range' 1).imp Nat.le_of_lt) ((List.mergeSort_perm values _).trans h)

end Size

namespace Pair

variable {s : Size} {diagonal : Bool}

theorem listsDigits_house (p : Pair s) {house : List Cell} (h : House.Proper s house) :
    s.listsDigits (house.map p.digit) = p.holdsEach house := by
  rw [Bool.eq_iff_iff, Size.listsDigits_iff, holdsEach_iff_count,
    perm_digits_iff (by rw [List.length_map, h.length_eq])]

/-! ## The tables of a pair -/

theorem read_board (p : Pair s) {c : Cell} (hc : c.Inside s) :
    Boards.read p.board c = .ok (p.digit c) := by
  rw [Boards.read, Boards.value?_board, if_pos hc]

theorem mapM_read_board (p : Pair s) {house : List Cell} (h : House.Proper s house) :
    house.mapM (Boards.read p.board) = .ok (house.map p.digit) :=
  mapM_of_ok fun c hc => p.read_board (h.inside c hc)

theorem readRow_board (p : Pair s) (g : Board) {r : Nat} (hr : r < s.side) :
    Boards.readRow p.board g r = .ok ((House.row s g r).map p.digit) := by
  simp [Boards.readRow, board, House.row, hr, Function.comp_def]

/-- Every house of the boards is read from the tables of a pair. -/
theorem readHouses_board (p : Pair s) (diagonal : Bool) (g : Board) :
    Boards.readHouses s diagonal p.board g =
      (House.inTurn s diagonal g).map fun house => .ok (house.map p.digit) := by
  have hproper {house : List Cell} (hmem : house ∈ House.all s diagonal g) :
      house.mapM (Boards.read p.board) = .ok (house.map p.digit) :=
    p.mapM_read_board (House.proper_of_mem_all hmem)
  rw [Boards.readHouses, House.inTurn, List.map_append, List.map_flatMap]
  congr 1
  · refine List.flatMap_congr fun i hi => ?_
    have hi := List.mem_range.1 hi
    rw [p.readRow_board g hi, hproper (House.column_mem_all diagonal hi), House.blockByRows_eq,
      hproper (House.block_mem_all diagonal hi)]
    rfl
  · cases diagonal with
    | false => rfl
    | true =>
      rw [if_pos rfl, if_pos rfl, hproper (House.falling_mem_all rfl),
        hproper (House.rising_mem_all rfl)]
      rfl

theorem allM_readHouses_board (p : Pair s) (diagonal : Bool) (g : Board) :
    (Boards.readHouses s diagonal p.board g).allM (fun values => values.map s.listsDigits) =
      .ok ((House.all s diagonal g).all p.holdsEach) := by
  have hread : ∀ values ∈
      (House.inTurn s diagonal g).map (fun house => Except.ok (house.map p.digit)),
      values.map s.listsDigits = (.ok (values.toOption.any s.listsDigits) : Except Misuse Bool) :=
    List.forall_mem_map.2 fun _ _ => rfl
  rw [readHouses_board, allM_of_ok hread, List.all_map]
  refine congrArg Except.ok (Bool.eq_iff_iff.2 ?_)
  simp only [List.all_eq_true, House.mem_inTurn]
  refine forall₂_congr fun house hmem => ?_
  exact Bool.eq_iff_iff.1 (p.listsDigits_house (House.proper_of_mem_all hmem))

/-- Side by side in both tables are the values of a cell and of its twin. -/
theorem all_zip_board (p : Pair s) :
    (((p.board .a).flatten.zip (p.board .b).flatten).all fun (v, w) => v != w) = p.differs := by
  let cells (g : Board) := (List.range s.side).flatMap (House.row s g)
  have htwin : cells .b = (cells .a).map Cell.twin := by
    simp only [cells, List.map_flatMap, House.row, List.map_map]
    rfl
  have hall : Cell.all s = cells .a ++ (cells .a).map Cell.twin := by
    rw [← htwin, Cell.all_eq, Board.all, List.flatMap_cons, List.flatMap_singleton]
  -- a cell of the second board is compared with its twin again
  have hagain (c : Cell) : (p.digit c.twin != p.digit c.twin.twin) =
      (p.digit c != p.digit c.twin) := by
    rw [c.twin_twin, bne_comm]
  rw [flatten_board, flatten_board, differs, hall, List.all_append, List.all_map, Function.comp_def]
  simp only [hagain, Bool.and_self]
  change (((cells .a).map p.digit).zip ((cells .b).map p.digit)).all _ = _
  rw [htwin, List.map_map, List.zip_map', List.all_map]
  rfl

/-- On the tables of a pair no position is missing, and the answer is that of the check. -/
theorem checkRules_board (p : Pair s) (diagonal : Bool) :
    Boards.checkRules s diagonal p.board = .ok (p.isSolution diagonal) := by
  have hcount := (Boards.represents_board p).countP_values
  have hcomplete : (p.filledCount != 2 * s.area) = !p.isComplete := rfl
  rw [Boards.checkRules, hcount, hcomplete,
    allM_of_ok fun g _ => p.allM_readHouses_board diagonal g,
    p.all_zip_board, isSolution]
  cases p.isComplete with
  | false => rfl
  | true =>
    cases Board.all.all fun g => (House.all s diagonal g).all p.holdsEach <;> rfl

/-- The check finds every position that it asks for. It accepts a pair exactly when no cell is
empty, no two cells of a row, of a column, of a block or, on request, of a diagonal hold the same
digit, and no cell holds the digit of its twin. -/
theorem check_decides_rules (p : Pair s) (diagonal : Bool) :
    Boards.checkRules s diagonal p.board = .ok (p.isSolution diagonal) ∧
      (p.isSolution diagonal = true ↔ p.Solves diagonal) :=
  ⟨p.checkRules_board diagonal, isSolution_iff_solves⟩

end Pair

end TwinSudoku
