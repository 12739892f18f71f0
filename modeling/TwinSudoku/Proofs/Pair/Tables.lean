import Mathlib.Data.List.Enum
import TwinSudoku.Pair.Table

/-!
# Pairs and their rows

A pair is given by the rows of its boards. Tables of the right shape are the rows of just one pair,
and all others have a defect.

* `Pair.IsRow`, `Pair.IsBoard`: the shape of a board, and the values it may hold.
* `Pair.boardDefect?_eq_none_iff`: just the tables without a defect have this shape.
* `Pair.getElem?_board`: what the rows hold at the position of a cell.
* `Pair.ofBoards_eq_ok_iff`, `Pair.ofRows_eq_ok_iff`: the pair made from rows is the one that has
  them.
* `Pair.ofRows_eq`: the first defect of stacked rows, in one pass over all of them.
-/

namespace TwinSudoku.Pair

variable {s : Size}

/-! ## The shape of a board -/

/-- The values of a row: as many as a board has columns, each of them a digit or zero. -/
def IsRow (s : Size) (values : List Nat) : Prop := values.length = s.side ∧ ∀ v ∈ values, v ≤ s.side

/-- The rows of a board: as many as it has digits. -/
def IsBoard (s : Size) (rows : List (List Nat)) : Prop :=
  rows.length = s.side ∧ ∀ values ∈ rows, IsRow s values

/-- The defect of a value, by its column. -/
def valueDefect? (s : Size) (row : Nat) : Nat × Nat → Option InputError
  | (value, col) => if s.side < value then some (.digitOutOfRange row col value s.side) else none

/-- A row with the right number of values has no defect but those of its values. -/
theorem rowDefect?_of_length {row : Nat} {values : List Nat} (h : values.length = s.side) :
    rowDefect? s row values = values.zipIdx.findSome? (valueDefect? s row) := by
  rw [rowDefect?, if_neg (by simp [h])]
  rfl

theorem rowDefect?_eq_none_iff {row : Nat} {values : List Nat} :
    rowDefect? s row values = none ↔ IsRow s values := by
  by_cases hlen : values.length = s.side
  · rw [rowDefect?_of_length hlen, List.findSome?_eq_none_iff, List.forall_mem_zipIdx, IsRow,
      and_iff_right hlen]
    simp [valueDefect?, List.forall_mem_iff_getElem]
  · simp [rowDefect?, IsRow, hlen]

/-- The first defect of rows that are counted from `offset`. -/
def firstRowDefect? (s : Size) (offset : Nat) (rows : List (List Nat)) : Option InputError :=
  (rows.zipIdx offset).findSome? fun (values, row) => rowDefect? s row values

theorem firstRowDefect?_append (offset : Nat) (rows more : List (List Nat)) :
    firstRowDefect? s offset (rows ++ more) =
      (firstRowDefect? s offset rows).or (firstRowDefect? s (offset + rows.length) more) := by
  rw [firstRowDefect?, List.zipIdx_append, List.findSome?_append, firstRowDefect?, firstRowDefect?]

theorem firstRowDefect?_eq_none_iff {offset : Nat} {rows : List (List Nat)} :
    firstRowDefect? s offset rows = none ↔ ∀ values ∈ rows, IsRow s values := by
  rw [firstRowDefect?, List.findSome?_eq_none_iff, List.forall_mem_zipIdx]
  simp only [rowDefect?_eq_none_iff, List.forall_mem_iff_getElem]

/-- A board with the right number of rows has no defect but those of its rows. -/
theorem boardDefect?_of_length {offset : Nat} {rows : List (List Nat)} (h : rows.length = s.side) :
    boardDefect? s offset rows = firstRowDefect? s offset rows := by
  rw [boardDefect?, if_neg (by simp [h]), firstRowDefect?, @List.zipIdx_eq_map_add _ rows offset,
    List.findSome?_map]
  rfl

theorem boardDefect?_eq_none_iff {offset : Nat} {rows : List (List Nat)} :
    boardDefect? s offset rows = none ↔ IsBoard s rows := by
  by_cases hlen : rows.length = s.side
  · rw [boardDefect?_of_length hlen, firstRowDefect?_eq_none_iff, IsBoard, and_iff_right hlen]
  · simp [boardDefect?, IsBoard, hlen]

/-! ## Rows of a pair -/

theorem length_board (p : Pair s) (g : Board) : (p.board g).length = s.side := by
  simp [board]

theorem getElem?_board (p : Pair s) {c : Cell} (hc : c.Inside s) :
    ((p.board c.board)[c.row]?.bind (·[c.col]?)) = some (p.digit c) := by
  have hrow := hc.1
  have hcol := hc.2
  simp [board, hrow, hcol]

theorem isBoard_board (p : Pair s) (g : Board) : IsBoard s (p.board g) := by
  refine ⟨p.length_board g, fun values hvalues => ?_⟩
  obtain ⟨r, _, rfl⟩ := List.mem_map.1 hvalues
  refine ⟨by simp, fun v hv => ?_⟩
  obtain ⟨k, _, rfl⟩ := List.mem_map.1 hv
  exact p.digit_le _

theorem isRow_of_mem_rows {p : Pair s} {values : List Nat} (h : values ∈ p.rows) :
    IsRow s values :=
  (List.mem_append.1 h).elim ((p.isBoard_board .a).2 values) ((p.isBoard_board .b).2 values)

theorem length_rows (p : Pair s) : p.rows.length = 2 * s.side := by
  rw [rows, List.length_append, length_board, length_board, Nat.two_mul]

theorem ext_board {p q : Pair s} (h : ∀ g, p.board g = q.board g) : p = q := by
  refine ext_digit fun c hc => ?_
  have hget := p.getElem?_board hc
  rw [h, q.getElem?_board hc] at hget
  exact (Option.some.inj hget).symm

/-! ## Pairs from rows -/

theorem board_ofView {view : Cell → Nat} {g : Board} {rows : List (List Nat)} (h : IsBoard s rows)
    (hview : ∀ r k, view ⟨g, r, k⟩ = (rows[r]?.bind (·[k]?)).getD 0) :
    (ofView s view).board g = rows := by
  apply List.ext_getElem
  · rw [length_board, h.1]
  · intro r hr hr'
    obtain ⟨hlen, hle⟩ := h.2 rows[r] (List.getElem_mem hr')
    apply List.ext_getElem
    · simp [board, hlen]
    · intro k hk hk'
      have hin : (Cell.mk g r k).Inside s := ⟨h.1 ▸ hr', hlen ▸ hk'⟩
      have hvalue : view ⟨g, r, k⟩ = rows[r][k] := by
        simp [hview, hr', hk']
      have hdigit : (ofView s view).digit ⟨g, r, k⟩ = rows[r][k] := by
        rw [digit_ofView hin (hvalue ▸ hle _ (List.getElem_mem hk')), hvalue]
      simpa [board] using hdigit

/-- The pair made from the rows of two boards is the pair that has them. -/
theorem ofBoards_eq_ok_iff {a b : List (List Nat)} {p : Pair s} :
    ofBoards s a b = .ok p ↔ p.board .a = a ∧ p.board .b = b := by
  have hboards (ha : IsBoard s a) (hb : IsBoard s b) :
      (ofView s (tableView a b)).board .a = a ∧ (ofView s (tableView a b)).board .b = b :=
    ⟨board_ofView ha fun _ _ => rfl, board_ofView hb fun _ _ => rfl⟩
  constructor
  · intro h
    rw [ofBoards] at h
    split at h
    · cases h
    · next hdefect =>
      obtain ⟨ha, hb⟩ := Option.or_eq_none_iff.1 hdefect
      cases h
      exact hboards (boardDefect?_eq_none_iff.1 ha) (boardDefect?_eq_none_iff.1 hb)
  · rintro ⟨rfl, rfl⟩
    have ha := p.isBoard_board .a
    have hb := p.isBoard_board .b
    rw [ofBoards, boardDefect?_eq_none_iff.2 ha, boardDefect?_eq_none_iff.2 hb]
    obtain ⟨hboard, hboard'⟩ := hboards ha hb
    exact congrArg Except.ok (ext_board fun g => by cases g <;> assumption)

theorem ofBoards_eq_error_iff {a b : List (List Nat)} {defect : InputError} :
    ofBoards s a b = .error defect ↔
      (boardDefect? s 0 a).or (boardDefect? s s.side b) = some defect := by
  rw [ofBoards]
  cases (boardDefect? s 0 a).or (boardDefect? s s.side b) with
  | none => exact ⟨nofun, nofun⟩
  | some found => exact ⟨fun h => by cases h; rfl, fun h => by cases h; rfl⟩

theorem ofRows_eq_ok_iff {rows : List (List Nat)} {p : Pair s} :
    ofRows s rows = .ok p ↔ p.rows = rows := by
  constructor
  · intro h
    rw [ofRows] at h
    split at h
    · cases h
    · obtain ⟨ha, hb⟩ := ofBoards_eq_ok_iff.1 h
      rw [Pair.rows, ha, hb, List.take_append_drop]
  · rintro rfl
    have hlen := p.length_rows
    rw [ofRows, if_neg (by simp [hlen]), ofBoards_eq_ok_iff, Pair.rows,
      List.take_left' (p.length_board .a), List.drop_left' (p.length_board .a)]
    exact ⟨rfl, rfl⟩

/-! ## Defects of stacked rows -/

/-- The first defect of stacked rows: their number, and then the rows from the top. -/
def rowsDefect? (s : Size) (rows : List (List Nat)) : Option InputError :=
  if rows.length ≠ 2 * s.side then some (.rowCount (2 * s.side) rows.length)
  else firstRowDefect? s 0 rows

/-- Stacked rows are rejected for the first of their defects. -/
theorem ofRows_eq (rows : List (List Nat)) :
    ofRows s rows = (rowsDefect? s rows).elim
      (.ok (ofView s (tableView (rows.take s.side) (rows.drop s.side)))) .error := by
  rw [ofRows, rowsDefect?]
  split
  · rfl
  · next hlen =>
    rw [ne_eq, Decidable.not_not] at hlen
    have htake : (rows.take s.side).length = s.side := by rw [List.length_take]; omega
    have hdrop : (rows.drop s.side).length = s.side := by rw [List.length_drop]; omega
    have hdefects : firstRowDefect? s 0 rows =
        (boardDefect? s 0 (rows.take s.side)).or (boardDefect? s s.side (rows.drop s.side)) := by
      rw [boardDefect?_of_length htake, boardDefect?_of_length hdrop]
      conv => lhs; rw [← List.take_append_drop s.side rows]
      rw [firstRowDefect?_append, htake, Nat.zero_add]
    rw [hdefects, ofBoards]
    split <;> simp only [*, Option.elim]

theorem ofRows_eq_error_iff {rows : List (List Nat)} {defect : InputError} :
    ofRows s rows = .error defect ↔ rowsDefect? s rows = some defect := by
  rw [ofRows_eq]
  cases rowsDefect? s rows with
  | none => exact ⟨nofun, nofun⟩
  | some found => exact ⟨fun h => by cases h; rfl, fun h => by cases h; rfl⟩

/-- Stacked rows of the right shape are those of a pair. -/
theorem exists_ofRows_eq_ok {rows : List (List Nat)} (hlen : rows.length = 2 * s.side)
    (h : ∀ values ∈ rows, IsRow s values) : ∃ p : Pair s, ofRows s rows = .ok p := by
  rw [ofRows_eq, rowsDefect?, if_neg (by simp [hlen]), firstRowDefect?_eq_none_iff.2 h]
  exact ⟨_, rfl⟩

end TwinSudoku.Pair
