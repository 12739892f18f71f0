import TwinSudoku.Proofs.FirstDefect
import TwinSudoku.Proofs.Pair.Tables

/-!
# Defects of tables

Tables of numbers become a pair just if they have the shape of its boards. All others are rejected
for the first of their defects, and the defects are said here without a search for them.

* `Pair.RowDefect`, `Pair.BoardDefect`: what may be wrong with a row, and with the rows of a board.
  A wrong number of parts counts before any defect of a part (`Pair.CountFirst`).
* `Pair.TablesDefect`, `Pair.StackDefect`: the first defect of two tables, and of stacked rows.
* `Pair.rowDefect?_eq_some_iff`, `Pair.boardDefect?_eq_some_iff`: these are the defects that are
  found.
* `Pair.tables_accepted_exactly`: tables and pairs.
-/

namespace TwinSudoku.Pair

/-! ## What may be wrong -/

/-- A list of another length than it should have has the defect `wrong`. One of the right length may
have defects of its parts. -/
inductive CountFirst {α : Type} (length : Nat) (xs : List α) (wrong : InputError)
    (ofParts : InputError → Prop) : InputError → Prop
  | count (h : xs.length ≠ length) : CountFirst length xs wrong ofParts wrong
  | part {e : InputError} (hlen : xs.length = length) (h : ofParts e) :
      CountFirst length xs wrong ofParts e

variable (s : Size)

/-- What is wrong with a row: the number of its values, or else the leftmost value above the largest
digit. -/
def RowDefect (row : Nat) (values : List Nat) : InputError → Prop :=
  CountFirst s.side values (.columnCount row s.side values.length) <|
    FirstDefect (· ≤ s.side)
      (fun col v e => s.side < v ∧ e = .digitOutOfRange row col v s.side) values

/-- What is wrong with the rows of a board: their number, or else the first row that has a defect.
Rows are counted from `offset`. -/
def BoardDefect (offset : Nat) (rows : List (List Nat)) : InputError → Prop :=
  CountFirst s.side rows (.rowCount (2 * s.side) (offset + rows.length)) <|
    FirstDefect (IsRow s) (fun row => RowDefect s (offset + row)) rows

/-- What is wrong with the tables of two boards. The second one is looked at when the first one has
the shape of a board, and its rows are counted on from those of the first. -/
inductive TablesDefect (a b : List (List Nat)) : InputError → Prop
  | first {e : InputError} (h : BoardDefect s 0 a e) : TablesDefect a b e
  | second {e : InputError} (ha : IsBoard s a) (h : BoardDefect s s.side b e) : TablesDefect a b e

/-- What is wrong with stacked rows: their number, or else the first row that has a defect. -/
def StackDefect (rows : List (List Nat)) : InputError → Prop :=
  CountFirst (2 * s.side) rows (.rowCount (2 * s.side) rows.length) <|
    FirstDefect (IsRow s) (RowDefect s) rows

variable {s}

/-! ## The defects that are found -/

/-- A check of the length before a search of the parts finds what counts first. -/
theorem countFirst_iff {α : Type} {length : Nat} {xs : List α} {wrong e : InputError}
    {found : Option InputError} {ofParts : InputError → Prop}
    (h : xs.length = length → (found = some e ↔ ofParts e)) :
    (if xs.length ≠ length then some wrong else found) = some e ↔
      CountFirst length xs wrong ofParts e := by
  split
  · next hlen =>
    constructor
    · rintro ⟨⟩
      exact .count hlen
    · intro he
      cases he with
      | count => rfl
      | part hlen' => exact absurd hlen' hlen
  · next hlen =>
    rw [ne_eq, not_not] at hlen
    rw [h hlen]
    constructor
    · exact .part hlen
    · intro he
      cases he with
      | count hlen' => exact absurd hlen hlen'
      | part _ he => exact he

theorem valueDefect?_eq_none_iff {row col v : Nat} :
    valueDefect? s row (v, col) = none ↔ v ≤ s.side := by
  simp [valueDefect?]

theorem valueDefect?_eq_some_iff {row col v : Nat} {e : InputError} :
    valueDefect? s row (v, col) = some e ↔
      s.side < v ∧ e = .digitOutOfRange row col v s.side := by
  rw [valueDefect?]
  split
  · next hv => simp [hv, eq_comm]
  · next hv => simp [hv]

theorem rowDefect?_eq_some_iff {row : Nat} {values : List Nat} {e : InputError} :
    rowDefect? s row values = some e ↔ RowDefect s row values e := by
  refine countFirst_iff fun hlen => ?_
  have hfound : values.zipIdx.findSome? (valueDefect? s row) = some e ↔ _ :=
    findSome?_zipIdx_eq_some_iff (fun _ _ => valueDefect?_eq_none_iff)
      (fun _ _ _ => valueDefect?_eq_some_iff) 0
  simp only [Nat.zero_add] at hfound
  exact hfound

theorem firstRowDefect?_eq_some_iff {offset : Nat} {rows : List (List Nat)} {e : InputError} :
    firstRowDefect? s offset rows = some e ↔
      FirstDefect (IsRow s) (fun row => RowDefect s (offset + row)) rows e :=
  findSome?_zipIdx_eq_some_iff (fun _ _ => rowDefect?_eq_none_iff)
    (fun _ _ _ => rowDefect?_eq_some_iff) offset

theorem boardDefect?_eq_some_iff {offset : Nat} {rows : List (List Nat)} {e : InputError} :
    boardDefect? s offset rows = some e ↔ BoardDefect s offset rows e := by
  refine countFirst_iff fun hlen => ?_
  rw [← firstRowDefect?_eq_some_iff, ← boardDefect?_of_length hlen, boardDefect?,
    if_neg (not_not.2 hlen)]

theorem rowsDefect?_eq_some_iff {rows : List (List Nat)} {e : InputError} :
    rowsDefect? s rows = some e ↔ StackDefect s rows e := by
  refine countFirst_iff fun _ => ?_
  rw [firstRowDefect?_eq_some_iff]
  simp only [Nat.zero_add]

/-! ## Tables and pairs -/

theorem exists_ofBoards_eq_ok_iff {a b : List (List Nat)} :
    (∃ p : Pair s, ofBoards s a b = .ok p) ↔ IsBoard s a ∧ IsBoard s b := by
  constructor
  · rintro ⟨p, hp⟩
    obtain ⟨rfl, rfl⟩ := ofBoards_eq_ok_iff.1 hp
    exact ⟨p.isBoard_board .a, p.isBoard_board .b⟩
  · rintro ⟨ha, hb⟩
    rw [ofBoards, boardDefect?_eq_none_iff.2 ha, boardDefect?_eq_none_iff.2 hb]
    exact ⟨_, rfl⟩

theorem ofBoards_eq_error_iff_defect {a b : List (List Nat)} {e : InputError} :
    ofBoards s a b = .error e ↔ TablesDefect s a b e := by
  rw [ofBoards_eq_error_iff, Option.or_eq_some_iff, boardDefect?_eq_some_iff,
    boardDefect?_eq_none_iff, boardDefect?_eq_some_iff]
  constructor
  · rintro (h | ⟨ha, h⟩)
    · exact .first h
    · exact .second ha h
  · intro h
    cases h with
    | first h => exact .inl h
    | second ha h => exact .inr ⟨ha, h⟩

/-- Two tables are the boards of a pair just if both have the shape of a board, and the pair is then
the one with these boards. Otherwise the first defect is the error. Stacked rows of another number
than both boards have are rejected for it, and all others are the tables of their two halves. Taking
the rows of a pair and making a pair of rows undo each other. -/
theorem tables_accepted_exactly (s : Size) :
    (∀ a b, (∃ p : Pair s, ofBoards s a b = .ok p) ↔ IsBoard s a ∧ IsBoard s b) ∧
    (∀ a b (p : Pair s), ofBoards s a b = .ok p ↔ p.board .a = a ∧ p.board .b = b) ∧
    (∀ a b e, ofBoards s a b = .error e ↔ TablesDefect s a b e) ∧
    (∀ rows, ofRows s rows =
      if rows.length = 2 * s.side then ofBoards s (rows.take s.side) (rows.drop s.side)
      else .error (.rowCount (2 * s.side) rows.length)) ∧
    (∀ rows e, ofRows s rows = .error e ↔ StackDefect s rows e) ∧
    ∀ rows (p : Pair s), ofRows s rows = .ok p ↔ p.rows = rows := by
  refine ⟨?_, ?_, ?_, ?_, ?_, ?_⟩
  · exact fun _ _ => exists_ofBoards_eq_ok_iff
  · exact fun _ _ _ => ofBoards_eq_ok_iff
  · exact fun _ _ _ => ofBoards_eq_error_iff_defect
  · intro rows
    rw [ofRows]
    exact ite_not ..
  · intro rows e
    rw [ofRows_eq_error_iff, rowsDefect?_eq_some_iff]
  · exact fun _ _ => ofRows_eq_ok_iff

/-- The second table has too short a row with a number that is no digit. Its length counts. -/
example :
    ofBoards .standard (List.replicate 9 (List.replicate 9 0))
      (List.replicate 3 (List.replicate 9 0) ++ [10] :: List.replicate 5 (List.replicate 9 0)) =
        .error (.columnCount 12 9 1) := by
  rfl

end TwinSudoku.Pair
