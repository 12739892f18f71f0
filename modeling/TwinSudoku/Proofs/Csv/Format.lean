import TwinSudoku.Pair.Csv
import TwinSudoku.Proofs.FirstDefect
import TwinSudoku.Proofs.Pair.Tables
import TwinSudoku.Proofs.Text.Grammar

/-!
# The format of a pair in comma separated values

A text is read as a pair just if it has the format, and is rejected for its first defect if it has
not. The format is said here by relations between texts, cells and values, none of which reads
anything.

* `Csv.Rows`: the rows of a text and their cells.
* `Csv.Value`, `Csv.RowValues`, `Csv.TableValues`: what cells, rows and whole texts stand for.
* `Csv.CellDefect`, `Csv.RowDefect`, `Csv.TableDefect`: what may be wrong with them. Of several
  defects the first one counts (`FirstDefect`).
* `Csv.table_eq_ok_iff`, `Csv.table_eq_error_iff`: the table that is read, or the defect.
* `Pair.ofCsv_reads_format`: the same for pairs.
-/

namespace TwinSudoku

/-! ## The format -/

namespace Csv

/-- The cells of a line: its parts between commas, without white space at their ends. -/
def Cells (line : List Char) (cells : List (List Char)) : Prop :=
  ∃ parts, Text.Parts ',' line parts ∧ List.Forall₂ Text.Trims parts cells

/-- The rows of a text: the cells of those of its lines that are not all white space. -/
def Rows (text : List Char) (rows : List (List (List Char))) : Prop :=
  ∃ lines, Text.Lines text lines ∧
    List.Forall₂ Cells (lines.filter fun line => !Text.blank line) rows

variable (s : Size)

/-- A cell stands for a digit, or for none by the number 0. -/
def Value (cell : List Char) (v : Nat) : Prop := Text.Numeral cell v ∧ v ≤ s.side

/-- A row stands for as many values as a board has columns. -/
def RowValues (cells : List (List Char)) (values : List Nat) : Prop :=
  cells.length = s.side ∧ List.Forall₂ (Value s) cells values

/-- The rows of a text stand for those of both boards. -/
def TableValues (rows : List (List (List Char))) (table : List (List Nat)) : Prop :=
  rows.length = 2 * s.side ∧ List.Forall₂ (RowValues s) rows table

/-- What is wrong with a cell: it is no integer of 64 bits, or one out of range. -/
inductive CellDefect (row col : Nat) (cell : List Char) : InputError → Prop
  | notAnInteger (h : ∀ z, Text.Numeral cell z → z < Text.least64 ∨ Text.greatest64 < z) :
      CellDefect row col cell (.notAnInteger row col (String.ofList cell))
  | outOfRange {z : Int} (h : Text.Numeral cell z) (hleast : Text.least64 ≤ z)
      (hgreatest : z ≤ Text.greatest64) (hz : z < 0 ∨ s.side < z) :
      CellDefect row col cell (.digitOutOfRange row col z s.side)

/-- What is wrong with a row: the number of its cells, or else the first cell that has a defect. -/
inductive RowDefect (row : Nat) (cells : List (List Char)) : InputError → Prop
  | columnCount (h : cells.length ≠ s.side) :
      RowDefect row cells (.columnCount row s.side cells.length)
  | cell {e : InputError} (hlen : cells.length = s.side)
      (h : FirstDefect (fun cell => ∃ v, Value s cell v) (CellDefect s row) cells e) :
      RowDefect row cells e

/-- What is wrong with a text: the number of its rows, or else the first row that has a defect. -/
inductive TableDefect (rows : List (List (List Char))) : InputError → Prop
  | rowCount (h : rows.length ≠ 2 * s.side) :
      TableDefect rows (.rowCount (2 * s.side) rows.length)
  | row {e : InputError} (hlen : rows.length = 2 * s.side)
      (h : FirstDefect (fun cells => ∃ values, RowValues s cells values) (RowDefect s) rows e) :
      TableDefect rows e

/-! ## Reading -/

variable {s}

theorem forall₂_iff_eq_map {α β : Type} {R : α → β → Prop} {g : α → β}
    (h : ∀ x y, R x y ↔ y = g x) {xs : List α} {ys : List β} :
    List.Forall₂ R xs ys ↔ ys = xs.map g := by
  induction xs generalizing ys with
  | nil => rw [List.forall₂_nil_left_iff, List.map_nil]
  | cons x rest ih =>
    simp only [List.forall₂_cons_left_iff, h, ih, List.map_cons]
    constructor
    · rintro ⟨_, _, rfl, rfl, rfl⟩
      rfl
    · rintro rfl
      exact ⟨_, _, rfl, rfl, rfl⟩

theorem cells_iff {line : List Char} {cells : List (List Char)} :
    Cells line cells ↔ cells = valueTexts line := by
  simp only [Cells, Text.parts_iff, exists_eq_left]
  exact forall₂_iff_eq_map (R := Text.Trims) (g := Text.trim) fun _ _ => Text.trims_iff

theorem exists_of_forall₂_right {α β : Type} {R : α → β → Prop} {xs : List α} {ys : List β}
    (h : List.Forall₂ R xs ys) {y : β} (hy : y ∈ ys) : ∃ x ∈ xs, R x y := by
  induction h with
  | nil => cases hy
  | cons hxy _ ih =>
    rcases List.mem_cons.1 hy with rfl | hy
    · exact ⟨_, List.mem_cons_self, hxy⟩
    · obtain ⟨x, hx, hR⟩ := ih hy
      exact ⟨x, List.mem_cons_of_mem _ hx, hR⟩

theorem rows_iff {text : List Char} {rows : List (List (List Char))} :
    Rows text rows ↔ rows = (filledLines text).map valueTexts := by
  simp only [Rows, Text.lines_iff, exists_eq_left]
  exact forall₂_iff_eq_map (R := Cells) (g := valueTexts) fun _ _ => cells_iff

theorem value_iff {cell : List Char} {v : Nat} :
    Value s cell v ↔ Text.integer64? cell = some (v : Int) ∧ v ≤ s.side := by
  have hside := s.side_le
  rw [Value, Text.integer64?_eq_some_iff, Text.least64, Text.greatest64]
  constructor
  · rintro ⟨hnumeral, hv⟩
    exact ⟨⟨hnumeral, by omega, by omega⟩, hv⟩
  · rintro ⟨⟨hnumeral, -⟩, hv⟩
    exact ⟨hnumeral, hv⟩

theorem readValue_eq_ok_iff {row col v : Nat} {cell : List Char} :
    readValue s row (cell, col) = .ok v ↔ Value s cell v := by
  rw [value_iff, readValue]
  cases hread : Text.integer64? cell with
  | none => simp
  | some z =>
    simp only [Option.some.injEq]
    split
    · rw [Except.ok.injEq]
      omega
    · simp only [reduceCtorEq, false_iff]
      omega

theorem readValue_eq_error_iff {row col : Nat} {cell : List Char} {e : InputError} :
    readValue s row (cell, col) = .error e ↔ CellDefect s row col cell e := by
  have hnumeral {z : Int} : Text.integer64? cell = some z ↔
      Text.Numeral cell z ∧ Text.least64 ≤ z ∧ z ≤ Text.greatest64 := Text.integer64?_eq_some_iff
  rw [readValue]
  cases hread : Text.integer64? cell with
  | none =>
    simp only [hread, reduceCtorEq, false_iff] at hnumeral
    constructor
    · intro h
      cases h
      refine .notAnInteger fun z hz => ?_
      by_contra hrange
      exact hnumeral ⟨hz, by omega, by omega⟩
    · intro h
      cases h with
      | notAnInteger h => rfl
      | outOfRange h hleast hgreatest => exact absurd ⟨h, hleast, hgreatest⟩ hnumeral
  | some z =>
    simp only [hread, Option.some.injEq] at hnumeral
    obtain ⟨hz, hleast, hgreatest⟩ := hnumeral.1 rfl
    constructor
    · intro h
      simp only at h
      split at h
      · cases h
      · cases h
        exact .outOfRange hz hleast hgreatest (by omega)
    · intro h
      cases h with
      | notAnInteger h => have := h z hz; omega
      | outOfRange h hleast hgreatest hrange =>
        obtain rfl := hnumeral.2 ⟨h, hleast, hgreatest⟩
        exact if_neg (by omega)

theorem readRow_eq_ok_iff {row : Nat} {line : List Char} {values : List Nat} :
    readRow s (line, row) = .ok values ↔ RowValues s (valueTexts line) values := by
  rw [readRow, RowValues]
  split
  · next hlen => simp [hlen]
  · next hlen =>
    rw [ne_eq, not_not] at hlen
    rw [mapM_zipIdx_eq_ok_iff (fun _ _ _ => readValue_eq_ok_iff) 0, and_iff_right hlen]

theorem readRow_eq_error_iff {row : Nat} {line : List Char} {e : InputError} :
    readRow s (line, row) = .error e ↔ RowDefect s row (valueTexts line) e := by
  rw [readRow]
  split
  · next hlen =>
    constructor
    · rintro ⟨⟩
      exact .columnCount hlen
    · intro h
      cases h with
      | columnCount => rfl
      | cell hlen' => exact absurd hlen' hlen
  · next hlen =>
    rw [mapM_zipIdx_eq_error_iff (fun _ _ _ => readValue_eq_ok_iff)
      (fun _ _ _ => readValue_eq_error_iff) 0]
    simp only [Nat.zero_add]
    constructor
    · exact .cell (not_not.1 hlen)
    · intro h
      cases h with
      | columnCount hlen' => exact absurd hlen' hlen
      | cell _ h => exact h

theorem table_eq_ok_iff {text : List Char} {values : List (List Nat)} :
    table s text = .ok values ↔ TableValues s ((filledLines text).map valueTexts) values := by
  rw [table, TableValues, List.length_map]
  split
  · next hlen => simp [hlen]
  · next hlen =>
    rw [ne_eq, not_not] at hlen
    rw [mapM_zipIdx_eq_ok_iff (fun _ _ _ => readRow_eq_ok_iff) 0, and_iff_right hlen,
      List.forall₂_map_left_iff]

theorem table_eq_error_iff {text : List Char} {e : InputError} :
    table s text = .error e ↔ TableDefect s ((filledLines text).map valueTexts) e := by
  have hrows : ((filledLines text).map valueTexts).length = (filledLines text).length :=
    List.length_map _
  rw [table, ← hrows]
  split
  · next hlen =>
    constructor
    · rintro ⟨⟩
      exact .rowCount hlen
    · intro h
      cases h with
      | rowCount => rfl
      | row hlen' => exact absurd hlen' hlen
  · next hlen =>
    rw [mapM_zipIdx_eq_error_iff (fun _ _ _ => readRow_eq_ok_iff)
      (fun _ _ _ => readRow_eq_error_iff) 0]
    simp only [Nat.zero_add]
    constructor
    · intro h
      exact .row (not_not.1 hlen) (firstDefect_map.2 h)
    · intro h
      cases h with
      | rowCount hlen' => exact absurd hlen' hlen
      | row _ h => exact firstDefect_map.1 h

/-- What the rows of a text stand for has the shape of the rows of a pair. -/
theorem TableValues.exists_ofRows {rows : List (List (List Char))} {values : List (List Nat)}
    (h : TableValues s rows values) : ∃ p : Pair s, Pair.ofRows s values = .ok p := by
  obtain ⟨hlen, hrows⟩ := h
  refine Pair.exists_ofRows_eq_ok (hrows.length_eq.symm.trans hlen) fun row hrow => ?_
  obtain ⟨cells, -, hcells, hvalues⟩ := exists_of_forall₂_right hrows hrow
  refine ⟨hvalues.length_eq.symm.trans hcells, fun v hv => ?_⟩
  obtain ⟨cell, -, hcell⟩ := exists_of_forall₂_right hvalues hv
  exact hcell.2

end Csv

/-! ## Pairs -/

namespace Pair

variable {s : Size}

theorem ofCsv_eq_ok_iff {text : String} {p : Pair s} :
    ofCsv s text = .ok p ↔
      Csv.TableValues s ((Csv.filledLines text.toList).map Csv.valueTexts) p.rows := by
  rw [ofCsv, bind_eq_ok]
  simp only [Csv.table_eq_ok_iff, ofRows_eq_ok_iff, exists_eq_right']

/-- A text is rejected by the reader of tables, or not at all. -/
theorem ofCsv_eq_error_iff {text : String} {e : InputError} :
    ofCsv s text = .error e ↔ Csv.table s text.toList = .error e := by
  rw [ofCsv, bind_eq_error, or_iff_left]
  rintro ⟨values, htable, hrows⟩
  obtain ⟨p, hp⟩ := (Csv.table_eq_ok_iff.1 htable).exists_ofRows
  rw [hp] at hrows
  cases hrows

/-- A text is read as a pair just if it has the format, and then as the pair whose rows it stands
for. Otherwise it has a first defect, and this is the error. Which rows a text has, the format alone
decides. What is read as a table is always accepted as the rows of a pair. -/
theorem ofCsv_reads_format (s : Size) (text : String) :
    ∃ rows, (∀ rows', Csv.Rows text.toList rows' ↔ rows' = rows) ∧
      (∀ p : Pair s, ofCsv s text = .ok p ↔ Csv.TableValues s rows p.rows) ∧
      (∀ e, ofCsv s text = .error e ↔ Csv.TableDefect s rows e) ∧
      ((∃ p : Pair s, Csv.TableValues s rows p.rows) ∨ ∃ e, Csv.TableDefect s rows e) ∧
      ∀ values, Csv.table s text.toList = .ok values → ∃ p, ofRows s values = .ok p := by
  refine ⟨_, fun _ => Csv.rows_iff, fun _ => ofCsv_eq_ok_iff,
    fun _ => ofCsv_eq_error_iff.trans Csv.table_eq_error_iff, ?_,
    fun _ h => (Csv.table_eq_ok_iff.1 h).exists_ofRows⟩
  cases hread : ofCsv s text with
  | ok p => exact .inl ⟨p, ofCsv_eq_ok_iff.1 hread⟩
  | error e => exact .inr ⟨e, Csv.table_eq_error_iff.1 (ofCsv_eq_error_iff.1 hread)⟩

end Pair

end TwinSudoku
