import TwinSudoku.Pair.Csv
import TwinSudoku.Proofs.Pair.Tables
import TwinSudoku.Proofs.Runs
import TwinSudoku.Proofs.Text.Columns
import TwinSudoku.Proofs.Text.Grammar

/-!
# Reading what was written

A table of numbers may be written as a text and then read, or be made a pair of at once. Whatever
its shape and its values are, both ways lead to the same pair, or to the same defect.

* `Text.lines_flatMap`: lines written one after another, each with a line feed.
* `Text.integer64?_digits`, `Text.trim_digits`: a written number is read back, and has no white
  space to lose.
* `Csv.table_write`: a table is read back from its text, unless it has a defect.
* `Pair.ofCsv_write`: the text of a table and the table itself.
* `Pair.ofCsv_toCsv`: a pair is read back from its text.
-/

namespace TwinSudoku

/-! ## Texts -/

namespace Text

theorem mem_joined {sep : List Char} {parts : List (List Char)} {c : Char}
    (h : c ∈ joined sep parts) : c ∈ sep ∨ ∃ part ∈ parts, c ∈ part := by
  rw [joined_eq_intercalate] at h
  exact mem_intercalate h

/-- Lines that are written each with a line feed, and that hold no line end themselves. -/
theorem lines_flatMap {parts : List (List Char)} (hfeed : ∀ part ∈ parts, '\n' ∉ part)
    (hreturn : ∀ part ∈ parts, '\r' ∉ part) : lines (parts.flatMap (· ++ ['\n'])) = parts := by
  induction parts with
  | nil => rfl
  | cons part rest ih =>
    obtain ⟨hpart, hfeed⟩ := List.forall_mem_cons.1 hfeed
    obtain ⟨hpart', hreturn⟩ := List.forall_mem_cons.1 hreturn
    rw [List.flatMap_cons, List.append_assoc, List.singleton_append, lines_append hpart,
      chomp_of_getLast? fun hlast => hpart' (List.mem_of_getLast? hlast), ih hfeed hreturn]

/-! ## Numbers -/

theorem not_isBlank_of_isDigit {c : Char} (h : c.isDigit) : isBlank c = false := by
  simp only [Char.isDigit, Bool.and_eq_true, decide_eq_true_eq, ge_iff_le, UInt32.le_iff_toNat_le]
    at h
  have hlow : 48 ≤ c.toNat := h.1
  have hhigh : c.toNat ≤ 57 := h.2
  simp only [isBlank, Bool.or_eq_false_iff, Bool.and_eq_false_iff, decide_eq_false_iff_not,
    beq_eq_false_iff_ne]
  omega

theorem trim_of_not_blank {cs : List Char} (h : ∀ c ∈ cs, isBlank c = false) : trim cs = cs :=
  trim_of_trims ⟨[], [], by simp, rfl, rfl, fun c hc => h c (List.mem_of_head? hc),
    fun c hc => h c (List.mem_of_getLast? hc)⟩

theorem trim_digits (n : Nat) : trim (digits n) = digits n :=
  trim_of_not_blank fun _ hc => not_isBlank_of_isDigit (isDigit_of_mem_digits hc)

theorem not_mem_digits {c : Char} (h : c.isDigit = false) (n : Nat) : c ∉ digits n := by
  intro hc
  rw [isDigit_of_mem_digits hc] at h
  cases h

theorem numeral_digits (n : Nat) : Numeral (digits n) n := by
  obtain ⟨hne, hds, hn⟩ := natural?_eq_some_iff.1 (natural?_digits n)
  have h := Numeral.unsigned hne hds
  rwa [← hn] at h

theorem integer64?_digits {n : Nat} (h : (n : Int) ≤ greatest64) :
    integer64? (digits n) = some (n : Int) :=
  integer64?_eq_some_iff.2
    ⟨numeral_digits n, Int.le_trans (by decide) (Int.natCast_nonneg n), h⟩

end Text

/-! ## Tables -/

namespace Csv

/-- A row as it is written, without the line feed. -/
def rowText (values : List Nat) : List Char := Text.joined [','] (values.map Text.digits)

theorem write_eq (rows : List (List Nat)) :
    write rows = (rows.map rowText).flatMap (· ++ ['\n']) := by
  rw [write, List.flatMap_map]
  rfl

theorem mem_rowText {values : List Nat} {c : Char} (h : c ∈ rowText values) :
    c = ',' ∨ c.isDigit := by
  rcases Text.mem_joined h with hsep | ⟨part, hpart, hc⟩
  · exact .inl (List.mem_singleton.1 hsep)
  · obtain ⟨v, _, rfl⟩ := List.mem_map.1 hpart
    exact .inr (Text.isDigit_of_mem_digits hc)

theorem not_mem_rowText {c : Char} (hcomma : c ≠ ',') (hdigit : c.isDigit = false)
    (values : List Nat) : c ∉ rowText values := by
  intro hc
  rcases mem_rowText hc with heq | h
  · exact hcomma heq
  · rw [h] at hdigit
    cases hdigit

theorem rowText_not_blank {values : List Nat} (h : values ≠ []) :
    Text.blank (rowText values) = false := by
  have hchar {c : Char} (hc : c ∈ rowText values) : Text.isBlank c = false := by
    rcases mem_rowText hc with rfl | hdigit
    · rfl
    · exact Text.not_isBlank_of_isDigit hdigit
  have hne : rowText values ≠ [] := by
    cases values with
    | nil => exact absurd rfl h
    | cons v rest =>
      cases rest with
      | nil => exact Text.digits_ne_nil v
      | cons next rest => simp [rowText, Text.joined]
  obtain ⟨c, hc⟩ := List.exists_mem_of_ne_nil _ hne
  exact List.all_eq_false.2 ⟨c, hc, by rw [hchar hc]; exact Bool.false_ne_true⟩

theorem filledLines_write {rows : List (List Nat)} (h : ∀ values ∈ rows, values ≠ []) :
    filledLines (write rows) = rows.map rowText := by
  have hlines : Text.lines (write rows) = rows.map rowText := by
    rw [write_eq, Text.lines_flatMap]
    all_goals
      rw [List.forall_mem_map]
      exact fun values _ => not_mem_rowText (by decide) (by decide) values
  rw [filledLines, hlines, List.filter_eq_self, List.forall_mem_map]
  intro values hmem
  rw [rowText_not_blank (h values hmem)]
  rfl

theorem valueTexts_rowText {values : List Nat} (h : values ≠ []) :
    valueTexts (rowText values) = values.map Text.digits := by
  have hpieces : Text.pieces ',' (rowText values) = values.map Text.digits :=
    Text.pieces_joined (by simpa using h) (by
      rw [List.forall_mem_map]
      exact fun v _ => Text.not_mem_digits (by decide) v)
  rw [valueTexts, hpieces, List.map_map]
  exact List.map_congr_left fun v _ => Text.trim_digits v

variable {s : Size}

theorem readValue_digits {v : Nat} (h : (v : Int) ≤ Text.greatest64) (row col : Nat) :
    readValue s row (Text.digits v, col) =
      (Pair.valueDefect? s row (v, col)).elim (.ok v) .error := by
  simp only [readValue, Text.integer64?_digits h, Pair.valueDefect?]
  by_cases hv : s.side < v
  · rw [if_neg (by omega), if_pos hv]
    rfl
  · rw [if_pos (by omega), if_neg hv]
    rfl

/-- The values of a row can be written into a line that is read back. -/
def Writable (values : List Nat) : Prop :=
  values ≠ [] ∧ ∀ v ∈ values, (v : Int) ≤ Text.greatest64

instance (values : List Nat) : Decidable (Writable values) := inferInstanceAs (Decidable (_ ∧ _))

theorem readRow_rowText {values : List Nat} (h : Writable values) (row : Nat) :
    readRow s (rowText values, row) =
      (Pair.rowDefect? s row values).elim (.ok values) .error := by
  have hread : (values.zipIdx.map (Prod.map Text.digits id)).mapM (readValue s row) =
      (values.zipIdx.findSome? (Pair.valueDefect? s row)).elim (.ok values) .error := by
    rw [List.mapM_map, mapM_of_defects (g := Prod.fst), List.zipIdx_map_fst]
    intro x hx
    exact readValue_digits (h.2 x.1 (List.fst_mem_of_mem_zipIdx hx)) row x.2
  rw [readRow]
  simp only [valueTexts_rowText h.1, List.length_map]
  split
  · next hlen => rw [Pair.rowDefect?, if_pos hlen, Option.elim_some]
  · next hlen => rwa [Pair.rowDefect?_of_length (not_not.1 hlen), List.zipIdx_map]

/-- A table is read back from its text, or has its first defect there. -/
theorem table_write {rows : List (List Nat)} (h : ∀ values ∈ rows, Writable values) :
    table s (write rows) = (Pair.rowsDefect? s rows).elim (.ok rows) .error := by
  have hread : (rows.zipIdx.map (Prod.map rowText id)).mapM (readRow s) =
      (Pair.firstRowDefect? s 0 rows).elim (.ok rows) .error := by
    rw [Pair.firstRowDefect?, List.mapM_map, mapM_of_defects (g := Prod.fst), List.zipIdx_map_fst]
    rintro ⟨values, row⟩ hmem
    exact readRow_rowText (h values (List.fst_mem_of_mem_zipIdx hmem)) row
  rw [table, Pair.rowsDefect?]
  simp only [filledLines_write fun values hmem => (h values hmem).1, List.length_map]
  split
  · rfl
  · rwa [List.zipIdx_map]

end Csv

/-! ## Pairs -/

namespace Pair

variable {s : Size}

theorem ofCsv_write {rows : List (List Nat)} (h : ∀ values ∈ rows, Csv.Writable values) :
    ofCsv s (String.ofList (Csv.write rows)) = ofRows s rows := by
  rw [ofCsv, String.toList_ofList, Csv.table_write h, ofRows_eq]
  cases hdefect : rowsDefect? s rows with
  | some e => rfl
  | none =>
    show ofRows s rows = _
    rw [ofRows_eq, hdefect]

theorem writable_of_mem_rows {p : Pair s} {values : List Nat} (h : values ∈ p.rows) :
    Csv.Writable values := by
  obtain ⟨hlen, hle⟩ := isRow_of_mem_rows h
  have hpos := s.side_pos
  have hside := s.side_le
  refine ⟨List.ne_nil_of_length_pos (by omega), fun v hv => ?_⟩
  have := hle v hv
  rw [Text.greatest64]
  omega

theorem ofCsv_toCsv (p : Pair s) : ofCsv s p.toCsv = .ok p := by
  rw [toCsv, ofCsv_write fun _ => writable_of_mem_rows, ofRows_eq_ok_iff]

/-- Written and read back, a table of any shape and with any values of 64 bits gives what it gives
when a pair is made of it at once: the same pair or the same defect. Only rows without a value are
left out, since they are written as blank lines. A pair written and read back is the same pair. -/
theorem csv_agrees_with_tables {rows : List (List Nat)}
    (h : ∀ values ∈ rows, Csv.Writable values) :
    ofCsv s (String.ofList (Csv.write rows)) = ofRows s rows ∧
      ∀ p : Pair s, ofCsv s p.toCsv = .ok p :=
  ⟨ofCsv_write h, ofCsv_toCsv⟩

/-- Row 16 holds a value that is no digit, and row 17 is too short. -/
theorem csv_agrees_with_tables_ragged :
    let rows := List.replicate 16 (List.replicate 9 0) ++ [[4, 0, 200, 9, 1, 2, 255, 5, 6], [1]]
    (∀ values ∈ rows, Csv.Writable values) ∧
      ofCsv .standard (String.ofList (Csv.write rows)) = .error (.digitOutOfRange 16 2 200 9) := by
  intro rows
  have h : ∀ values ∈ rows, Csv.Writable values := by decide
  refine ⟨h, (csv_agrees_with_tables (s := .standard) h).1.trans ?_⟩
  rw [ofRows_eq]
  rfl

end Pair

end TwinSudoku
