import Mathlib.Tactic.Ring
import TwinSudoku.Pair.Display
import TwinSudoku.Proofs.Csv.RoundTrip
import TwinSudoku.Proofs.Numbering.Words
import TwinSudoku.Proofs.Pair.Tables
import TwinSudoku.Proofs.Rules.Houses
import TwinSudoku.Proofs.Text.Columns

/-!
# Boards on the console

A board is shown row by row, with rules between its bands in one of the layouts. Every value of a
board has its place in the text, whatever the others are, so that nothing is lost.

* `Size.columnOf`, `Size.lineOf`: where the value of a column begins in a line, and which line shows
  a row.
* `Pair.slice_shownRow`, `Pair.length_shownRow`: the values of a row, and the length of its line.
* `Pair.linesOf`, `Pair.getElem?_lineOf`, `Pair.rule_or_row`: the lines of a board.
* `Words.ruleWidth_eq`: the width of a rule is calculated without a difference below zero.
* `Pair.shown_aligned_and_injective`: the layouts.
-/

namespace TwinSudoku

/-! ## Widths -/

namespace Words

/-- The width of the rule between bands, with a check of each intermediate value. -/
def ruleWidth (bits : Nat) (s : Size) : Except WordFailure Nat := do
  let side ← unsigned bits (s.k * s.k)
  let digits ← unsigned bits (2 * side)
  let blanks ← unsigned bits (2 * s.k)
  let both ← unsigned bits (digits + blanks)
  let narrow ← minus both 3
  unsigned bits (narrow + if 3 < s.k then side else 0)

theorem unsigned_small {bits n : Nat} (hbits : 8 ≤ bits) (hn : n < 256) :
    unsigned bits n = .ok n := by
  have hpow : 2 ^ 8 ≤ 2 ^ bits := Nat.pow_le_pow_right (by decide) hbits
  exact if_pos (by omega)

theorem unsigned_small_bind {α : Type} {bits n : Nat} (hbits : 8 ≤ bits) (hn : n < 256)
    (f : Nat → Except WordFailure α) : (unsigned bits n >>= f) = f n := by
  rw [unsigned_small hbits hn]
  rfl

theorem ruleWidth_eq {bits : Nat} (hbits : 8 ≤ bits) (s : Size) :
    ruleWidth bits s = .ok (Pair.ruleWidth s) := by
  have hk := s.k_pos
  have hkmax : s.k ≤ 6 := s.le_max
  have hside : s.k * s.k ≤ 36 := s.side_le
  have hpos : 0 < s.k * s.k := s.side_pos
  have hminus : minus (2 * (s.k * s.k) + 2 * s.k) 3 = .ok (2 * (s.k * s.k) + 2 * s.k - 3) :=
    if_pos (by omega)
  have hsum : 2 * (s.k * s.k) + 2 * s.k - 3 + (if 3 < s.k then s.k * s.k else 0) < 256 := by
    split <;> omega
  rw [ruleWidth, unsigned_small_bind hbits (by omega), unsigned_small_bind hbits (by omega),
    unsigned_small_bind hbits (by omega), unsigned_small_bind hbits (by omega), hminus]
  exact unsigned_small hbits hsum

end Words

namespace Size

variable (s : Size)

theorem digitWidth_eq : s.digitWidth = if 3 < s.k then 2 else 1 := by
  rw [digitWidth, side]
  by_cases hk : 3 < s.k
  · have := Nat.mul_le_mul hk hk
    rw [if_pos hk, if_pos (by omega)]
  · have := Nat.mul_le_mul (Nat.le_of_not_lt hk) (Nat.le_of_not_lt hk)
    rw [if_neg hk, if_neg (by omega)]

/-- The column in which the value of a column of the board begins. -/
def columnOf (layout : Layout) (col : Nat) : Nat :=
  col * (s.digitWidth + 1) + if layout = .framed then 2 * (col / s.k) else 0

/-- The number of the line that shows a row of the board. -/
def lineOf (layout : Layout) (row : Nat) : Nat :=
  row + if layout = .framed then row / s.k else 0

/-- The framed layout has one more line for each band above. -/
theorem lineOf_framed {b j : Nat} (hj : j < s.k) :
    s.lineOf .framed (b * s.k + j) = b * (s.k + 1) + j := by
  rw [lineOf, if_pos rfl, pack_div hj, Nat.mul_add_one]
  omega

end Size

namespace Pair

variable {s : Size} {layout : Layout}

/-! ## Values -/

theorem toList_shownValue (s : Size) (v : Nat) :
    (shownValue s v).toList =
      List.replicate (s.digitWidth - (Text.digits v).length) ' ' ++ Text.digits v := by
  rw [shownValue, padLeft, Nat.toString_eq_repr, Nat.repr_eq_ofList_toDigits, String.toList_append,
    String.toList_ofList, String.toList_ofList, String.length_ofList]
  rfl

theorem length_digits_le {v : Nat} (h : v ≤ s.side) : (Text.digits v).length ≤ s.digitWidth := by
  have hside := s.side_le
  have hpos : 0 < s.digitWidth := by rw [Size.digitWidth]; split <;> decide
  refine (Nat.length_toDigits_le_iff (by decide) hpos).2 ?_
  rw [Size.digitWidth]
  split <;> omega

theorem length_shownValue {v : Nat} (h : v ≤ s.side) :
    (shownValue s v).toList.length = s.digitWidth := by
  have := length_digits_le h
  rw [toList_shownValue, List.length_append, List.length_replicate]
  omega

theorem mem_shownValue {v : Nat} {c : Char} (h : c ∈ (shownValue s v).toList) :
    c = ' ' ∨ c.isDigit := by
  rw [toList_shownValue, List.mem_append] at h
  exact h.imp List.eq_of_mem_replicate Text.isDigit_of_mem_digits

/-- The digits of a number are told from the blanks before them. -/
theorem shownValue_inj {v w : Nat} (h : shownValue s v = shownValue s w) : v = w := by
  have hdigits (n : Nat) : (shownValue s n).toList.filter Char.isDigit = Text.digits n := by
    rw [toList_shownValue, List.filter_append, List.filter_replicate_of_neg (by decide),
      List.nil_append, List.filter_eq_self]
    exact fun c => Text.isDigit_of_mem_digits
  have hvw : Text.digits v = Text.digits w := by rw [← hdigits, h, hdigits]
  rw [← Option.some_inj, ← Text.natural?_digits, hvw, Text.natural?_digits]

/-! ## Rows -/

theorem toList_shownValues (values : List Nat) :
    (shownValues s values).toList =
      [' '].intercalate (values.map fun v => (shownValue s v).toList) := by
  rw [shownValues, String.toList_intercalate, List.map_map]
  rfl

section Values

variable {values : List Nat} (h : ∀ v ∈ values, v ≤ s.side)
include h

theorem length_of_mem_shown :
    ∀ part ∈ values.map fun v => (shownValue s v).toList, part.length = s.digitWidth := by
  rw [List.forall_mem_map]
  exact fun v hv => length_shownValue (h v hv)

theorem length_shownValues (hne : values ≠ []) :
    (shownValues s values).toList.length + 1 = values.length * (s.digitWidth + 1) := by
  have hlen := Text.length_intercalate [' '] (length_of_mem_shown h) (by simpa using hne)
  rwa [List.length_map, ← toList_shownValues] at hlen

theorem slice_shownValues {i : Nat} (hi : i < values.length) :
    Text.slice (i * (s.digitWidth + 1)) s.digitWidth (shownValues s values).toList =
      (shownValue s values[i]).toList := by
  have hslice := Text.slice_intercalate [' '] (length_of_mem_shown h) (i := i)
    (by simpa using hi)
  rw [toList_shownValues]
  simpa using hslice

end Values

theorem toList_shownRow_framed (row : List Nat) :
    (shownRow s .framed row).toList =
      [' ', '|', ' '].intercalate ((s.bands row).map fun band => (shownValues s band).toList) := by
  rw [shownRow, String.toList_intercalate, List.map_map]
  rfl

theorem shownRow_of_ne (hlayout : layout ≠ .framed) (row : List Nat) :
    shownRow s layout row = shownValues s row := by
  cases layout with
  | framed => exact absurd rfl hlayout
  | bare => rfl
  | file => rfl

theorem length_bands (row : List Nat) : (s.bands row).length = s.k := by
  rw [Size.bands, List.length_map, List.length_range]

theorem length_of_mem_bands {row band : List Nat} (hlen : row.length = s.side)
    (h : band ∈ s.bands row) : band.length = s.k := by
  rw [Size.bands, List.mem_map] at h
  obtain ⟨b, hb, rfl⟩ := h
  rw [List.mem_range] at hb
  have hend := Nat.mul_le_mul_right s.k (Nat.succ_le_of_lt hb)
  rw [Nat.succ_mul, ← Size.side] at hend
  rw [List.length_take, List.length_drop, hlen]
  omega

theorem mem_of_mem_bands {row band : List Nat} (h : band ∈ s.bands row) {v : Nat} (hv : v ∈ band) :
    v ∈ row := by
  rw [Size.bands, List.mem_map] at h
  obtain ⟨b, -, rfl⟩ := h
  exact List.mem_of_mem_drop (List.mem_of_mem_take hv)

/-- The width of a band of a row. -/
def bandWidth (s : Size) : Nat := s.k * (s.digitWidth + 1) - 1

theorem bandWidth_add_one (s : Size) : bandWidth s + 1 = s.k * (s.digitWidth + 1) :=
  Nat.sub_add_cancel (Nat.mul_pos s.k_pos (Nat.succ_pos _))

theorem columnOf_framed (s : Size) (col : Nat) :
    s.columnOf .framed col =
      col / s.k * (bandWidth s + 3) + col % s.k * (s.digitWidth + 1) := by
  have hwidth : bandWidth s + 3 = s.k * (s.digitWidth + 1) + 2 :=
    congrArg (· + 2) (bandWidth_add_one s)
  calc
    s.columnOf .framed col
      = (col / s.k * s.k + col % s.k) * (s.digitWidth + 1) + 2 * (col / s.k) := by
        rw [Nat.div_add_mod', Size.columnOf, if_pos rfl]
    _ = col / s.k * (s.k * (s.digitWidth + 1) + 2) + col % s.k * (s.digitWidth + 1) := by ring
    _ = col / s.k * (bandWidth s + 3) + col % s.k * (s.digitWidth + 1) := by rw [hwidth]

section Rows

variable {row : List Nat} (h : IsRow s row)
include h

theorem length_of_mem_shownBands :
    ∀ part ∈ (s.bands row).map fun band => (shownValues s band).toList,
      part.length = bandWidth s := by
  rw [List.forall_mem_map]
  intro band hband
  have hlen := length_of_mem_bands h.1 hband
  have hne : band ≠ [] := List.ne_nil_of_length_pos (hlen ▸ s.k_pos)
  have hwidth := length_shownValues (fun v hv => h.2 v (mem_of_mem_bands hband hv)) hne
  rw [hlen, ← bandWidth_add_one] at hwidth
  exact Nat.succ.inj hwidth

/-- The line of a row with its bars is as long as the rule between bands. -/
theorem length_shownRow : (shownRow s .framed row).toList.length = ruleWidth s := by
  have hlen := Text.length_intercalate [' ', '|', ' '] (length_of_mem_shownBands h)
    (List.ne_nil_of_length_pos (by rw [List.length_map, length_bands]; exact s.k_pos))
  have hwidth : bandWidth s + 3 = s.k * (s.digitWidth + 1) + 2 :=
    congrArg (· + 2) (bandWidth_add_one s)
  have hk := s.k_pos
  have hside := s.side_pos
  rw [List.length_map, length_bands, List.length_cons, List.length_cons, List.length_singleton,
    hwidth, Nat.mul_add, ← Nat.mul_assoc, ← Size.side, Nat.mul_add_one, Size.digitWidth_eq] at hlen
  rw [toList_shownRow_framed, ruleWidth]
  split at hlen <;> rename_i hwide
  · rw [if_pos hwide]
    omega
  · rw [if_neg hwide]
    omega

/-- A band of the row stands between its bars. -/
theorem slice_bands {b : Nat} (hb : b < s.k) :
    Text.slice (b * (bandWidth s + 3)) (bandWidth s) (shownRow s .framed row).toList =
      (shownValues s (Text.slice (b * s.k) s.k row)).toList := by
  have hslice := Text.slice_intercalate [' ', '|', ' '] (length_of_mem_shownBands h)
    (i := b) (by rwa [List.length_map, length_bands])
  rw [List.getElem_map] at hslice
  rw [toList_shownRow_framed]
  refine hslice.trans ?_
  simp only [Size.bands, List.getElem_map, List.getElem_range]
  rfl

/-- The value of a column stands in its columns of the line, whatever the other values are. -/
theorem slice_shownRow (layout : Layout) {col : Nat} (hcol : col < row.length) :
    Text.slice (s.columnOf layout col) s.digitWidth (shownRow s layout row).toList =
      (shownValue s row[col]).toList := by
  by_cases hlayout : layout = .framed
  · subst hlayout
    have hmod : col % s.k < s.k := Nat.mod_lt col s.k_pos
    have hdiv : col / s.k < s.k := (Nat.div_lt_iff_lt_mul s.k_pos).2 (hcol.trans_eq h.1)
    have hsplit : col / s.k * s.k + col % s.k = col := Nat.div_add_mod' col s.k
    have hvalues : ∀ v ∈ Text.slice (col / s.k * s.k) s.k row, v ≤ s.side :=
      fun v hv => h.2 v (List.mem_of_mem_drop (List.mem_of_mem_take hv))
    have hfits : col % s.k * (s.digitWidth + 1) + s.digitWidth ≤ bandWidth s := by
      have := Nat.mul_le_mul_right (s.digitWidth + 1) (Nat.succ_le_of_lt hmod)
      rw [Nat.succ_mul, ← bandWidth_add_one] at this
      omega
    have hlen : col % s.k < (Text.slice (col / s.k * s.k) s.k row).length := by
      rw [Text.slice, List.length_take, List.length_drop]
      omega
    rw [columnOf_framed, ← Text.slice_slice hfits, slice_bands h hdiv,
      slice_shownValues hvalues hlen]
    simp [Text.slice, hsplit]
  · rw [shownRow_of_ne hlayout, Size.columnOf, if_neg hlayout]
    exact slice_shownValues h.2 hcol

end Rows

theorem mem_shownValues {values : List Nat} {c : Char} (hc : c ∈ (shownValues s values).toList) :
    c = ' ' ∨ c.isDigit := by
  rw [toList_shownValues] at hc
  rcases Text.mem_intercalate hc with hsep | ⟨part, hpart, hc⟩
  · exact .inl (List.mem_singleton.1 hsep)
  · obtain ⟨v, -, rfl⟩ := List.mem_map.1 hpart
    exact mem_shownValue hc

theorem mem_shownRow {c : Char} (hc : c ∈ (shownRow s layout row).toList) :
    c = ' ' ∨ c = '|' ∨ c.isDigit := by
  by_cases hlayout : layout = .framed
  · rw [hlayout, toList_shownRow_framed] at hc
    rcases Text.mem_intercalate hc with hsep | ⟨part, hpart, hc⟩
    · simp only [List.mem_cons, List.not_mem_nil, or_false] at hsep
      rcases hsep with rfl | rfl | rfl
      · exact .inl rfl
      · exact .inr (.inl rfl)
      · exact .inl rfl
    · obtain ⟨band, -, rfl⟩ := List.mem_map.1 hpart
      exact (mem_shownValues hc).imp id .inr
  · rw [shownRow_of_ne hlayout] at hc
    exact (mem_shownValues hc).imp id .inr

/-! ## Lines -/

/-- The line that follows that of a row, if it is the last one of a band above another. -/
def rulesAfter (s : Size) (layout : Layout) (row : Nat) : List (List Char) :=
  if layout = .framed ∧ (row + 1) % s.k = 0 ∧ row + 1 ≠ s.side then
    [List.replicate (ruleWidth s) '-']
  else []

/-- The lines that show some rows, the first of them with the given number. -/
def linesOf (s : Size) (layout : Layout) (first : Nat) (rows : List (List Nat)) :
    List (List Char) :=
  (rows.zipIdx first).flatMap fun (values, row) =>
    (shownRow s layout values).toList :: rulesAfter s layout row

theorem linesOf_cons (first : Nat) (values : List Nat) (rest : List (List Nat)) :
    linesOf s layout first (values :: rest) =
      (shownRow s layout values).toList ::
        (rulesAfter s layout first ++ linesOf s layout (first + 1) rest) := by
  rw [linesOf, List.zipIdx_cons, List.flatMap_cons]
  rfl

theorem linesOf_append (first : Nat) (rows more : List (List Nat)) :
    linesOf s layout first (rows ++ more) =
      linesOf s layout first rows ++ linesOf s layout (first + rows.length) more := by
  rw [linesOf, List.zipIdx_append, List.flatMap_append]
  rfl

theorem toList_showBoard (p : Pair s) (g : Board) (layout : Layout) :
    (p.showBoard g layout).toList =
      (linesOf s layout 0 (p.board g)).flatMap (· ++ ['\n']) := by
  have hrule (row : Nat) :
      (ruleAfter s layout row).toList = (rulesAfter s layout row).flatMap (· ++ ['\n']) := by
    rw [ruleAfter, rulesAfter]
    split
    · simp
    · rfl
  rw [showBoard, String.toList_join, linesOf, List.flatMap_map, List.flatMap_assoc]
  congr 1
  funext ⟨values, row⟩
  simp [hrule]

theorem length_rulesAfter {row : Nat} (h : row + 1 < s.side) :
    (rulesAfter s layout row).length =
      if layout = .framed then if s.k ∣ row + 1 then 1 else 0 else 0 := by
  simp only [rulesAfter, Nat.dvd_iff_mod_eq_zero, h.ne, ne_eq, not_false_eq_true, and_true]
  by_cases hlayout : layout = .framed
  · by_cases hmod : (row + 1) % s.k = 0 <;> simp [hlayout, hmod]
  · simp [hlayout]

variable {p : Pair s} {g : Board}

/-- The lines of a board: those of the rows above a given row, its own, the rule after it, and those
of the rows below. -/
theorem linesOf_board {row : Nat} (h : row < (p.board g).length) :
    linesOf s layout 0 (p.board g) =
      linesOf s layout 0 ((p.board g).take row) ++
        (shownRow s layout (p.board g)[row]).toList ::
          (rulesAfter s layout row ++
            linesOf s layout (row + 1) ((p.board g).drop (row + 1))) := by
  conv => lhs; rw [← List.take_append_drop row (p.board g), List.drop_eq_getElem_cons h]
  rw [linesOf_append, linesOf_cons, List.length_take, Nat.min_eq_left h.le, Nat.zero_add]

/-- The rows above a given row take the lines before its own. -/
theorem length_linesOf_take (layout : Layout) {row : Nat} (h : row < s.side) :
    (linesOf s layout 0 ((p.board g).take row)).length = s.lineOf layout row := by
  induction row with
  | zero => simp [linesOf, Size.lineOf]
  | succ row ih =>
    have hrow : row < (p.board g).length := by rw [length_board]; omega
    rw [← List.take_append_getElem hrow, linesOf_append, List.length_append,
      ih (Nat.lt_of_succ_lt h), linesOf_cons, List.length_cons, List.length_append,
      List.length_take, Nat.min_eq_left hrow.le, Nat.zero_add, length_rulesAfter h, Size.lineOf,
      Size.lineOf, Nat.succ_div]
    simp only [linesOf, List.zipIdx_nil, List.flatMap_nil, List.length_nil]
    split <;> omega

theorem getElem?_lineOf {row : Nat} (h : row < (p.board g).length) :
    (linesOf s layout 0 (p.board g))[s.lineOf layout row]? =
      some (shownRow s layout (p.board g)[row]).toList := by
  have htake := length_linesOf_take (p := p) (g := g) layout
    (h.trans_eq (p.length_board g))
  rw [linesOf_board h, ← htake]
  simp

/-- A band and its rule take one line more than the band has rows. -/
theorem getElem?_rule {b : Nat} (hb : b + 1 < s.k) :
    (linesOf s .framed 0 (p.board g))[b * (s.k + 1) + s.k]? =
      some (List.replicate (ruleWidth s) '-') := by
  have hk := s.k_pos
  have hlast : s.k - 1 < s.k := Nat.sub_lt hk Nat.one_pos
  have hnext : b * s.k + (s.k - 1) + 1 = (b + 1) * s.k := by rw [Nat.succ_mul]; omega
  have hlt : b * s.k + (s.k - 1) + 1 < s.side := hnext ▸ Nat.mul_lt_mul_of_pos_right hb hk
  have hrow : b * s.k + (s.k - 1) < (p.board g).length := by rw [length_board]; omega
  have htake := length_linesOf_take (p := p) (g := g) .framed (Nat.lt_of_succ_lt hlt)
  have hrule : rulesAfter s .framed (b * s.k + (s.k - 1)) = [List.replicate (ruleWidth s) '-'] :=
    if_pos ⟨rfl, by rw [hnext, Nat.mul_mod_left], hlt.ne⟩
  have hline : b * (s.k + 1) + s.k = s.lineOf .framed (b * s.k + (s.k - 1)) + 1 := by
    rw [s.lineOf_framed hlast]
    omega
  rw [hline, linesOf_board hrow, ← htake, hrule]
  simp

/-- After the line of the last row there is nothing. -/
theorem length_linesOf_board (p : Pair s) (g : Board) (layout : Layout) :
    (linesOf s layout 0 (p.board g)).length = s.lineOf layout (s.side - 1) + 1 := by
  have hside : s.side - 1 + 1 = s.side := Nat.sub_add_cancel s.side_pos
  have hlen : s.side - 1 < (p.board g).length := by rw [length_board]; omega
  have hrules : rulesAfter s layout (s.side - 1) = [] := if_neg fun hrule => hrule.2.2 hside
  have hbelow : (p.board g).drop (s.side - 1 + 1) = [] := by
    rw [hside, ← p.length_board g, List.drop_length]
  rw [linesOf_board hlen, List.length_append, length_linesOf_take layout (by omega), hrules, hbelow]
  rfl

/-- In the framed layout there is a line for each row, and one between each two bands. -/
theorem length_linesOf_framed (p : Pair s) (g : Board) :
    (linesOf s .framed 0 (p.board g)).length + 1 = s.side + s.k := by
  have hside := s.side_pos
  have hk := s.k_pos
  have hdiv : (s.side - 1) / s.k = s.k - 1 := by
    have := Nat.mul_sub_div 0 s.k s.k s.side_pos
    rwa [Nat.zero_div, Nat.zero_add] at this
  rw [length_linesOf_board, Size.lineOf, if_pos rfl, hdiv]
  omega

/-- A line of the framed layout is a rule after each band but the last, and shows a row
otherwise. -/
theorem rule_or_row {i : Nat} {line : List Char}
    (h : (linesOf s .framed 0 (p.board g))[i]? = some line) :
    if (i + 1) % (s.k + 1) = 0 then line = List.replicate (ruleWidth s) '-'
    else ∃ row ∈ p.board g, line = (shownRow s .framed row).toList := by
  have hi : i + 1 < s.k * (s.k + 1) := by
    have hlt := (List.getElem?_eq_some_iff.1 h).1
    rw [Nat.mul_add_one, ← Size.side, ← length_linesOf_framed p g]
    omega
  -- line `i` belongs to the band `b`, after `j` of its lines
  obtain ⟨b, j, hj, rfl⟩ : ∃ b j, j < s.k + 1 ∧ i = b * (s.k + 1) + j :=
    ⟨i / (s.k + 1), i % (s.k + 1), Nat.mod_lt _ (Nat.succ_pos _), (Nat.div_add_mod' ..).symm⟩
  by_cases hjk : j = s.k
  · subst hjk
    have hnext : b * (s.k + 1) + s.k + 1 = (b + 1) * (s.k + 1) := by
      rw [Nat.succ_mul, Nat.add_assoc]
    rw [hnext] at hi
    rw [if_pos (by rw [hnext, Nat.mul_mod_left])]
    exact Option.some.inj (h.symm.trans (getElem?_rule (Nat.lt_of_mul_lt_mul_right hi)))
  · have hj : j < s.k := by omega
    have hb : b < s.k := by
      by_contra hle
      have := Nat.mul_le_mul_right (s.k + 1) (Nat.le_of_not_lt hle)
      omega
    have hmod : (b * (s.k + 1) + j + 1) % (s.k + 1) = j + 1 := by
      rw [Nat.add_assoc, Nat.mul_comm, Nat.mul_add_mod, Nat.mod_eq_of_lt (Nat.succ_lt_succ hj)]
    have hrow : b * s.k + j < (p.board g).length := by
      rw [length_board]
      exact Size.pack_lt hb hj
    rw [← s.lineOf_framed hj, getElem?_lineOf hrow] at h
    rw [if_neg (by omega)]
    exact ⟨_, List.getElem_mem hrow, (Option.some.inj h).symm⟩

/-! ## Texts -/

theorem mem_linesOf {first : Nat} {rows : List (List Nat)} {line : List Char}
    (h : line ∈ linesOf s layout first rows) {c : Char} (hc : c ∈ line) :
    c = '-' ∨ c = ' ' ∨ c = '|' ∨ c.isDigit := by
  rw [linesOf, List.mem_flatMap] at h
  obtain ⟨⟨values, row⟩, -, hline⟩ := h
  rcases List.mem_cons.1 hline with rfl | hline
  · exact .inr (mem_shownRow hc)
  · rw [rulesAfter] at hline
    split at hline
    · rw [List.mem_singleton.1 hline] at hc
      exact .inl (List.eq_of_mem_replicate hc)
    · cases hline

theorem not_mem_linesOf {c : Char} (hc : c = '\n' ∨ c = '\r') {first : Nat}
    {rows : List (List Nat)} : ∀ line ∈ linesOf s layout first rows, c ∉ line := by
  intro line hline hmem
  rcases mem_linesOf hline hmem with rfl | rfl | rfl | hdigit
  · simp at hc
  · simp at hc
  · simp at hc
  · rcases hc with rfl | rfl <;> cases hdigit

theorem lines_showBoard (p : Pair s) (g : Board) (layout : Layout) :
    Text.lines (p.showBoard g layout).toList = linesOf s layout 0 (p.board g) := by
  rw [toList_showBoard,
    Text.lines_flatMap (not_mem_linesOf (.inl rfl)) (not_mem_linesOf (.inr rfl))]

/-- Both boards are shown by their lines, with an empty one between. -/
theorem lines_shown (p : Pair s) (layout : Layout) :
    Text.lines (p.shown layout).toList =
      linesOf s layout 0 (p.board .a) ++ [] :: linesOf s layout 0 (p.board .b) := by
  have hnot {c : Char} (hc : c = '\n' ∨ c = '\r') : ∀ line ∈
      linesOf s layout 0 (p.board .a) ++ [] :: linesOf s layout 0 (p.board .b), c ∉ line := by
    intro line hline
    rcases List.mem_append.1 hline with ha | hb
    · exact not_mem_linesOf hc line ha
    · rcases List.mem_cons.1 hb with rfl | hb
      · exact List.not_mem_nil
      · exact not_mem_linesOf hc line hb
  rw [← Text.lines_flatMap (hnot (.inl rfl)) (hnot (.inr rfl)), shown]
  simp [toList_showBoard]

/-- What a cell holds stands in its columns of the line of its row. -/
theorem exists_line (p : Pair s) (layout : Layout) {c : Cell} (hc : c.Inside s) :
    ∃ line, (linesOf s layout 0 (p.board c.board))[s.lineOf layout c.row]? = some line ∧
      Text.slice (s.columnOf layout c.col) s.digitWidth line =
        (shownValue s (p.digit c)).toList := by
  have hrow : c.row < (p.board c.board).length := (p.length_board c.board).symm ▸ hc.1
  have hvalues := (p.isBoard_board c.board).2 _ (List.getElem_mem hrow)
  have hcol : c.col < (p.board c.board)[c.row].length := hvalues.1.symm ▸ hc.2
  have hdigit := p.getElem?_board hc
  rw [List.getElem?_eq_getElem hrow, Option.bind_some, List.getElem?_eq_getElem hcol,
    Option.some_inj] at hdigit
  refine ⟨_, getElem?_lineOf hrow, ?_⟩
  rw [slice_shownRow hvalues layout hcol, hdigit]

theorem digit_eq_of_linesOf_eq (layout : Layout) {p q : Pair s} {c : Cell} (hc : c.Inside s)
    (h : linesOf s layout 0 (p.board c.board) = linesOf s layout 0 (q.board c.board)) :
    p.digit c = q.digit c := by
  obtain ⟨line, hline, hp⟩ := p.exists_line layout hc
  obtain ⟨line', hline', hq⟩ := q.exists_line layout hc
  rw [← h, hline, Option.some_inj] at hline'
  rw [← hline', hp] at hq
  exact shownValue_inj (String.toList_inj.1 hq)

theorem shown_injective (layout : Layout) :
    Function.Injective fun p : Pair s => p.shown layout := by
  intro p q h
  have hlines := congrArg (fun text : String => Text.lines text.toList) h
  simp only [lines_shown] at hlines
  obtain ⟨ha, hb⟩ := List.append_inj hlines (by rw [length_linesOf_board, length_linesOf_board])
  refine ext_digit fun c hc => digit_eq_of_linesOf_eq layout hc ?_
  cases c.board with
  | a => exact ha
  | b => exact (List.cons.inj hb).2

/-- A board is shown by lines, and the value of a cell stands in columns of a line that follow from
the cell alone. With frames there is one rule after each band but the last and no other, all lines
have one length, and nothing is subtracted from less on the way to it. No two pairs are shown
alike. -/
theorem shown_aligned_and_injective (s : Size) :
    (∀ (p : Pair s) (g : Board) (layout : Layout),
      let lines := Text.lines (p.showBoard g layout).toList
      (p.showBoard g layout).toList = lines.flatMap (· ++ ['\n']) ∧
      ∀ c : Cell, c.Inside s → c.board = g →
        ∃ line, lines[s.lineOf layout c.row]? = some line ∧
          Text.slice (s.columnOf layout c.col) s.digitWidth line =
            (shownValue s (p.digit c)).toList) ∧
    (∀ (p : Pair s) (g : Board),
      let lines := Text.lines (p.showBoard g .framed).toList
      lines.length + 1 = s.k ^ 2 + s.k ∧
      (∀ line ∈ lines, line.length + 3 = 2 * s.k ^ 2 + 2 * s.k + if 3 < s.k then s.k ^ 2 else 0) ∧
      ∀ i line, lines[i]? = some line →
        if (i + 1) % (s.k + 1) = 0 then line = List.replicate line.length '-' else '-' ∉ line) ∧
    (∀ bits, 8 ≤ bits → Words.ruleWidth bits s = .ok (ruleWidth s)) ∧
    ∀ layout, Function.Injective fun p : Pair s => p.shown layout := by
  have hsquare : s.k ^ 2 = s.side := Nat.pow_two s.k
  refine ⟨?_, ?_, fun _ hbits => Words.ruleWidth_eq hbits s, shown_injective⟩
  · intro p g layout
    rw [lines_showBoard]
    refine ⟨p.toList_showBoard g layout, ?_⟩
    rintro c hc rfl
    exact p.exists_line layout hc
  · intro p g
    rw [lines_showBoard, hsquare]
    refine ⟨length_linesOf_framed p g, ?_, ?_⟩
    · intro line hline
      have hwidth : line.length = ruleWidth s := by
        obtain ⟨i, hi⟩ := List.getElem?_of_mem hline
        have hkind := rule_or_row hi
        split at hkind
        · rw [hkind, List.length_replicate]
        · obtain ⟨row, hrow, rfl⟩ := hkind
          exact length_shownRow ((p.isBoard_board g).2 row hrow)
      have hk := s.k_pos
      have hside := s.side_pos
      rw [hwidth, ruleWidth]
      omega
    · intro i line hi
      have hkind := rule_or_row hi
      split at hkind
      · next hmod => rw [if_pos hmod, hkind, List.length_replicate]
      · next hmod =>
        obtain ⟨row, -, rfl⟩ := hkind
        rw [if_neg hmod]
        intro hmem
        rcases mem_shownRow hmem with h | h | h <;> cases h

end Pair

end TwinSudoku
