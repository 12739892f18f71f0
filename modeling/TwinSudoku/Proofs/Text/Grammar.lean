import Mathlib.Data.List.TakeWhile
import TwinSudoku.Text.Blank
import TwinSudoku.Text.Decimal
import TwinSudoku.Text.Pieces

/-!
# What is read off a text, said without reading it

Each reader of a text has beside it the relation between the text and what it gives. None of these
relations computes anything: they say how the text is put together.

* `Text.Lines`: a text and its lines, by the way each of them ends.
* `Text.Parts`: a text and its parts between separators.
* `Text.Trims`: a text and what is left of it without the white space at its ends.
* `Text.Numeral`: the numerals of an integer.
* `lines_iff`, `parts_iff`, `trims_iff`, `integer64?_eq_some_iff`: each text has just what the
  reader gives.
-/

namespace TwinSudoku.Text

/-! ## Parts -/

/-- The parts are separated by `sep` in the text, and there is no other `sep` in it. -/
structure Parts (sep : Char) (cs : List Char) (parts : List (List Char)) : Prop where
  ne_nil : parts ≠ []
  not_mem : ∀ part ∈ parts, sep ∉ part
  joined : joined [sep] parts = cs

theorem not_mem_of_mem_pieces {sep : Char} {cs piece : List Char} (h : piece ∈ pieces sep cs) :
    sep ∉ piece := by
  induction cs generalizing piece with
  | nil =>
    rw [pieces, List.mem_singleton] at h
    simp [h]
  | cons c cs ih =>
    rw [pieces] at h
    split at h
    · rcases List.mem_cons.1 h with rfl | h
      · simp
      · exact ih h
    · next hc =>
      cases hp : pieces sep cs with
      | nil => exact absurd hp (pieces_ne_nil sep cs)
      | cons first rest =>
        rw [hp] at h ih
        rcases List.mem_cons.1 h with rfl | h
        · exact List.not_mem_cons_of_ne_of_not_mem (Ne.symm hc) (ih List.mem_cons_self)
        · exact ih (List.mem_cons_of_mem first h)

theorem parts_iff {sep : Char} {cs : List Char} {parts : List (List Char)} :
    Parts sep cs parts ↔ parts = pieces sep cs := by
  constructor
  · rintro ⟨hne, hmem, rfl⟩
    exact (pieces_joined hne hmem).symm
  · rintro rfl
    exact ⟨pieces_ne_nil sep cs, fun _ => not_mem_of_mem_pieces, joined_pieces sep cs⟩

/-! ## Lines -/

/-- A text and its lines. A line ends at a line feed, and a carriage return just before that is no
part of the line. What follows the last line feed is a line too, unless there is nothing. -/
inductive Lines : List Char → List (List Char) → Prop
  | nil : Lines [] []
  | last {line : List Char} (hne : line ≠ []) (hfeed : '\n' ∉ line) : Lines line [line]
  | feed {line rest : List Char} {lines : List (List Char)} (hfeed : '\n' ∉ line)
      (hreturn : line.getLast? ≠ some '\r') (hrest : Lines rest lines) :
      Lines (line ++ '\n' :: rest) (line :: lines)
  | returnFeed {line rest : List Char} {lines : List (List Char)} (hfeed : '\n' ∉ line)
      (hrest : Lines rest lines) : Lines (line ++ '\r' :: '\n' :: rest) (line :: lines)

theorem chomp_of_getLast? {line : List Char} (h : line.getLast? ≠ some '\r') :
    chomp line = line := if_neg h

theorem chomp_append_return (line : List Char) : chomp (line ++ ['\r']) = line := by
  rw [chomp, if_pos List.getLast?_concat, List.dropLast_concat]

theorem linesOf_cons {rest : List (List Char)} (h : rest ≠ []) (line : List Char) :
    linesOf (line :: rest) = chomp line :: linesOf rest :=
  linesOf.eq_4 _ _ (fun _ h' => h h') h

theorem linesOf_singleton {line : List Char} (h : line ≠ []) : linesOf [line] = [line] :=
  linesOf.eq_3 _ h

theorem lines_append {line : List Char} (h : '\n' ∉ line) (rest : List Char) :
    lines (line ++ '\n' :: rest) = chomp line :: lines rest := by
  rw [lines, pieces_append h, linesOf_cons (pieces_ne_nil _ _), lines]

/-- Parts without a line feed are the lines of the text in which they are separated by line feeds,
up to the way in which lines end. -/
theorem lines_joined {parts : List (List Char)} (hne : parts ≠ [])
    (h : ∀ part ∈ parts, '\n' ∉ part) : Lines (joined ['\n'] parts) (linesOf parts) := by
  induction parts with
  | nil => exact absurd rfl hne
  | cons part rest ih =>
    have hpart := h part List.mem_cons_self
    cases rest with
    | nil =>
      by_cases hnil : part = []
      · subst hnil
        exact .nil
      · rw [linesOf_singleton hnil]
        exact .last hnil hpart
    | cons next rest =>
      have hrest := ih (by simp) fun other hother => h other (List.mem_cons_of_mem part hother)
      rw [linesOf_cons (by simp), joined.eq_3 _ _ _ (by simp), List.append_assoc,
        List.singleton_append]
      by_cases hreturn : part.getLast? = some '\r'
      · obtain ⟨line, rfl⟩ := List.getLast?_eq_some_iff.1 hreturn
        rw [chomp_append_return, List.append_assoc, List.singleton_append]
        exact .returnFeed (fun hmem => hpart (List.mem_append_left _ hmem)) hrest
      · rw [chomp_of_getLast? hreturn]
        exact .feed hpart hreturn hrest

theorem lines_iff {cs : List Char} {ls : List (List Char)} : Lines cs ls ↔ ls = lines cs := by
  constructor
  · intro h
    induction h with
    | nil => rfl
    | last hne hfeed => rw [lines, pieces_of_not_mem hfeed, linesOf_singleton hne]
    | feed hfeed hreturn _ ih => rw [lines_append hfeed, chomp_of_getLast? hreturn, ih]
    | @returnFeed line rest ls hfeed _ ih =>
      have hfeed' : '\n' ∉ line ++ ['\r'] := by simp [hfeed]
      have hlines := lines_append hfeed' rest
      rw [List.append_assoc, List.singleton_append, chomp_append_return] at hlines
      rw [hlines, ih]
  · rintro rfl
    have h := lines_joined (pieces_ne_nil '\n' cs) fun _ => not_mem_of_mem_pieces
    rwa [joined_pieces] at h

/-! ## White space -/

/-- The text has white space before and after what is left, which has none at its ends. -/
def Trims (cs left : List Char) : Prop :=
  ∃ before after, cs = before ++ (left ++ after) ∧ blank before ∧ blank after ∧
    (∀ c ∈ left.head?, isBlank c = false) ∧ ∀ c ∈ left.getLast?, isBlank c = false

theorem dropWhile_of_head? {cs : List Char} (h : ∀ c ∈ cs.head?, isBlank c = false) :
    cs.dropWhile isBlank = cs := by
  cases cs with
  | nil => rfl
  | cons c rest => rw [List.dropWhile_cons_of_neg (by simp [h c rfl])]

theorem head?_dropWhile {cs : List Char} {c : Char} (h : c ∈ (cs.dropWhile isBlank).head?) :
    isBlank c = false := by
  have := List.head?_dropWhile_not isBlank cs
  rw [h] at this
  exact this

theorem trimEnd_append {left after : List Char} (hafter : blank after)
    (h : ∀ c ∈ left.getLast?, isBlank c = false) : trimEnd (left ++ after) = left := by
  rw [trimEnd, List.reverse_append, List.dropWhile_append_of_pos (by simpa [blank] using hafter),
    dropWhile_of_head? (by rwa [List.head?_reverse]), List.reverse_reverse]

theorem trim_of_trims {cs left : List Char} (h : Trims cs left) : trim cs = left := by
  obtain ⟨before, after, rfl, hbefore, hafter, hhead, hlast⟩ := h
  rw [trim, List.dropWhile_append_of_pos (by simpa [blank] using hbefore)]
  cases left with
  | nil =>
    rw [List.nil_append, List.dropWhile_eq_nil_iff.2 (by simpa [blank] using hafter)]
    rfl
  | cons c rest =>
    rw [List.cons_append, dropWhile_of_head? (by simpa using hhead), ← List.cons_append,
      trimEnd_append hafter hlast]

theorem trims_trim (cs : List Char) : Trims cs (trim cs) := by
  let rest := cs.dropWhile isBlank
  have hrest : trim cs ++ (rest.reverse.takeWhile isBlank).reverse = rest := by
    rw [trim, trimEnd, ← List.reverse_append, List.takeWhile_append_dropWhile, List.reverse_reverse]
  refine ⟨cs.takeWhile isBlank, (rest.reverse.takeWhile isBlank).reverse, ?_, ?_, ?_, ?_, ?_⟩
  · rw [hrest, List.takeWhile_append_dropWhile]
  · exact List.all_takeWhile
  · rw [blank, List.all_reverse]
    exact List.all_takeWhile
  · intro c hc
    apply head?_dropWhile (c := c)
    show c ∈ rest.head?
    rw [← hrest, List.head?_append, Option.mem_def.1 hc]
    rfl
  · intro c hc
    apply head?_dropWhile (c := c)
    rwa [trim, trimEnd, List.getLast?_reverse] at hc

theorem trims_iff {cs left : List Char} : Trims cs left ↔ left = trim cs :=
  ⟨fun h => (trim_of_trims h).symm, fun h => h ▸ trims_trim cs⟩

/-! ## Numerals -/

/-- The numerals of an integer: some digits, perhaps with a sign before them. -/
inductive Numeral : List Char → Int → Prop
  | unsigned {ds : List Char} (hne : ds ≠ []) (hds : ∀ c ∈ ds, c.isDigit) :
      Numeral ds (Nat.ofDigitChars 10 ds 0)
  | plus {ds : List Char} (hne : ds ≠ []) (hds : ∀ c ∈ ds, c.isDigit) :
      Numeral ('+' :: ds) (Nat.ofDigitChars 10 ds 0)
  | minus {ds : List Char} (hne : ds ≠ []) (hds : ∀ c ∈ ds, c.isDigit) :
      Numeral ('-' :: ds) (-(Nat.ofDigitChars 10 ds 0 : Nat))

theorem natural?_eq_some_iff {cs : List Char} {n : Nat} :
    natural? cs = some n ↔
      cs ≠ [] ∧ (∀ c ∈ cs, c.isDigit) ∧ n = Nat.ofDigitChars 10 cs 0 := by
  rw [natural?, ← and_assoc, ← List.all_eq_true]
  split
  · next h =>
    exact ⟨fun heq => ⟨h, (Option.some.inj heq).symm⟩, fun heq => congrArg some heq.2.symm⟩
  · next h => exact ⟨fun heq => absurd heq (by simp), fun heq => absurd heq.1 h⟩

theorem natural?_cast_eq_some_iff {cs : List Char} {z : Int} :
    (do let n ← natural? cs; pure (n : Int) : Option Int) = some z ↔
      cs ≠ [] ∧ (∀ c ∈ cs, c.isDigit) ∧ z = (Nat.ofDigitChars 10 cs 0 : Nat) := by
  rw [Option.bind_eq_bind, Option.bind_eq_some_iff]
  simp only [natural?_eq_some_iff]
  constructor
  · rintro ⟨n, ⟨hne, hds, rfl⟩, hz⟩
    exact ⟨hne, hds, (Option.some.inj hz).symm⟩
  · rintro ⟨hne, hds, rfl⟩
    exact ⟨_, ⟨hne, hds, rfl⟩, rfl⟩

theorem integer?_eq_some_iff {cs : List Char} {z : Int} : integer? cs = some z ↔ Numeral cs z := by
  constructor
  · intro h
    rw [integer?.eq_def] at h
    split at h
    all_goals
      obtain ⟨n, hn, rfl⟩ := Option.map_eq_some_iff.1 h
      obtain ⟨hne, hds, rfl⟩ := natural?_cast_eq_some_iff.1 hn
    · exact .plus hne hds
    · exact .minus hne hds
    · exact .unsigned hne hds
  · intro h
    cases h with
    | unsigned hne hds =>
      -- the first digit is no sign
      have hplus (rest : List Char) (heq : cs = '+' :: rest) : False := by
        have := hds '+' (heq ▸ List.mem_cons_self)
        contradiction
      have hminus (rest : List Char) (heq : cs = '-' :: rest) : False := by
        have := hds '-' (heq ▸ List.mem_cons_self)
        contradiction
      rw [integer?.eq_3 cs hplus hminus, natural?_cast_eq_some_iff.2 ⟨hne, hds, rfl⟩]
      rfl
    | plus hne hds =>
      rw [integer?, natural?_cast_eq_some_iff.2 ⟨hne, hds, rfl⟩]
      rfl
    | minus hne hds =>
      rw [integer?, natural?_cast_eq_some_iff.2 ⟨hne, hds, rfl⟩]
      rfl

/-- A text is read as an integer of 64 bits just if it is one of its numerals. -/
theorem integer64?_eq_some_iff {cs : List Char} {z : Int} :
    integer64? cs = some z ↔ Numeral cs z ∧ least64 ≤ z ∧ z ≤ greatest64 := by
  rw [integer64?, Option.filter_eq_some_iff, integer?_eq_some_iff, decide_eq_true_eq]

end TwinSudoku.Text
