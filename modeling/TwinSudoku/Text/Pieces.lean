/-!
# Texts cut at a separator

* `pieces`: the parts of a text between separators, one more than there are separators.
* `joined`: parts put together with a separator between them. It undoes `pieces`
  (`joined_pieces`), and `pieces` undoes it when no part holds the separator
  (`pieces_joined`).
* `lines`: the lines of a text. Each ends at a line feed, and one carriage return before it
  belongs to the line end; a text that ends with a line feed has no further line.
-/

namespace TwinSudoku.Text

def pieces (sep : Char) : List Char → List (List Char)
  | [] => [[]]
  | c :: cs =>
    if c = sep then [] :: pieces sep cs
    else
      match pieces sep cs with
      | [] => [[c]]
      | piece :: rest => (c :: piece) :: rest

/-- The parts with a separator between each two. -/
def joined (sep : List Char) : List (List Char) → List Char
  | [] => []
  | [piece] => piece
  | piece :: rest => piece ++ sep ++ joined sep rest

theorem pieces_ne_nil (sep : Char) (cs : List Char) : pieces sep cs ≠ [] := by
  cases cs with
  | nil => simp [pieces]
  | cons c cs =>
    rw [pieces]
    split
    · simp
    · split <;> simp

theorem joined_pieces (sep : Char) (cs : List Char) : joined [sep] (pieces sep cs) = cs := by
  induction cs with
  | nil => rfl
  | cons c cs ih =>
    rw [pieces]
    split
    · next h =>
      cases hp : pieces sep cs with
      | nil => exact absurd hp (pieces_ne_nil sep cs)
      | cons piece rest => rw [hp] at ih; simp [joined, ih, h]
    · cases hp : pieces sep cs with
      | nil => exact absurd hp (pieces_ne_nil sep cs)
      | cons piece rest =>
        rw [hp] at ih
        cases rest with
        | nil => simpa [joined] using ih
        | cons next rest => simpa [joined] using ih

theorem pieces_append {sep : Char} {piece : List Char} (h : sep ∉ piece) (rest : List Char) :
    pieces sep (piece ++ sep :: rest) = piece :: pieces sep rest := by
  induction piece with
  | nil => simp [pieces]
  | cons c cs ih =>
    simp only [List.mem_cons, not_or] at h
    rw [List.cons_append, pieces, if_neg (Ne.symm h.1), ih h.2]

theorem pieces_of_not_mem {sep : Char} {piece : List Char} (h : sep ∉ piece) :
    pieces sep piece = [piece] := by
  induction piece with
  | nil => rfl
  | cons c cs ih =>
    simp only [List.mem_cons, not_or] at h
    rw [pieces, if_neg (Ne.symm h.1), ih h.2]

theorem pieces_joined {sep : Char} {parts : List (List Char)} (hne : parts ≠ [])
    (h : ∀ part ∈ parts, sep ∉ part) : pieces sep (joined [sep] parts) = parts := by
  induction parts with
  | nil => exact absurd rfl hne
  | cons part rest ih =>
    cases rest with
    | nil => exact pieces_of_not_mem (h part (by simp))
    | cons next rest =>
      rw [joined, List.append_assoc, List.singleton_append, pieces_append (h part (by simp)),
        ih (by simp) fun p hp => h p (List.mem_cons_of_mem _ hp)]
      simp

/-- A line without the carriage return at its end, if it has one. -/
def chomp (line : List Char) : List Char :=
  if line.getLast? = some '\r' then line.dropLast else line

/-- The lines of a text cut at its line feeds: the last part is no line when it is empty, and
keeps a carriage return. -/
def linesOf : List (List Char) → List (List Char)
  | [] => []
  | [[]] => []
  | [last] => [last]
  | line :: rest => chomp line :: linesOf rest

def lines (cs : List Char) : List (List Char) := linesOf (pieces '\n' cs)

end TwinSudoku.Text
