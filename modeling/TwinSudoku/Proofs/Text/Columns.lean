import Mathlib.Data.List.Basic
import TwinSudoku.Text.Pieces

/-!
# Texts in columns

Parts of one width with separators between them stand in columns: where a part begins follows from
its number alone.

* `Text.slice`: a piece of a text, given by its first column and its width.
* `Text.length_intercalate`: the length of the parts with their separators.
* `Text.slice_intercalate`: the parts are found again in their columns.
* `Text.slice_slice`: columns within columns.
* `Text.mem_intercalate`: there is nothing but parts and separators. `Text.joined` puts parts
  together in the same way (`Text.joined_eq_intercalate`).
-/

namespace TwinSudoku.Text

variable {α : Type}

/-- The part of a text with the given first column and width. -/
def slice (first width : Nat) (xs : List α) : List α := (xs.drop first).take width

theorem slice_append_self {xs : List α} {width : Nat} (h : xs.length = width) (rest : List α) :
    slice 0 width (xs ++ rest) = xs := List.take_left' h

theorem slice_append_right {before xs : List α} {skipped : Nat} (h : before.length = skipped)
    (first width : Nat) : slice (skipped + first) width (before ++ xs) = slice first width xs := by
  rw [slice, slice, ← List.drop_drop, List.drop_left' h]

/-- Columns that lie in other columns. -/
theorem slice_slice {first width first' width' : Nat} (h : first' + width' ≤ width) (xs : List α) :
    slice first' width' (slice first width xs) = slice (first + first') width' xs := by
  rw [slice, slice, slice, ← List.drop_drop, List.drop_take, List.take_take,
    Nat.min_eq_left (by omega)]

variable {sep : List α} {parts : List (List α)} {width : Nat}

theorem length_intercalate (sep : List α) (h : ∀ part ∈ parts, part.length = width)
    (hne : parts ≠ []) :
    (sep.intercalate parts).length + sep.length = parts.length * (width + sep.length) := by
  induction parts with
  | nil => exact absurd rfl hne
  | cons part rest ih =>
    obtain ⟨hpart, hrest⟩ := List.forall_mem_cons.1 h
    by_cases hnil : rest = []
    · simp [hnil, hpart]
    · rw [List.intercalate_cons_of_ne_nil hnil, List.length_append, List.length_append, hpart,
        Nat.add_assoc, ih hrest hnil, List.length_cons, Nat.add_one_mul, Nat.add_comm]

/-- A part is found by its number, whatever the parts hold. -/
theorem slice_intercalate (sep : List α) (h : ∀ part ∈ parts, part.length = width) {i : Nat}
    (hi : i < parts.length) :
    slice (i * (width + sep.length)) width (sep.intercalate parts) = parts[i] := by
  induction parts generalizing i with
  | nil => exact absurd hi (Nat.not_lt_zero i)
  | cons part rest ih =>
    obtain ⟨hpart, hrest⟩ := List.forall_mem_cons.1 h
    by_cases hnil : rest = []
    · subst hnil
      obtain rfl : i = 0 := by simpa using hi
      simpa using slice_append_self hpart []
    · rw [List.intercalate_cons_of_ne_nil hnil]
      cases i with
      | zero =>
        rw [Nat.zero_mul, List.append_assoc, slice_append_self hpart]
        rfl
      | succ i =>
        have hlen : (part ++ sep).length = width + sep.length := by rw [List.length_append, hpart]
        rw [Nat.add_one_mul, Nat.add_comm, slice_append_right hlen,
          ih hrest (Nat.lt_of_succ_lt_succ hi)]
        rfl

theorem mem_intercalate {x : α} (h : x ∈ sep.intercalate parts) :
    x ∈ sep ∨ ∃ part ∈ parts, x ∈ part := by
  induction parts with
  | nil => simp at h
  | cons part rest ih =>
    by_cases hnil : rest = []
    · rw [hnil, List.intercalate_singleton] at h
      exact .inr ⟨part, List.mem_cons_self, h⟩
    · simp only [List.intercalate_cons_of_ne_nil hnil, List.mem_append] at h
      rcases h with (hpart | hsep) | hrest
      · exact .inr ⟨part, List.mem_cons_self, hpart⟩
      · exact .inl hsep
      · refine (ih hrest).imp id ?_
        rintro ⟨other, hmem, hx⟩
        exact ⟨other, List.mem_cons_of_mem part hmem, hx⟩

theorem joined_eq_intercalate (sep : List Char) (parts : List (List Char)) :
    joined sep parts = sep.intercalate parts := by
  induction parts with
  | nil => rfl
  | cons part rest ih =>
    cases rest with
    | nil => rw [joined, List.intercalate_singleton]
    | cons next rest => rw [joined, ih, List.intercalate_cons_cons]; simp

end TwinSudoku.Text
