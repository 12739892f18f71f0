import Mathlib.Algebra.Ring.Nat
import TwinSudoku.Proofs.Runs
import TwinSudoku.Proofs.Text.Grammar
import TwinSudoku.Uuid

/-!
# The forms of an identifier

* `Uuid.Digits`: the digits of an identifier, capitals or not.
* `Uuid.Spells`: the four forms in which a text may give an identifier.
* `Uuid.ofText?_eq_some_iff`: a text is read as the identifier that it spells.
* `Uuid.ofText?_written`: an identifier is read back from the form that is written.
-/

namespace TwinSudoku.Uuid

/-- The characters are the digits of the identifier, letters in either case. -/
def Digits (id : Uuid) (cs : List Char) : Prop :=
  List.Forall₂ (fun c d => c.toLower = Nat.digitChar d.val) cs id.digits

/-- Digits with hyphens between their groups. -/
def hyphened (cs : List Char) : List Char := Text.joined ['-'] (cut groups cs)

/-- What a text may be to give the identifier. -/
inductive Spells (id : Uuid) : List Char → Prop
  | plain {cs : List Char} (h : id.Digits cs) : Spells id cs
  | hyphened {cs : List Char} (h : id.Digits cs) : Spells id (hyphened cs)
  | braced {cs : List Char} (h : id.Digits cs) : Spells id ('\x7b' :: Uuid.hyphened cs ++ ['\x7d'])
  | urn {label cs : List Char} (hlabel : label.map Char.toLower = "urn:uuid:".toList)
      (h : id.Digits cs) : Spells id (label ++ Uuid.hyphened cs)

/-! ## Digits -/

theorem digit?_eq_some_iff {c : Char} {d : HexDigit} :
    digit? c = some d ↔ c.toLower = Nat.digitChar d.val := by
  by_cases hc : c.toNat < 128
  · have hall : ∀ n : Fin 128, ∀ d : HexDigit,
        digit? (Char.ofNat n) = some d ↔ (Char.ofNat n).toLower = Nat.digitChar d.val := by
      decide +kernel
    have := hall ⟨c.toNat, hc⟩ d
    rwa [Char.ofNat_toNat] at this
  · -- the character is none of those that `digit?` and `Char.toLower` are about
    have hle {e : Char} (he : e.toNat < 128) : ¬ c ≤ e := fun h => hc (Nat.lt_of_le_of_lt h he)
    have hnone : digit? c = none := by
      rw [digit?, if_neg, if_neg fun h => hle (by decide) h.2, if_neg fun h => hle (by decide) h.2]
      rw [Char.isDigit, Bool.and_eq_true, decide_eq_true_eq, decide_eq_true_eq]
      exact fun h => hle (e := '9') (by decide) h.2
    have hlower : c.toLower = c := dif_neg fun h => hle (e := 'Z') (by decide) h.2
    have hdigit : ∀ d : HexDigit, (Nat.digitChar d.val).toNat < 128 := by decide
    rw [hnone, hlower]
    exact ⟨nofun, fun h => absurd (h ▸ hdigit d) hc⟩

theorem ofDigits?_eq_some_iff {cs : List Char} {id : Uuid} :
    ofDigits? cs = some id ↔ id.Digits cs := by
  have hdigits {ds : List HexDigit} : cs.mapM digit? = some ds ↔
      List.Forall₂ (fun c d => c.toLower = Nat.digitChar d.val) cs ds := by
    simp only [mapM_eq_some_iff, digit?_eq_some_iff]
  rw [ofDigits?, Option.bind_eq_bind, Option.bind_eq_some_iff]
  constructor
  · rintro ⟨ds, hds, h⟩
    split at h
    · obtain rfl := Option.some.inj h
      exact hdigits.1 hds
    · exact absurd h nofun
  · intro h
    exact ⟨id.digits, hdigits.2 h, dif_pos id.length_digits⟩

theorem Digits.length_eq {id : Uuid} {cs : List Char} (h : id.Digits cs) : cs.length = 32 :=
  (List.Forall₂.length_eq h).trans id.length_digits

theorem Digits.of_mem {id : Uuid} {cs : List Char} (h : id.Digits cs) {c : Char} (hc : c ∈ cs) :
    ∃ d : HexDigit, c.toLower = Nat.digitChar d.val := by
  obtain ⟨i, hi, rfl⟩ := List.getElem_of_mem hc
  exact ⟨_, List.Forall₂.get h hi (List.Forall₂.length_eq h ▸ hi)⟩

theorem Digits.hyphen_not_mem {id : Uuid} {cs : List Char} (h : id.Digits cs) : '-' ∉ cs := by
  intro hc
  obtain ⟨d, hd⟩ := h.of_mem hc
  have hne : ∀ d : HexDigit, '-'.toLower ≠ Nat.digitChar d.val := by decide
  exact hne d hd

/-! ## Groups -/

section Cut

variable {α : Type}

theorem flatten_cut {lengths : List Nat} {xs : List α} (h : xs.length = lengths.sum) :
    (cut lengths xs).flatten = xs := by
  induction lengths generalizing xs with
  | nil => exact (List.eq_nil_of_length_eq_zero h).symm
  | cons n rest ih =>
    rw [List.sum_cons] at h
    rw [cut, List.flatten_cons, ih (by rw [List.length_drop]; omega), List.take_append_drop]

theorem map_length_cut {lengths : List Nat} {xs : List α} (h : xs.length = lengths.sum) :
    (cut lengths xs).map List.length = lengths := by
  induction lengths generalizing xs with
  | nil => rfl
  | cons n rest ih =>
    rw [List.sum_cons] at h
    rw [cut, List.map_cons, ih (by rw [List.length_drop]; omega), List.length_take,
      Nat.min_eq_left (by omega)]

theorem cut_flatten {parts : List (List α)} :
    cut (parts.map List.length) parts.flatten = parts := by
  induction parts with
  | nil => rfl
  | cons part rest ih =>
    rw [List.map_cons, List.flatten_cons, cut, List.take_left, List.drop_left, ih]

theorem mem_of_mem_cut {lengths : List Nat} {xs part : List α} (hpart : part ∈ cut lengths xs)
    {x : α} (hx : x ∈ part) : x ∈ xs := by
  induction lengths generalizing xs with
  | nil => exact absurd hpart nofun
  | cons n rest ih =>
    rw [cut] at hpart
    rcases List.mem_cons.1 hpart with rfl | hpart
    · exact List.mem_of_mem_take hx
    · exact List.mem_of_mem_drop (ih hpart)

end Cut

theorem pieces_hyphened {id : Uuid} {cs : List Char} (h : id.Digits cs) :
    Text.pieces '-' (hyphened cs) = cut groups cs :=
  Text.pieces_joined (by exact nofun) fun _ hpart hhyphen =>
    h.hyphen_not_mem (mem_of_mem_cut hpart hhyphen)

theorem ofGroups?_eq_some_iff {cs : List Char} {id : Uuid} :
    ofGroups? cs = some id ↔ ∃ ds, id.Digits ds ∧ cs = hyphened ds := by
  rw [ofGroups?]
  constructor
  · intro h
    split at h
    · next hlengths =>
      refine ⟨_, ofDigits?_eq_some_iff.1 h, ?_⟩
      rw [hyphened, ← hlengths, cut_flatten, Text.joined_pieces]
    · exact absurd h nofun
  · rintro ⟨ds, hds, rfl⟩
    have hlength : ds.length = groups.sum := hds.length_eq
    rw [pieces_hyphened hds, if_pos (map_length_cut hlength), flatten_cut hlength]
    exact ofDigits?_eq_some_iff.2 hds

/-! ## Forms -/

theorem length_hyphened {cs : List Char} (h : cs.length = 32) : (hyphened cs).length = 36 := by
  simp [hyphened, groups, cut, Text.joined, h]

/-- With hyphens there is no label, since the text starts with a digit. -/
theorem ofText?_hyphened {id : Uuid} {cs : List Char} (h : id.Digits cs) :
    ofText? (hyphened cs) = some id := by
  have hlength := length_hyphened h.length_eq
  have hlabel : ((hyphened cs).take 9).map Char.toLower ≠ "urn:uuid:".toList := by
    cases cs with
    | nil => exact absurd h.length_eq (by decide)
    | cons c rest =>
      obtain ⟨d, hd⟩ := h.of_mem List.mem_cons_self
      have hne : ∀ d : HexDigit, Nat.digitChar d.val ≠ 'u' := by decide
      exact fun heq => hne d (hd.symm.trans (List.cons.inj heq).1)
  rw [ofText?, if_neg (by omega), if_neg fun hbraced => by omega, if_neg hlabel]
  exact ofGroups?_eq_some_iff.2 ⟨cs, h, rfl⟩

theorem ofText?_braced {id : Uuid} {cs : List Char} (h : id.Digits cs) :
    ofText? ('\x7b' :: hyphened cs ++ ['\x7d']) = some id := by
  have hlength : ('\x7b' :: hyphened cs ++ ['\x7d']).length = 38 := by
    simp [length_hyphened h.length_eq]
  rw [ofText?, if_neg (by omega), if_pos ⟨hlength, rfl, List.getLast?_concat⟩, List.cons_append,
    List.tail_cons, List.dropLast_concat]
  exact ofGroups?_eq_some_iff.2 ⟨cs, h, rfl⟩

theorem ofText?_urn {id : Uuid} {label cs : List Char}
    (hlabel : label.map Char.toLower = "urn:uuid:".toList) (h : id.Digits cs) :
    ofText? (label ++ hyphened cs) = some id := by
  have hnine : label.length = 9 := (List.length_map _).symm.trans (congrArg List.length hlabel)
  have hlength : (label ++ hyphened cs).length = 45 := by
    rw [List.length_append, hnine, length_hyphened h.length_eq]
  rw [ofText?, if_neg (by omega), if_neg fun hbraced => by omega, List.take_left' hnine,
    List.drop_left' hnine, if_pos hlabel]
  exact ofGroups?_eq_some_iff.2 ⟨cs, h, rfl⟩

/-- What stands between a first and a last character. -/
theorem cons_concat_of_ends {cs : List Char} {first last : Char} (hlength : 2 ≤ cs.length)
    (hfirst : cs.head? = some first) (hlast : cs.getLast? = some last) :
    cs = first :: cs.tail.dropLast ++ [last] := by
  cases cs with
  | nil => exact absurd hlength (by decide)
  | cons c rest =>
    obtain rfl := Option.some.inj hfirst
    have hrest : rest ≠ [] := List.ne_nil_of_length_pos (Nat.le_of_succ_le_succ hlength)
    rw [List.getLast?_cons_of_ne_nil hrest] at hlast
    rw [List.tail_cons, List.cons_append, List.dropLast_append_getLast? last hlast]

/-- A text is read as the identifier that it spells. -/
theorem ofText?_eq_some_iff {cs : List Char} {id : Uuid} :
    ofText? cs = some id ↔ id.Spells cs := by
  constructor
  · intro h
    unfold ofText? at h
    split_ifs at h with hplain hbraced hurn
    · exact .plain (ofDigits?_eq_some_iff.1 h)
    · obtain ⟨hlength, hfirst, hlast⟩ := hbraced
      obtain ⟨ds, hds, hcs⟩ := ofGroups?_eq_some_iff.1 h
      rw [cons_concat_of_ends (by omega) hfirst hlast, hcs]
      exact .braced hds
    · obtain ⟨ds, hds, hcs⟩ := ofGroups?_eq_some_iff.1 h
      rw [← List.take_append_drop 9 cs, hcs]
      exact .urn hurn hds
    · obtain ⟨ds, hds, rfl⟩ := ofGroups?_eq_some_iff.1 h
      exact .hyphened hds
  · intro h
    cases h with
    | plain h =>
      rw [ofText?, if_pos h.length_eq]
      exact ofDigits?_eq_some_iff.2 h
    | hyphened h => exact ofText?_hyphened h
    | braced h => exact ofText?_braced h
    | urn hlabel h => exact ofText?_urn hlabel h

/-- An identifier is read back from the form that is written. -/
theorem ofText?_written (id : Uuid) : ofText? id.written = some id := by
  have hlower : ∀ d : HexDigit, (Nat.digitChar d.val).toLower = Nat.digitChar d.val := by decide
  refine ofText?_eq_some_iff.2 (.hyphened ?_)
  exact List.forall₂_map_left_iff.2 (List.forall₂_same.2 fun d _ => hlower d)

end TwinSudoku.Uuid
