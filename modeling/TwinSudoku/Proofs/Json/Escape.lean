import Mathlib.Data.List.Basic
import TwinSudoku.Json.Escape

/-!
# Escapes are undone by reading

* `Json.Escaped`: a character and the forms that stand for it in a string.
* `Json.escaped_encodeChar`: the form that is written is one of them.
* `Json.decode?_encode`: the written form of a text stands for the text.
-/

namespace TwinSudoku.Json

/-! ## One character -/

/-- A character and what stands for it in a string: the letter of a short escape or four
hexadecimal digits after a backslash, or the character itself. -/
inductive Escaped (c : Char) : List Char → Prop
  | letter {l : Char} (hl : unescapeLetter? l = some c) : Escaped c ['\\', l]
  | number {a b d e : Char} (hn : hex4? a b d e = some c.toNat) : Escaped c ['\\', 'u', a, b, d, e]
  | itself (hquote : c ≠ '"') (hbackslash : c ≠ '\\') (hcontrol : 0x20 ≤ c.toNat) : Escaped c [c]

theorem hexValue?_digitChar {n : Nat} (h : n < 16) : hexValue? (Nat.digitChar n) = some n :=
  have hall : ∀ n : Fin 16, hexValue? (Nat.digitChar n) = some n.val := by decide
  hall ⟨n, h⟩

theorem hex4?_digitChars {n : Nat} (h : n < 0x10000) :
    hex4? (Nat.digitChar (n / 4096 % 16)) (Nat.digitChar (n / 256 % 16))
      (Nat.digitChar (n / 16 % 16)) (Nat.digitChar (n % 16)) = some n := by
  have hdigit (m : Nat) : hexValue? (Nat.digitChar (m % 16)) = some (m % 16) :=
    hexValue?_digitChar (Nat.mod_lt m (by decide))
  rw [hex4?, hdigit, hdigit, hdigit, hdigit]
  refine congrArg some ?_
  show ((n / 4096 % 16 * 16 + n / 256 % 16) * 16 + n / 16 % 16) * 16 + n % 16 = n
  omega

theorem unescapeLetter?_of_escapeLetter? {c l : Char} (h : escapeLetter? c = some l) :
    unescapeLetter? l = some c := by
  unfold escapeLetter? at h
  split_ifs at h with hquote hbackslash hback hfeed hline hreturn htab
  all_goals
    obtain rfl := Option.some.inj h
    subst c
    rfl

/-- What is written for a character stands for it. -/
theorem escaped_encodeChar (c : Char) : Escaped c (encodeChar c) := by
  unfold encodeChar
  split
  · next l hl => exact .letter (unescapeLetter?_of_escapeLetter? hl)
  · next hl =>
    split
    · next hcontrol => exact .number (hex4?_digitChars (Nat.lt_trans hcontrol (by decide)))
    · next hcontrol =>
      refine .itself ?_ ?_ (Nat.le_of_not_lt hcontrol)
      · rintro rfl
        exact absurd hl (by decide)
      · rintro rfl
        exact absurd hl (by decide)

theorem units?_escaped {c : Char} {form : List Char} (h : Escaped c form) (rest : List Char) :
    units? (form ++ rest) = (units? rest).map (c.toNat :: ·) := by
  cases h with
  | @letter l hl =>
    have hu : l ≠ 'u' := by
      rintro rfl
      exact absurd hl nofun
    change units? ('\\' :: l :: rest) = _
    rw [units?.eq_3 l rest fun _ _ _ _ _ h => absurd h hu, hl]
    cases units? rest <;> rfl
  | @number a b d e hn =>
    change units? ('\\' :: 'u' :: a :: b :: d :: e :: rest) = _
    rw [units?, hn]
    cases units? rest <;> rfl
  | itself _ hbackslash _ =>
    change units? (c :: rest) = _
    rw [units?.eq_5 c rest (fun _ _ _ _ _ h => absurd h hbackslash)
      (fun _ _ h => absurd h hbackslash) (fun h => absurd h hbackslash)]
    cases units? rest <;> rfl

/-! ## Texts -/

theorem units?_encode (cs : List Char) : units? (encode cs) = some (cs.map Char.toNat) := by
  induction cs with
  | nil => rfl
  | cons c cs ih =>
    rw [encode, List.flatMap_cons, units?_escaped (escaped_encodeChar c), ← encode, ih]
    rfl

/-- No character is half of a surrogate pair. -/
theorem not_surrogate (c : Char) : isHigh c.toNat = false ∧ isLow c.toNat = false := by
  have hvalid : c.toNat < 0xd800 ∨ 0xdfff < c.toNat ∧ c.toNat < 0x110000 := c.valid
  simp only [isHigh, isLow, Bool.and_eq_false_iff, decide_eq_false_iff_not]
  omega

theorem characters?_toNat (cs : List Char) : characters? (cs.map Char.toNat) = some cs := by
  induction cs with
  | nil => rfl
  | cons c cs ih =>
    obtain ⟨hhigh, hlow⟩ := not_surrogate c
    cases cs with
    | nil =>
      rw [List.map_cons, List.map_nil, characters?, hhigh, hlow, Char.ofNat_toNat]
      rfl
    | cons d cs =>
      rw [List.map_cons] at ih
      rw [List.map_cons, List.map_cons, characters?.eq_3, hhigh, hlow, ih, Char.ofNat_toNat]
      rfl

/-- The written form of a text stands for the text. -/
theorem decode?_encode (s : String) : decode? (encode s.toList) = some (.plain s) := by
  rw [decode?, units?_encode, Option.bind_eq_bind, Option.bind_some, characters?_toNat]
  exact congrArg (fun text => some (Text.plain text)) String.ofList_toList

end TwinSudoku.Json
