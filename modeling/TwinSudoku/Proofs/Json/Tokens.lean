import Mathlib.Data.List.TakeWhile
import TwinSudoku.Json.Printer
import TwinSudoku.Json.Token
import TwinSudoku.Proofs.Json.Escape

/-!
# The tokens of a printed value

* `Json.Typed`: the values that typed data is written as, of whole numbers and texts.
* `Json.tokens`: the tokens of a value.
* `Json.finish`, `Json.scan`: the rest of a reading, from any state and from between two tokens.
* `Json.scan_written`: the text of a value is read as its tokens, at whatever depth it is written
  and whatever follows, unless that goes on with its last number or word.
-/

namespace TwinSudoku.Json

/-- The values of whole numbers and texts. -/
inductive Typed : Json → Prop
  | null : Typed .null
  | bool (b : Bool) : Typed (.bool b)
  | natural (n : Nat) : Typed (.number (.natural n))
  | negative {n : Nat} (hn : n ≠ 0) : Typed (.number (.negative n))
  | text (s : String) : Typed (.text (.plain s))
  | array {items : List Json} (hitems : ∀ v ∈ items, Typed v) : Typed (.array items)
  | object {members : List (Text × Json)} (hkeys : ∀ m ∈ members, ∃ s, m.1 = .plain s)
      (hvalues : ∀ m ∈ members, Typed m.2) : Typed (.object members)

mutual

/-- The tokens of a value. -/
def tokens : Json → List Token
  | .null => [.word none]
  | .bool b => [.word (some b)]
  | .number n => [.number n]
  | .text t => [.text t]
  | .array [] => [.openArray, .closeArray]
  | .array (v :: rest) => .openArray :: (tokens v ++ itemTokens rest ++ [.closeArray])
  | .object [] => [.openObject, .closeObject]
  | .object ((key, v) :: rest) =>
    .openObject :: .text key :: .colon :: (tokens v ++ memberTokens rest ++ [.closeObject])

/-- The tokens of the items after the first. -/
def itemTokens : List Json → List Token
  | [] => []
  | v :: rest => .comma :: (tokens v ++ itemTokens rest)

/-- The tokens of the members after the first. -/
def memberTokens : List (Text × Json) → List Token
  | [] => []
  | (key, v) :: rest => .comma :: .text key :: .colon :: (tokens v ++ memberTokens rest)

end

/-! ## Numbers -/

theorem head?_digits {n : Nat} (hn : n ≠ 0) : (Text.digits n).head? ≠ some '0' := by
  have hdigit : ∀ d : Fin 10, d ≠ 0 → Nat.digitChar d ≠ '0' := by decide
  induction n using Nat.strongRecOn with
  | ind n ih =>
    rw [Text.digits]
    by_cases hsmall : n < 10
    · rw [Nat.toDigits_of_lt_base hsmall, List.head?_cons]
      intro heq
      exact hdigit ⟨n, hsmall⟩ (fun hzero => hn (congrArg Fin.val hzero)) (Option.some.inj heq)
    · rw [Nat.toDigits_of_base_le (by decide) (Nat.le_of_not_lt hsmall),
        List.head?_append_of_ne_nil _ Nat.toDigits_ne_nil]
      exact ih (n / 10) (by omega) (by omega)

theorem wholePart_digits (n : Nat) : wholePart (Text.digits n) = true := by
  by_cases hn : n = 0
  · rw [hn]
    rfl
  · have hhead := head?_digits hn
    have hne := Text.digits_ne_nil n
    unfold wholePart
    split
    · next hnil => exact absurd hnil hne
    · rfl
    · next c rest _ hcons =>
      rw [hcons, List.head?_cons] at hhead
      simpa using hhead

theorem takeWhile_digits (n : Nat) :
    (Text.digits n).takeWhile Char.isDigit = Text.digits n :=
  List.takeWhile_eq_self_iff.2 fun _ => Text.isDigit_of_mem_digits

theorem dropWhile_digits (n : Nat) : (Text.digits n).dropWhile Char.isDigit = [] :=
  List.dropWhile_eq_nil_iff.2 fun _ => Text.isDigit_of_mem_digits

/-- Digits start with no sign. -/
theorem digits_ne_minus (n : Nat) (rest : List Char) : Text.digits n ≠ '-' :: rest := by
  intro heq
  have hdigit : '-'.isDigit := Text.isDigit_of_mem_digits (n := n) (heq ▸ List.mem_cons_self)
  exact absurd hdigit (by decide)

theorem ofDigitChars_digits (n : Nat) : Nat.ofDigitChars 10 (Text.digits n) 0 = n :=
  Nat.ofDigitChars_toDigits (by decide) (by decide)

theorem ofText?_digits (n : Nat) : Number.ofText? (Text.digits n) = some (.natural n) := by
  have hminus : (Text.digits n).head? ≠ some '-' := by
    cases hcs : Text.digits n with
    | nil => exact nofun
    | cons c rest =>
      rintro heq
      exact digits_ne_minus n rest (hcs.trans (by rw [Option.some.inj heq]))
  unfold Number.ofText?
  dsimp only
  split
  · next rest heq => exact absurd heq (digits_ne_minus n rest)
  · rw [takeWhile_digits, dropWhile_digits, wholePart_digits, ofDigitChars_digits,
      beq_eq_false_iff_ne.2 hminus]
    rfl

theorem ofText?_minus {n : Nat} (hn : n ≠ 0) :
    Number.ofText? ('-' :: Text.digits n) = some (.negative n) := by
  simp only [Number.ofText?, takeWhile_digits, dropWhile_digits, wholePart_digits,
    ofDigitChars_digits, if_neg hn]
  rfl

/-! ## Reading on -/

variable {done : List Token} {cs rest : List Char} {depth : Option Nat}

/-- The tokens of a text of which the rest is still to be read, in reverse. -/
def finish (state : Lexing) (rest : List Char) : Option (List Token) :=
  (rest.foldlM readChar state).bind endToken

/-- The same from where no token is begun. -/
def scan (done : List Token) (rest : List Char) : Option (List Token) :=
  finish (.nothing, done) rest

theorem tokens?_eq_scan (cs : List Char) : tokens? cs = (scan [] cs).map List.reverse := by
  rw [tokens?, scan, finish]
  cases cs.foldlM readChar (.nothing, []) with
  | none => rfl
  | some state =>
    show ((endToken state).bind fun done => some done.reverse) = (endToken state).map List.reverse
    rw [Option.map_eq_bind]
    rfl

theorem finish_cons (state : Lexing) (c : Char) (rest : List Char) :
    finish state (c :: rest) = (readChar state c).bind (finish · rest) := by
  rw [finish, List.foldlM_cons]
  exact Option.bind_assoc _ _ _

/-- Whatever is read next, it does not go on with a number or a word. -/
def Ends (rest : List Char) : Prop := ∀ c ∈ rest.head?, isNumeric c = false ∧ c.isLower = false

theorem ends_nil : Ends [] := nofun

theorem ends_cons {c : Char} (hnumeric : isNumeric c = false) (hlower : c.isLower = false)
    (rest : List Char) : Ends (c :: rest) := by
  intro d hd
  obtain rfl := Option.some.inj hd
  exact ⟨hnumeric, hlower⟩

section Run

variable {begun : List Char → Pending} {goesOn : Char → Bool}
  (hread : ∀ written d, readChar (begun written, done) d =
    if goesOn d then some (begun (d :: written), done)
    else (endToken (begun written, done)).bind (beginToken · d))
include hread

/-- A token that is begun takes up what goes on with it. -/
theorem finish_append (hcs : ∀ d ∈ cs, goesOn d) (written rest : List Char) :
    finish (begun written, done) (cs ++ rest) =
      finish (begun (cs.reverse ++ written), done) rest := by
  induction cs generalizing written with
  | nil => rfl
  | cons d cs ih =>
    obtain ⟨hd, hcs⟩ := List.forall_mem_cons.1 hcs
    rw [List.cons_append, finish_cons, hread, if_pos hd, Option.bind_some, ih hcs,
      List.reverse_cons, List.append_assoc, List.singleton_append]

/-- A token that is begun ends where the next character does not go on with it. -/
theorem finish_of_ends (written : List Char) (hrest : ∀ d ∈ rest.head?, goesOn d = false) :
    finish (begun written, done) rest = (endToken (begun written, done)).bind (scan · rest) := by
  cases rest with
  | nil => exact (Option.bind_fun_some _).symm
  | cons d rest =>
    rw [finish_cons, hread, hrest d rfl, if_neg Bool.false_ne_true, Option.bind_assoc]
    exact congrArg _ (funext fun done => (finish_cons (.nothing, done) d rest).symm)

theorem scan_run {c : Char} {token : Token} (hbegin : beginToken done c = some (begun [c], done))
    (hcs : ∀ d ∈ cs, goesOn d)
    (hend : endToken (begun (c :: cs).reverse, done) = some (token :: done))
    (hrest : ∀ d ∈ rest.head?, goesOn d = false) :
    scan done (c :: cs ++ rest) = scan (token :: done) rest := by
  rw [scan, List.cons_append, finish_cons, readChar, hbegin, Option.bind_some,
    finish_append hread hcs, ← List.reverse_cons, finish_of_ends hread _ hrest, hend,
    Option.bind_some]

end Run

theorem isNumeric_of_isDigit {c : Char} (h : c.isDigit) : isNumeric c := by
  simp [isNumeric, h]

/-! ## Single tokens -/

theorem scan_space {c : Char} (hc : isSpace c) (rest : List Char) :
    scan done (c :: rest) = scan done rest := by
  rw [scan, finish_cons, readChar, beginToken, if_pos hc]
  rfl

theorem scan_spaces (hcs : ∀ c ∈ cs, isSpace c) (rest : List Char) :
    scan done (cs ++ rest) = scan done rest := by
  induction cs with
  | nil => rfl
  | cons c cs ih =>
    obtain ⟨hc, hcs⟩ := List.forall_mem_cons.1 hcs
    rw [List.cons_append, scan_space hc, ih hcs]

theorem scan_newLine (depth : Option Nat) (rest : List Char) :
    scan done (newLine depth ++ rest) = scan done rest := by
  cases depth with
  | none => rfl
  | some depth =>
    refine scan_spaces (List.forall_mem_cons.2 ⟨rfl, fun c hc => ?_⟩) rest
    rw [List.eq_of_mem_replicate hc]
    rfl

/-- A sign is a token wherever it stands outside strings. -/
theorem scan_sign (c : Char) {token : Token} (hc : sign? c = some token) (rest : List Char) :
    scan done (c :: rest) = scan (token :: done) rest := by
  rw [scan, finish_cons, readChar]
  unfold sign? at hc
  split at hc
  case h_7 => exact absurd hc nofun
  all_goals
    obtain rfl := Option.some.inj hc
    rfl

theorem beginToken_number {c : Char} (hc : (c.isDigit || c == '-') = true) :
    beginToken done c = some (.number [c], done) := by
  have hspace : isSpace c = false := by
    rw [Bool.eq_false_iff]
    intro hspace
    simp only [isSpace, Bool.or_eq_true, beq_iff_eq] at hspace
    rcases hspace with ((rfl | rfl) | rfl) | rfl
    all_goals exact absurd hc (by decide)
  have hquote : c ≠ '"' := by
    rintro rfl
    exact absurd hc (by decide)
  rw [beginToken, hspace, if_neg Bool.false_ne_true, if_neg hquote, if_pos hc]

theorem scan_number {c : Char} {n : Number} (hc : (c.isDigit || c == '-') = true)
    (hcs : ∀ d ∈ cs, isNumeric d) (hn : Number.ofText? (c :: cs) = some n) (hrest : Ends rest) :
    scan done (c :: cs ++ rest) = scan (.number n :: done) rest := by
  have hend : endToken (.number (c :: cs).reverse, done) = some (.number n :: done) := by
    rw [endToken, List.reverse_reverse, hn]
    rfl
  exact scan_run (fun _ _ => rfl) (beginToken_number hc) hcs hend fun d hd => (hrest d hd).1

theorem scan_natural (n : Nat) (hrest : Ends rest) :
    scan done (Text.digits n ++ rest) = scan (.number (.natural n) :: done) rest := by
  have hn := ofText?_digits n
  have hdigits (d : Char) (hd : d ∈ Text.digits n) : d.isDigit := Text.isDigit_of_mem_digits hd
  cases hcs : Text.digits n with
  | nil => exact absurd hcs (Text.digits_ne_nil n)
  | cons c cs =>
    rw [hcs] at hn hdigits
    obtain ⟨hc, hcs⟩ := List.forall_mem_cons.1 hdigits
    exact scan_number (by rw [hc, Bool.true_or]) (fun d hd => isNumeric_of_isDigit (hcs d hd)) hn
      hrest

theorem scan_negative {n : Nat} (hn : n ≠ 0) (hrest : Ends rest) :
    scan done ('-' :: Text.digits n ++ rest) = scan (.number (.negative n) :: done) rest :=
  scan_number rfl (fun _ hd => isNumeric_of_isDigit (Text.isDigit_of_mem_digits hd))
    (ofText?_minus hn) hrest

theorem scan_letters {c : Char} {token : Token}
    (hbegin : beginToken done c = some (.word [c], done))
    (hcs : cs.all Char.isLower) (hword : word? (c :: cs) = some token) (hrest : Ends rest) :
    scan done (c :: cs ++ rest) = scan (token :: done) rest := by
  have hend : endToken (.word (c :: cs).reverse, done) = some (token :: done) := by
    rw [endToken, List.reverse_reverse, hword]
    rfl
  exact scan_run (fun _ _ => rfl) hbegin (List.all_eq_true.1 hcs) hend fun d hd => (hrest d hd).2

theorem scan_word {letters : List Char} {token : Token} (hword : word? letters = some token)
    (hrest : Ends rest) : scan done (letters ++ rest) = scan (token :: done) rest := by
  have hletters := hword
  unfold word? at hword
  split_ifs at hword with htrue hfalse hnull
  · subst letters
    exact scan_letters rfl rfl hletters hrest
  · subst letters
    exact scan_letters rfl rfl hletters hrest
  · subst letters
    exact scan_letters rfl rfl hletters hrest

/-! ## Strings -/

theorem readChar_itself {c : Char} (hquote : c ≠ '"') (hbackslash : c ≠ '\\')
    (hcontrol : 0x20 ≤ c.toNat) (written : List Char) :
    readChar (.text written, done) c = some (.text (c :: written), done) := by
  rw [readChar, if_neg hquote, if_neg hbackslash, if_neg (Nat.not_lt.2 hcontrol)]

/-- A hexadecimal digit stands in a string as it is. -/
theorem readChar_hex {c : Char} {n : Nat} (h : hexValue? c = some n) (written : List Char) :
    readChar (.text written, done) c = some (.text (c :: written), done) := by
  refine readChar_itself ?_ ?_ ?_ written
  · rintro rfl
    exact absurd h nofun
  · rintro rfl
    exact absurd h nofun
  · by_contra hcontrol
    have hnone : ∀ n : Fin 32, hexValue? (Char.ofNat n) = none := by decide
    have := hnone ⟨c.toNat, Nat.lt_of_not_le hcontrol⟩
    rw [Char.ofNat_toNat, h] at this
    exact absurd this nofun

theorem hexValues_of_hex4? {a b d e : Char} {n : Nat} (h : hex4? a b d e = some n) :
    (∃ m, hexValue? a = some m) ∧ (∃ m, hexValue? b = some m) ∧ (∃ m, hexValue? d = some m) ∧
      ∃ m, hexValue? e = some m := by
  unfold hex4? at h
  obtain ⟨i, hi, h⟩ := Option.bind_eq_some_iff.1 h
  obtain ⟨j, hj, h⟩ := Option.bind_eq_some_iff.1 h
  obtain ⟨k, hk, h⟩ := Option.bind_eq_some_iff.1 h
  obtain ⟨l, hl, -⟩ := Option.bind_eq_some_iff.1 h
  exact ⟨⟨i, hi⟩, ⟨j, hj⟩, ⟨k, hk⟩, ⟨l, hl⟩⟩

/-- What stands for a character belongs to the string it stands in. -/
theorem finish_escaped {c : Char} {form : List Char} (h : Escaped c form)
    (written rest : List Char) :
    finish (.text written, done) (form ++ rest) =
      finish (.text (form.reverse ++ written), done) rest := by
  have hescape (l : Char) (rest : List Char) : finish (.text written, done) ('\\' :: l :: rest) =
      finish (.text (l :: '\\' :: written), done) rest := rfl
  cases h with
  | letter _ => exact hescape _ rest
  | @number a b d e hn =>
    obtain ⟨⟨i, ha⟩, ⟨j, hb⟩, ⟨k, hd⟩, ⟨l, he⟩⟩ := hexValues_of_hex4? hn
    change finish _ ('\\' :: 'u' :: a :: b :: d :: e :: rest) = _
    rw [hescape, finish_cons, readChar_hex ha, Option.bind_some, finish_cons, readChar_hex hb,
      Option.bind_some, finish_cons, readChar_hex hd, Option.bind_some, finish_cons,
      readChar_hex he]
    rfl
  | itself hquote hbackslash hcontrol =>
    change finish _ (c :: rest) = _
    rw [finish_cons, readChar_itself hquote hbackslash hcontrol]
    rfl

theorem finish_encode (written rest : List Char) :
    finish (.text written, done) (encode cs ++ rest) =
      finish (.text ((encode cs).reverse ++ written), done) rest := by
  induction cs generalizing written with
  | nil => rfl
  | cons c cs ih =>
    rw [encode, List.flatMap_cons, List.append_assoc, finish_escaped (escaped_encodeChar c),
      ← encode, ih, List.reverse_append, List.append_assoc]

theorem scan_text (s : String) (rest : List Char) :
    scan done ((Text.plain s).written ++ rest) = scan (.text (.plain s) :: done) rest := by
  have hend : readChar (.text (encode s.toList).reverse, done) '"' =
      some (.nothing, .text (.plain s) :: done) := by
    rw [readChar, if_pos rfl, List.reverse_reverse, decode?_encode]
    rfl
  change finish (.text [], done) (encode s.toList ++ ['"'] ++ rest) = _
  rw [List.append_assoc, finish_encode, List.append_nil, List.singleton_append, finish_cons, hend]
  rfl

/-! ## Values -/

theorem ends_newLine (hrest : Ends rest) (depth : Option Nat) : Ends (newLine depth ++ rest) := by
  cases depth with
  | none => exact hrest
  | some depth => exact ends_cons rfl rfl _

theorem ends_writtenItems (items : List Json) (hrest : Ends rest) (depth : Option Nat) :
    Ends (writtenItems depth items ++ rest) := by
  cases items with
  | nil => exact hrest
  | cons v items => exact ends_cons rfl rfl _

theorem ends_writtenMembers (members : List (Text × Json)) (hrest : Ends rest)
    (depth : Option Nat) : Ends (writtenMembers depth members ++ rest) := by
  cases members with
  | nil => exact hrest
  | cons m members => exact ends_cons rfl rfl _

/-- The text of the value is read as its tokens. -/
def Scans (v : Json) : Prop :=
  ∀ (depth : Option Nat) (done : List Token) (rest : List Char), Ends rest →
    scan done (v.written depth ++ rest) = scan ((tokens v).reverse ++ done) rest

theorem scan_writtenItems {items : List Json} (hitems : ∀ v ∈ items, Scans v)
    (depth : Option Nat) (done : List Token) (hrest : Ends rest) :
    scan done (writtenItems depth items ++ rest) =
      scan ((itemTokens items).reverse ++ done) rest := by
  induction items generalizing done with
  | nil => rfl
  | cons v items ih =>
    obtain ⟨hv, hitems⟩ := List.forall_mem_cons.1 hitems
    rw [writtenItems]
    simp only [List.cons_append, List.append_assoc]
    rw [scan_sign ',' rfl, scan_newLine, hv depth _ _ (ends_writtenItems items hrest depth),
      ih hitems, itemTokens]
    simp

theorem scan_colonMark (depth : Option Nat) (rest : List Char) :
    scan done (colonMark depth ++ rest) = scan (.colon :: done) rest := by
  cases depth with
  | none => exact scan_sign ':' rfl rest
  | some depth => exact (scan_sign ':' rfl _).trans (scan_space rfl rest)

theorem scan_writtenMembers {members : List (Text × Json)}
    (hkeys : ∀ m ∈ members, ∃ s, m.1 = .plain s) (hvalues : ∀ m ∈ members, Scans m.2)
    (depth : Option Nat) (done : List Token) (hrest : Ends rest) :
    scan done (writtenMembers depth members ++ rest) =
      scan ((memberTokens members).reverse ++ done) rest := by
  induction members generalizing done with
  | nil => rfl
  | cons m members ih =>
    obtain ⟨key, v⟩ := m
    obtain ⟨⟨s, rfl⟩, hothers⟩ := List.forall_mem_cons.1 hkeys
    obtain ⟨hv, hrests⟩ := List.forall_mem_cons.1 hvalues
    rw [writtenMembers]
    simp only [List.cons_append, List.append_assoc]
    rw [scan_sign ',' rfl, scan_newLine, scan_text, scan_colonMark,
      hv depth _ _ (ends_writtenMembers members hrest depth), ih hothers hrests, memberTokens]
    simp

theorem scan_array {items : List Json} (hitems : ∀ v ∈ items, Scans v) : Scans (.array items) := by
  intro depth done rest hrest
  cases items with
  | nil => exact (scan_sign '[' rfl _).trans (scan_sign ']' rfl rest)
  | cons v items =>
    obtain ⟨hv, hitems⟩ := List.forall_mem_cons.1 hitems
    have hclose : Ends (newLine depth ++ (']' :: rest)) :=
      ends_newLine (ends_cons rfl rfl rest) depth
    rw [written]
    simp only [List.cons_append, List.append_assoc, List.nil_append]
    rw [scan_sign '[' rfl, scan_newLine, hv _ _ _ (ends_writtenItems items hclose _),
      scan_writtenItems hitems _ _ hclose, scan_newLine, scan_sign ']' rfl, tokens]
    simp

theorem scan_object {members : List (Text × Json)} (hkeys : ∀ m ∈ members, ∃ s, m.1 = .plain s)
    (hvalues : ∀ m ∈ members, Scans m.2) : Scans (.object members) := by
  intro depth done rest hrest
  cases members with
  | nil => exact (scan_sign '\x7b' rfl _).trans (scan_sign '\x7d' rfl rest)
  | cons m members =>
    obtain ⟨key, v⟩ := m
    obtain ⟨⟨s, rfl⟩, hothers⟩ := List.forall_mem_cons.1 hkeys
    obtain ⟨hv, hrests⟩ := List.forall_mem_cons.1 hvalues
    have hclose : Ends (newLine depth ++ ('\x7d' :: rest)) :=
      ends_newLine (ends_cons rfl rfl rest) depth
    rw [written]
    simp only [List.cons_append, List.append_assoc, List.nil_append]
    rw [scan_sign '\x7b' rfl, scan_newLine, scan_text, scan_colonMark,
      hv _ _ _ (ends_writtenMembers members hclose _),
      scan_writtenMembers hothers hrests _ _ hclose, scan_newLine, scan_sign '\x7d' rfl, tokens]
    simp

/-- The text of a value is read as its tokens, whatever stands before and after it. -/
theorem scan_written {v : Json} (hv : Typed v) : Scans v := by
  induction hv with
  | null => exact fun _ _ _ hrest => scan_word rfl hrest
  | bool b =>
    intro depth done rest hrest
    cases b with
    | true => exact scan_word rfl hrest
    | false => exact scan_word rfl hrest
  | natural n => exact fun _ _ _ hrest => scan_natural n hrest
  | negative hn => exact fun _ _ _ hrest => scan_negative hn hrest
  | text s => exact fun _ _ rest _ => scan_text s rest
  | array _ ih => exact scan_array ih
  | object hkeys _ ih => exact scan_object hkeys ih

theorem tokens?_written {v : Json} (hv : Typed v) (depth : Option Nat) :
    tokens? (v.written depth) = some (tokens v) := by
  have hscan := scan_written hv depth [] [] ends_nil
  rw [List.append_nil, List.append_nil] at hscan
  rw [tokens?_eq_scan, hscan]
  exact congrArg some (List.reverse_reverse _)

end TwinSudoku.Json
