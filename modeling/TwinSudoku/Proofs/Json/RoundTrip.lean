import TwinSudoku.Json.Reader
import TwinSudoku.Proofs.Json.Tokens

/-!
# Printed values are read back

* `Json.read_tokens`: the tokens of a value supply the value, to whatever is not yet closed.
* `Json.parse?_written`, `Json.parse?_print`: a value of whole numbers and texts is read back from
  its text, over several lines or in one.
-/

namespace TwinSudoku.Json

/-- The tokens of the value are read as the value. -/
def Reads (v : Json) : Prop :=
  ∀ (stack : List Frame) (rest : List Token),
    (tokens v ++ rest).foldlM readToken (.value stack) = rest.foldlM readToken (supply v stack)

/-- A value does not start with the end of an array. -/
theorem exists_tokens_cons (v : Json) :
    ∃ token rest, tokens v = token :: rest ∧ token ≠ .closeArray := by
  cases v with
  | null => exact ⟨_, [], rfl, nofun⟩
  | bool b => exact ⟨_, [], rfl, nofun⟩
  | number n => exact ⟨_, [], rfl, nofun⟩
  | text t => exact ⟨_, [], rfl, nofun⟩
  | array items =>
    cases items with
    | nil => exact ⟨_, _, rfl, nofun⟩
    | cons v items => exact ⟨_, _, rfl, nofun⟩
  | object members =>
    cases members with
    | nil => exact ⟨_, _, rfl, nofun⟩
    | cons m members => exact ⟨_, _, rfl, nofun⟩

theorem readToken_firstItem {token : Token} (h : token ≠ .closeArray) (stack : List Frame) :
    readToken (.firstItem stack) token = readToken (.value (.array [] :: stack)) token := by
  cases token with
  | closeArray => exact absurd rfl h
  | _ => rfl

theorem read_firstItem {v : Json} (hv : Reads v) (stack : List Frame) (rest : List Token) :
    (tokens v ++ rest).foldlM readToken (.firstItem stack) =
      rest.foldlM readToken (.afterItem [v] stack) := by
  obtain ⟨token, others, htokens, hne⟩ := exists_tokens_cons v
  refine Eq.trans ?_ (hv (.array [] :: stack) rest)
  rw [htokens, List.cons_append, List.foldlM_cons, List.foldlM_cons, readToken_firstItem hne]

theorem read_itemTokens {items : List Json} (hitems : ∀ v ∈ items, Reads v) (read : List Json)
    (stack : List Frame) (rest : List Token) :
    (itemTokens items ++ rest).foldlM readToken (.afterItem read stack) =
      rest.foldlM readToken (.afterItem (items.reverse ++ read) stack) := by
  induction items generalizing read with
  | nil => rfl
  | cons v items ih =>
    obtain ⟨hv, hitems⟩ := List.forall_mem_cons.1 hitems
    rw [itemTokens, List.cons_append, List.foldlM_cons, List.append_assoc]
    refine (hv (.array read :: stack) _).trans ((ih hitems (v :: read)).trans ?_)
    rw [List.reverse_cons, List.append_assoc, List.singleton_append]

theorem read_memberTokens {members : List (Text × Json)} (hvalues : ∀ m ∈ members, Reads m.2)
    (read : List (Text × Json)) (stack : List Frame) (rest : List Token) :
    (memberTokens members ++ rest).foldlM readToken (.afterMember read stack) =
      rest.foldlM readToken (.afterMember (members.reverse ++ read) stack) := by
  induction members generalizing read with
  | nil => rfl
  | cons m members ih =>
    obtain ⟨key, v⟩ := m
    obtain ⟨hv, hvalues⟩ := List.forall_mem_cons.1 hvalues
    rw [memberTokens]
    simp only [List.cons_append, List.append_assoc]
    refine (hv (.object read key :: stack) _).trans ((ih hvalues ((key, v) :: read)).trans ?_)
    rw [List.reverse_cons, List.append_assoc, List.singleton_append]

theorem read_array {items : List Json} (hitems : ∀ v ∈ items, Reads v) : Reads (.array items) := by
  intro stack rest
  cases items with
  | nil => rfl
  | cons v items =>
    obtain ⟨hv, hitems⟩ := List.forall_mem_cons.1 hitems
    rw [tokens]
    simp only [List.cons_append, List.append_assoc]
    refine (read_firstItem hv stack _).trans ((read_itemTokens hitems [v] stack _).trans ?_)
    rw [List.foldlM_cons, readToken, ← List.reverse_cons, List.reverse_reverse]
    rfl

theorem read_object {members : List (Text × Json)} (hvalues : ∀ m ∈ members, Reads m.2) :
    Reads (.object members) := by
  intro stack rest
  cases members with
  | nil => rfl
  | cons m members =>
    obtain ⟨key, v⟩ := m
    obtain ⟨hv, hvalues⟩ := List.forall_mem_cons.1 hvalues
    rw [tokens]
    simp only [List.cons_append, List.append_assoc]
    refine (hv (.object [] key :: stack) _).trans
      ((read_memberTokens hvalues [(key, v)] stack _).trans ?_)
    rw [List.foldlM_cons, readToken, ← List.reverse_cons, List.reverse_reverse]
    rfl

/-- The tokens of a value supply the value, whatever stands before and after it. -/
theorem read_tokens {v : Json} (hv : Typed v) : Reads v := by
  induction hv with
  | null => exact fun _ _ => rfl
  | bool b => exact fun _ _ => rfl
  | natural n => exact fun _ _ => rfl
  | negative hn => exact fun _ _ => rfl
  | text s => exact fun _ _ => rfl
  | array _ ih => exact read_array ih
  | object _ _ ih => exact read_object ih

theorem ofTokens?_tokens {v : Json} (hv : Typed v) : ofTokens? (tokens v) = some v := by
  have hread := read_tokens hv [] []
  rw [List.append_nil] at hread
  rw [ofTokens?, hread]
  rfl

/-- A value of whole numbers and texts is read back from its text. -/
theorem parse?_written {v : Json} (hv : Typed v) (depth : Option Nat) :
    parse? (String.ofList (v.written depth)) = some v := by
  rw [parse?, String.toList_ofList, tokens?_written hv, Option.bind_some, ofTokens?_tokens hv]

theorem parse?_print {v : Json} (hv : Typed v) : parse? v.print = some v :=
  parse?_written hv (some 0)

theorem parse?_compact {v : Json} (hv : Typed v) : parse? v.compact = some v :=
  parse?_written hv none

end TwinSudoku.Json
