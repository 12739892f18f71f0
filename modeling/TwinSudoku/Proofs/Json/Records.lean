import Mathlib.Data.List.Nodup
import TwinSudoku.Json.Fields
import TwinSudoku.Proofs.Json.RoundTrip
import TwinSudoku.Proofs.Runs

/-!
# Typed data in JSON values, said without reading it

* `Json.HasFields`: what a value has for the names of the fields of a record.
* `Json.fields?_eq_some_iff`: a value is read as the fields that it has.
* `Json.hasFields_record`: a record that is written has the fields it is written with.
* `Json.word64?_eq_some_iff`, `Json.string?_eq_some_iff` and the like: single values are read from
  what is written for them and from nothing else.
-/

namespace TwinSudoku.Json

/-! ## Records -/

/-- An object has the name at most once, and with it the value, if there is one. -/
structure HasMember (members : List (Text × Json)) (name : String) (field : Option Json) :
    Prop where
  once : (members.map Prod.fst).count (.plain name) ≤ 1
  value : ∀ v, field = some v ↔ (.plain name, v) ∈ members

/-- What a value has for the names of the fields of a record. The members of an object may stand in
any order and among others, whose names are texts as well. An array has the fields in order, and
may lack the last ones. -/
inductive HasFields (names : List String) : Json → List (Option Json) → Prop
  | object {members : List (Text × Json)} {fields : List (Option Json)}
      (hkeys : ∀ m ∈ members, ∃ key, m.1 = .plain key)
      (hfields : List.Forall₂ (HasMember members) names fields) :
      HasFields names (.object members) fields
  | array {items : List Json} {missing : Nat} (hlength : items.length + missing = names.length) :
      HasFields names (.array items) (items.map some ++ List.replicate missing none)

theorem HasFields.length_eq {names : List String} {v : Json} {fields : List (Option Json)}
    (h : HasFields names v fields) : fields.length = names.length := by
  cases h with
  | object _ hfields => exact hfields.length_eq.symm
  | array hlength => rw [List.length_append, List.length_map, List.length_replicate, hlength]

section Members

variable {members : List (Text × Json)} {name : String}

theorem count_eq_length_filter (members : List (Text × Json)) (key : Text) :
    (members.map Prod.fst).count key = (members.filter fun m => m.1 == key).length := by
  rw [List.count_eq_countP, List.countP_map, List.countP_eq_length_filter]
  rfl

theorem mem_filter_key {v : Json} : (.plain name, v) ∈ members ↔
    (.plain name, v) ∈ members.filter fun m => m.1 == .plain name := by
  rw [List.mem_filter, and_iff_left (beq_self_eq_true _)]

/-- The member that the name occurs in, where it occurs once, has all the values of the name. -/
theorem mem_of_filter_eq_singleton {m : Text × Json}
    (hone : (members.filter fun m => m.1 == .plain name) = [m]) (v : Json) :
    (.plain name, v) ∈ members ↔ m.2 = v := by
  have hm : m ∈ members.filter fun m => m.1 == .plain name := by
    rw [hone]
    exact List.mem_singleton_self m
  have hkey : m.1 = .plain name := beq_iff_eq.1 (List.mem_filter.1 hm).2
  rw [mem_filter_key, hone, List.mem_singleton]
  constructor
  · rintro rfl
    rfl
  · rintro rfl
    rw [← hkey]

/-- A name that occurs at most once has at most one value. -/
theorem hasMember_of_mem {v : Json} (honce : (members.map Prod.fst).count (.plain name) ≤ 1)
    (hv : (.plain name, v) ∈ members) : HasMember members name (some v) := by
  refine ⟨honce, fun w => Option.some_inj.trans ?_⟩
  rw [count_eq_length_filter] at honce
  obtain ⟨m, hone⟩ := List.length_eq_one_iff.1
    (Nat.le_antisymm honce (List.length_pos_of_mem (mem_filter_key.1 hv)))
  rw [mem_of_filter_eq_singleton hone, (mem_of_filter_eq_singleton hone v).1 hv]

theorem member?_eq_some_iff {field : Option Json} :
    member? members name = some field ↔ HasMember members name field := by
  have hcount := count_eq_length_filter members (.plain name)
  unfold member?
  cases hfound : members.filter fun m => m.1 == .plain name with
  | nil =>
    have hnone (v : Json) : (.plain name, v) ∉ members := by
      rw [mem_filter_key, hfound]
      exact nofun
    constructor
    · rintro ⟨⟩
      exact ⟨by rw [hcount, hfound]; exact Nat.zero_le 1,
        fun v => ⟨nofun, fun hv => absurd hv (hnone v)⟩⟩
    · intro h
      cases field with
      | none => rfl
      | some v => exact absurd ((h.value v).1 rfl) (hnone v)
  | cons m rest =>
    cases rest with
    | nil =>
      have hvalue := mem_of_filter_eq_singleton hfound
      constructor
      · rintro ⟨⟩
        exact hasMember_of_mem (by rw [hcount, hfound]; exact Nat.le_refl 1) ((hvalue m.2).2 rfl)
      · intro h
        exact congrArg some ((h.value m.2).2 ((hvalue m.2).2 rfl)).symm
    | cons other rest =>
      constructor
      · exact nofun
      · intro h
        have honce := h.once
        rw [hcount, hfound] at honce
        exact absurd (Nat.le_of_succ_le_succ honce) (Nat.not_succ_le_zero _)

end Members

theorem isPlain_iff {t : Text} : t.isPlain ↔ ∃ key, t = .plain key := by
  cases t with
  | plain key => exact ⟨fun _ => ⟨key, rfl⟩, fun _ => rfl⟩
  | unpaired written => exact ⟨nofun, nofun⟩

/-- A value is read as the fields that it has. -/
theorem fields?_eq_some_iff {names : List String} {v : Json} {fields : List (Option Json)} :
    v.fields? names = some fields ↔ HasFields names v fields := by
  constructor
  · intro h
    unfold fields? at h
    split at h
    · next members =>
      split at h
      · next hkeys =>
        rw [List.all_eq_true] at hkeys
        exact .object (fun m hm => isPlain_iff.1 (hkeys m hm))
          ((mapM_eq_some_iff.1 h).imp fun _ _ => member?_eq_some_iff.1)
      · exact absurd h nofun
    · next items =>
      split at h
      · next hlength =>
        obtain rfl := Option.some.inj h
        exact .array (Nat.add_sub_cancel' hlength)
      · exact absurd h nofun
    · exact absurd h nofun
  · intro h
    cases h with
    | object hkeys hfields =>
      rw [fields?, if_pos (List.all_eq_true.2 fun m hm => isPlain_iff.2 (hkeys m hm))]
      exact mapM_eq_some_iff.2 (hfields.imp fun _ _ => member?_eq_some_iff.2)
    | @array items missing hlength =>
      rw [fields?, if_pos (by omega), ← hlength, Nat.add_sub_cancel_left]

/-- A record that is written has the fields it is written with. -/
theorem hasFields_record {names : List String} (hnames : names.Nodup) (values : List Json)
    (hlength : names.length = values.length) :
    HasFields names (record (names.zip values)) (values.map some) := by
  have hplain : Function.Injective Text.plain := fun _ _ h => by cases h; rfl
  have hkeys : ((names.zip values).map fun f => ((.plain f.1, f.2) : Text × Json)).map Prod.fst =
      names.map Text.plain := by
    rw [List.map_map]
    refine Eq.trans ?_ (congrArg (List.map Text.plain) (List.map_fst_zip hlength.le))
    rw [List.map_map]
    rfl
  refine .object ?_ (List.forall₂_iff_zip.2 ⟨by rw [hlength, List.length_map], ?_⟩)
  · intro m hm
    obtain ⟨f, -, rfl⟩ := List.mem_map.1 hm
    exact ⟨f.1, rfl⟩
  · intro name field hfield
    rw [List.zip_map_right] at hfield
    obtain ⟨⟨name', v⟩, hmem, heq⟩ := List.mem_map.1 hfield
    obtain ⟨rfl, rfl⟩ := Prod.mk.inj heq
    refine hasMember_of_mem ?_ (List.mem_map_of_mem hmem)
    rw [hkeys]
    exact List.nodup_iff_count_le_one.1 (hnames.map hplain) _

theorem typed_record {fields : List (String × Json)} (h : ∀ f ∈ fields, Typed f.2) :
    Typed (record fields) := by
  refine .object ?_ ?_
  · intro m hm
    obtain ⟨f, -, rfl⟩ := List.mem_map.1 hm
    exact ⟨f.1, rfl⟩
  · intro m hm
    obtain ⟨f, hf, rfl⟩ := List.mem_map.1 hm
    exact h f hf

/-! ## Single values -/

theorem natural?_eq_some_iff {bound n : Nat} {v : Json} :
    natural? bound v = some n ↔ v = ofNat n ∧ n < bound := by
  constructor
  · intro h
    unfold natural? at h
    split at h
    · split at h
      · next hn =>
        obtain rfl := Option.some.inj h
        exact ⟨rfl, hn⟩
      · exact absurd h nofun
    · exact absurd h nofun
  · rintro ⟨rfl, hn⟩
    exact if_pos hn

theorem word64?_eq_some_iff {v : Json} {x : UInt64} : word64? v = some x ↔ v = ofNat x.toNat := by
  rw [word64?, Option.map_eq_some_iff]
  simp only [natural?_eq_some_iff]
  constructor
  · rintro ⟨n, ⟨rfl, hn⟩, rfl⟩
    rw [UInt64.toNat_ofNat_of_lt' hn]
  · rintro rfl
    exact ⟨x.toNat, ⟨rfl, x.toNat_lt⟩, UInt64.ofNat_toNat⟩

theorem word32?_eq_some_iff {v : Json} {x : UInt32} : word32? v = some x ↔ v = ofNat x.toNat := by
  rw [word32?, Option.map_eq_some_iff]
  simp only [natural?_eq_some_iff]
  constructor
  · rintro ⟨n, ⟨rfl, hn⟩, rfl⟩
    rw [UInt32.toNat_ofNat_of_lt' hn]
  · rintro rfl
    exact ⟨x.toNat, ⟨rfl, x.toNat_lt⟩, UInt32.ofNat_toNat⟩

theorem bool?_eq_some_iff {v : Json} {b : Bool} : bool? v = some b ↔ v = .bool b := by
  cases v with
  | bool c => exact ⟨fun h => congrArg Json.bool (Option.some.inj h), fun h => by cases h; rfl⟩
  | _ => exact ⟨nofun, nofun⟩

theorem string?_eq_some_iff {v : Json} {s : String} : string? v = some s ↔ v = ofString s := by
  constructor
  · intro h
    unfold string? at h
    split at h
    · exact congrArg ofString (Option.some.inj h)
    · exact absurd h nofun
  · rintro rfl
    rfl

theorem integer?_ofInt (i : Int) : integer? (ofInt i) = some i := by
  unfold ofInt
  split
  · next hneg => exact congrArg some (by omega)
  · next hpos => exact congrArg some (by omega)

theorem typed_ofInt (i : Int) : Typed (ofInt i) := by
  unfold ofInt
  split
  · next hneg => exact .negative (by omega)
  · exact .natural _

end TwinSudoku.Json
