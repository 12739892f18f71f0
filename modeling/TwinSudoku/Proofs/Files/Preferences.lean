import TwinSudoku.Preferences
import TwinSudoku.Proofs.Files.Store
import TwinSudoku.Proofs.Json.Records

/-!
# Preferences in files

* `Preferences.Tells`: the text of a record that gives preferences. Each field that it has is that
  of the preferences, each other field is the usual one.
* `Preferences.Loaded`: what a file gives: preferences that its text tells of, brought up to the
  present version, or else the usual ones and nothing of the text.
* `Preferences.ofText?_eq_some_iff`: a text is read as the preferences that it tells of.
* `Preferences.saved_and_loaded`: preferences that are saved are loaded again, and any file is
  loaded as what it gives.
-/

namespace TwinSudoku.Preferences

/-! ## As JSON records -/

/-- The fields of preferences, in the order of their names. -/
def values (p : Preferences) : List Json :=
  [.ofNat p.version.toNat, .ofNat p.k.toNat, .bool p.diagonal, .ofString p.puzzlePath,
    .ofString p.solutionPath, .ofNat p.maxAttempts.toNat,
    (p.reportPath.map Json.ofString).getD .null]

/-- The fields of a record, with the usual ones in place of those that are missing. -/
def filled (fields : List (Option Json)) : List Json := List.zipWith Option.getD fields usual.values

/-- The text is that of a record with the fields of the preferences, but for usual ones that may be
missing. -/
def Tells (text : String) (p : Preferences) : Prop :=
  ∃ v fields, Json.parse? text = some v ∧ Json.HasFields fieldNames v fields ∧
    p.values = filled fields

theorem path?_eq_some_iff {v : Json} {path : Option String} :
    path? v = some path ↔ v = (path.map Json.ofString).getD .null := by
  have hnull (path : Option String) : v.string?.map some = some path →
      v = (path.map Json.ofString).getD .null := by
    intro h
    obtain ⟨s, hs, rfl⟩ := Option.map_eq_some_iff.1 h
    exact Json.string?_eq_some_iff.1 hs
  constructor
  · intro h
    unfold path? at h
    split at h
    · obtain rfl := Option.some.inj h
      rfl
    · exact hnull path h
  · rintro rfl
    cases path with
    | none => rfl
    | some path => rfl

section Field

variable {α : Type} {read : Json → Option α} {write : α → Json}

/-- A field is read as a value just if it is what is written for the value, or is missing where that
is the usual value. -/
theorem field?_eq_some_iff (hread : ∀ {v x}, read v = some x ↔ v = write x) {usualValue x : α}
    {field : Option Json} :
    field? read usualValue field = some x ↔ field.getD (write usualValue) = write x := by
  cases field with
  | none =>
    refine Option.some_inj.trans ⟨congrArg write, fun heq => ?_⟩
    exact Option.some.inj ((hread.2 rfl).symm.trans (hread.2 heq))
  | some v => exact hread

end Field

/-- A value is read as preferences just if its fields are those of the preferences or missing. -/
theorem ofJson?_eq_some_iff {v : Json} {p : Preferences} : ofJson? v = some p ↔
    ∃ fields, Json.HasFields fieldNames v fields ∧ p.values = filled fields := by
  rw [ofJson?, Option.bind_eq_bind, Option.bind_eq_some_iff]
  refine exists_congr fun fields => ?_
  rw [Json.fields?_eq_some_iff]
  refine and_congr_right fun hfields => ?_
  have hlength : fields.length = 7 := hfields.length_eq
  match fields, hlength with
  | [version, k, diagonal, puzzlePath, solutionPath, maxAttempts, reportPath], _ =>
    simp only [Option.bind_eq_bind, Option.bind_eq_some_iff, Option.pure_def, Option.some_inj,
      field?_eq_some_iff Json.word32?_eq_some_iff, field?_eq_some_iff Json.word64?_eq_some_iff,
      field?_eq_some_iff Json.bool?_eq_some_iff, field?_eq_some_iff Json.string?_eq_some_iff,
      field?_eq_some_iff path?_eq_some_iff]
    constructor
    · rintro ⟨_, hversion, _, hk, _, hdiagonal, _, hpuzzle, _, hsolution, _, hattempts, _, hreport,
        rfl⟩
      simp only [values, filled, List.zipWith_cons_cons, List.zipWith_nil_left, hversion, hk,
        hdiagonal, hpuzzle, hsolution, hattempts, hreport]
    · intro h
      simp only [values, filled, List.zipWith_cons_cons, List.zipWith_nil_left, List.cons.injEq,
        and_true] at h
      obtain ⟨hversion, hk, hdiagonal, hpuzzle, hsolution, hattempts, hreport⟩ := h
      exact ⟨_, hversion.symm, _, hk.symm, _, hdiagonal.symm, _, hpuzzle.symm, _, hsolution.symm,
        _, hattempts.symm, _, hreport.symm, rfl⟩

/-- A text is read as the preferences that it tells of. -/
theorem ofText?_eq_some_iff {text : String} {p : Preferences} :
    ofText? text = some p ↔ Tells text p := by
  rw [ofText?, Option.bind_eq_some_iff]
  simp only [ofJson?_eq_some_iff]
  constructor
  · rintro ⟨v, hv, fields, hfields, hp⟩
    exact ⟨v, fields, hv, hfields, hp⟩
  · rintro ⟨v, fields, hv, hfields, hp⟩
    exact ⟨v, hv, fields, hfields, hp⟩

/-- All fields but two are missing. -/
example : ofText? "\x7b\"diagonal\": true, \"k\": 2\x7d" =
    some { usual with k := 2, diagonal := true } := by
  decide +kernel

theorem typed_values (p : Preferences) : ∀ v ∈ p.values, v.Typed := by
  have hreport : Json.Typed ((p.reportPath.map Json.ofString).getD .null) := by
    cases p.reportPath with
    | none => exact .null
    | some path => exact .text path
  simp only [values, List.forall_mem_cons]
  exact ⟨.natural _, .natural _, .bool _, .text _, .text _, .natural _, hreport, nofun⟩

theorem typed_toJson (p : Preferences) : p.toJson.Typed :=
  Json.typed_record fun _ hf => p.typed_values _ (List.of_mem_zip hf).2

/-- What is printed of preferences tells of them. -/
theorem tells_print (p : Preferences) : Tells p.toJson.print p := by
  refine ⟨p.toJson, p.values.map some, Json.parse?_print p.typed_toJson,
    Json.hasFields_record (by decide) p.values rfl, ?_⟩
  rfl

/-! ## In files -/

/-- The version that preferences are brought up to. -/
def present (version : UInt32) : UInt32 := if version = 0 then 1 else version

theorem migrate_eq (p : Preferences) : p.migrate = { p with version := present p.version } := by
  unfold migrate present
  split
  · rfl
  · rfl

/-- The preferences that the contents of a file give, or a failure to read it. -/
inductive Loaded (contents : Except FileError ByteArray) (p : Preferences) : Prop
  | told {text : String} {q : Preferences} (htext : contents = .ok text.toUTF8) (hq : Tells text q)
      (hp : p = { q with version := present q.version })
  | usual (hnone : ∀ text q, contents = .ok text.toUTF8 → ¬ Tells text q) (hp : p = usual)

/-- No contents give different preferences. -/
theorem Loaded.unique {contents : Except FileError ByteArray} {p q : Preferences}
    (hp : Loaded contents p) (hq : Loaded contents q) : p = q := by
  cases hp with
  | told htext htells hp =>
    cases hq with
    | told htext' htells' hq =>
      obtain rfl := Text.toUTF8_injective (Except.ok.inj (htext.symm.trans htext'))
      have heq := (ofText?_eq_some_iff.2 htells).symm.trans (ofText?_eq_some_iff.2 htells')
      rw [hp, hq, Option.some.inj heq]
    | usual hnone _ => exact absurd htells (hnone _ _ htext)
  | usual hnone hp =>
    cases hq with
    | told htext htells _ => exact absurd htells (hnone _ _ htext)
    | usual _ hq => exact hp.trans hq.symm

variable {ω κ : Type} {files : FileAccess (StateM ω)} {named : String → κ}

/-- What is loaded is what the file gives. -/
theorem loaded_load (path : String) (st : ω) :
    Loaded (files.read path st).1 (load files (some path) st).1 := by
  change Loaded _ (ofContents (files.readText path st).1)
  cases htext : (files.readText path st).1 with
  | error e =>
    refine .usual (fun text _ hread _ => ?_) rfl
    rw [FileAccess.readText_eq_ok_iff.2 hread] at htext
    exact absurd htext nofun
  | ok text =>
    have hread : (files.read path st).1 = .ok text.toUTF8 := FileAccess.readText_eq_ok_iff.1 htext
    rw [ofContents]
    cases hp : ofText? text with
    | none =>
      refine .usual (fun other q hother hq => ?_) rfl
      obtain rfl := Text.toUTF8_injective (Except.ok.inj (hread.symm.trans hother))
      rw [ofText?_eq_some_iff.2 hq] at hp
      exact absurd hp nofun
    | some q => exact .told hread (ofText?_eq_some_iff.1 hp) q.migrate_eq

theorem load_eq_iff {path : String} {st : ω} {p : Preferences} :
    (load files (some path) st).1 = p ↔ Loaded (files.read path st).1 p :=
  ⟨fun h => h ▸ loaded_load path st, (loaded_load path st).unique⟩

/-- Preferences that are saved are loaded again, brought up to the present version. Whatever a file
holds, it is loaded as preferences that its text tells of, or as the usual ones where its text tells
of none. -/
theorem saved_and_loaded (hf : files.Faithful named) :
    (∀ (p : Preferences) (path : String) (st : ω), (save files path p st).1 = .ok () →
      (load files (some path) (save files path p st).2).1 =
        { p with version := present p.version }) ∧
    (∀ (path : String) (st : ω) (p : Preferences),
      (load files (some path) st).1 = p ↔ Loaded (files.read path st).1 p) ∧
    ∀ st : ω, (load files none st).1 = usual := by
  refine ⟨fun p path st hsave => ?_, fun _ _ _ => load_eq_iff, fun _ => rfl⟩
  have hreads : files.Reads path p.toJson.print.toUTF8 (save files path p st).2 :=
    hf.save_reads hsave
  rw [load_eq_iff, hreads]
  exact .told rfl p.tells_print rfl

/-- Preferences of the version before the first, and paths with characters that are escaped. -/
theorem saved_and_loaded_escaped :
    let p : Preferences :=
      { usual with
        version := 0, k := 0xffffffffffffffff, puzzlePath := "a \"b\" \\ \n\x00.csv"
        reportPath := some "\x1fé😀" }
    let saved := save Store.access "settings.json" p Store.empty
    saved.1 = .ok () ∧
      (load Store.access (some "settings.json") saved.2).1 = { p with version := 1 } := by
  intro p saved
  have hplain : Store.Plain "settings.json" := by decide
  have hroom : Store.empty.Room ["settings.json"] := by
    refine ⟨rfl, ?_⟩
    simp only [List.forall_mem_singleton]
    exact nofun
  have hsaved : saved.1 = .ok () :=
    (Store.access_save_of_room hplain (List.mem_singleton_self _) hroom _).1
  exact ⟨hsaved, (saved_and_loaded Store.access_faithful).1 p _ _ hsaved⟩

end TwinSudoku.Preferences
