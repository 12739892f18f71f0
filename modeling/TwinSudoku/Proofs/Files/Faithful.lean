import TwinSudoku.Pair.Files
import TwinSudoku.Proofs.Csv.RoundTrip

/-!
# Files that give back what is written

What a program may rely on when it writes files and reads them again.

* `FileAccess.Reads`: what a path gives when it is read.
* `FileAccess.Faithful`: a write that succeeds is read back, and nothing but a write to the same
  file changes what a path gives. Which file a path names is a parameter.
* `FileAccess.save_reads`, `FileAccess.save_keeps`: the same for a file in directories that are
  made for it.
* `FileAccess.readText_eq_ok_iff`: the text of a file is what its bytes write.
* `Pair.fromFile_of_reads`: a pair is read back from the file that its text was written into.
-/

namespace TwinSudoku

theorem Text.fromUTF8?_toUTF8 (text : String) : String.fromUTF8? text.toUTF8 = some text :=
  dif_pos text.isValidUTF8

theorem Text.toUTF8_injective {text other : String} (h : text.toUTF8 = other.toUTF8) :
    text = other :=
  Option.some.inj ((fromUTF8?_toUTF8 text).symm.trans
    ((congrArg String.fromUTF8? h).trans (fromUTF8?_toUTF8 other)))

theorem Text.eq_toUTF8_of_fromUTF8? {bytes : ByteArray} {text : String}
    (h : String.fromUTF8? bytes = some text) : bytes = text.toUTF8 := by
  unfold String.fromUTF8? at h
  split at h
  · obtain rfl := Option.some.inj h
    rfl
  · exact absurd h nofun

namespace FileAccess

variable {ω κ : Type} {files : FileAccess (StateM ω)} {named : String → κ} {path : String}
  {bytes : ByteArray} {st : ω}

/-- The path leads to a file with these bytes. -/
def Reads (files : FileAccess (StateM ω)) (path : String) (bytes : ByteArray) (st : ω) : Prop :=
  (files.read path st).1 = .ok bytes

/-- Files keep what is written into them until something is written into the same file. The file
that a path names does not depend on what there is. -/
structure Faithful (files : FileAccess (StateM ω)) (named : String → κ) : Prop where
  read_written : ∀ {path bytes st}, (files.write path bytes st).1 = .ok () →
    files.Reads path bytes (files.write path bytes st).2
  write_keeps : ∀ {path other} content bytes, named other ≠ named path →
    Action.Keeps (files.Reads other bytes) (files.write path content)
  read_keeps : ∀ path other bytes, Action.Keeps (files.Reads other bytes) (files.read path)
  makeDirectory_keeps : ∀ path other bytes,
    Action.Keeps (files.Reads other bytes) (files.makeDirectory path)
  isDirectory_keeps : ∀ path other bytes,
    Action.Keeps (files.Reads other bytes) (files.isDirectory path)

/-! ## Directories -/

section Directories

variable {P : ω → Prop} (hmake : ∀ path, Action.Keeps P (files.makeDirectory path))
  (his : ∀ path, Action.Keeps P (files.isDirectory path))
include hmake his

theorem ensureDirectory_keeps (path : String) : Action.Keeps P (files.ensureDirectory path) := by
  unfold ensureDirectory
  apply Action.keeps_bind (hmake path)
  intro result
  split
  · exact Action.keeps_pure _
  · exact Action.keeps_pure _
  · exact Action.keeps_bind (his path) fun _ => Action.keeps_pure _

theorem makeWithin_keeps (depth : Nat) (path : String) :
    Action.Keeps P (files.makeWithin depth path) := by
  induction depth generalizing path with
  | zero =>
    unfold makeWithin
    split
    · exact Action.keeps_pure _
    · apply Action.keeps_bind (ensureDirectory_keeps hmake his path)
      intro result
      split
      · exact Action.keeps_pure _
      · exact Action.keeps_pure _
  | succ depth ih =>
    unfold makeWithin
    split
    · exact Action.keeps_pure _
    · apply Action.keeps_bind (ensureDirectory_keeps hmake his path)
      intro result
      split
      · split
        · next above hdepth _ =>
          obtain rfl := Nat.succ.inj hdepth
          apply Action.keeps_bind (ih _)
          intro result
          split
          · exact Action.keeps_pure _
          · exact ensureDirectory_keeps hmake his path
        · exact Action.keeps_pure _
      · exact Action.keeps_pure _

/-- What the making of one directory keeps, the making of all that are missing keeps. -/
theorem makeParent_keeps (path : String) : Action.Keeps P (files.makeParent path) := by
  unfold makeParent
  split
  · split
    · exact Action.keeps_pure _
    · exact makeWithin_keeps hmake his _ _
  · exact Action.keeps_pure _

end Directories

/-! ## Texts -/

theorem readText_keeps {P : ω → Prop} (hread : Action.Keeps P (files.read path)) :
    Action.Keeps P (files.readText path) := by
  unfold readText
  apply Action.keeps_bind hread
  intro result
  split
  · exact Action.keeps_pure _
  · split
    · exact Action.keeps_pure _
    · exact Action.keeps_pure _

namespace Faithful

variable (hf : files.Faithful named)
include hf

theorem makeParent_keeps (path other : String) (bytes : ByteArray) :
    Action.Keeps (files.Reads other bytes) (files.makeParent path) :=
  FileAccess.makeParent_keeps (fun path => hf.makeDirectory_keeps path other bytes)
    (fun path => hf.isDirectory_keeps path other bytes) path

theorem save_keeps {path other : String} (hne : named other ≠ named path) (text : String)
    (bytes : ByteArray) : Action.Keeps (files.Reads other bytes) (files.save path text) := by
  unfold save
  apply Action.keeps_bind (hf.makeParent_keeps path other bytes)
  intro result
  split
  · exact Action.keeps_pure _
  · exact hf.write_keeps _ bytes hne

theorem save_reads {text : String} (h : (files.save path text st).1 = .ok ()) :
    files.Reads path text.toUTF8 (files.save path text st).2 := by
  cases hparent : files.makeParent path st with
  | mk made st₁ =>
    cases made with
    | error e =>
      rw [save, Action.bind_of_eq hparent] at h
      exact absurd h nofun
    | ok u =>
      rw [save, Action.bind_of_eq hparent] at h ⊢
      exact hf.read_written h

end Faithful

theorem readText_of_reads {text : String} (h : files.Reads path text.toUTF8 st) :
    files.readText path st = (.ok text, (files.read path st).2) := by
  have hread : files.read path st = (.ok text.toUTF8, (files.read path st).2) := Prod.ext h rfl
  rw [readText, Action.bind_of_eq hread]
  dsimp only
  rw [Text.fromUTF8?_toUTF8]
  rfl

theorem readText_eq_ok_iff {text : String} :
    (files.readText path st).1 = .ok text ↔ files.Reads path text.toUTF8 st := by
  constructor
  · intro h
    cases hread : files.read path st with
    | mk contents st' =>
      rw [readText, Action.bind_of_eq hread] at h
      cases contents with
      | error e => exact absurd h nofun
      | ok bytes =>
        dsimp only at h
        cases hbytes : String.fromUTF8? bytes with
        | none =>
          rw [hbytes] at h
          exact absurd h nofun
        | some other =>
          rw [hbytes] at h
          obtain rfl := Except.ok.inj h
          exact (congrArg Prod.fst hread).trans
            (congrArg Except.ok (Text.eq_toUTF8_of_fromUTF8? hbytes))
  · intro h
    rw [readText_of_reads h]

/-- A path without a slash, which names something in the working directory. -/
theorem save_of_parent (h : Path.parent? path = some "") (text : String) :
    files.save path text = files.write path text.toUTF8 := by
  rw [save, makeParent, h]
  rfl

end FileAccess

namespace Pair

variable {ω : Type} {files : FileAccess (StateM ω)} {path : String} {st : ω} {s : Size}

/-- A pair is read back from the file that its text was written into. -/
theorem fromFile_of_reads {p : Pair s} (h : files.Reads path p.toCsv.toUTF8 st) :
    fromFile files s path st = (.ok p, (files.read path st).2) := by
  rw [fromFile, Action.bind_of_eq (FileAccess.readText_of_reads h)]
  change (ofCsv s p.toCsv, (files.read path st).2) = _
  rw [ofCsv_toCsv]

end Pair

end TwinSudoku
