import Mathlib.Logic.Function.Basic
import TwinSudoku.Proofs.Command.Steps

/-!
# What a command leaves in sight

Of the world around it, a command changes the contents of files and what stands on the console.

* `View`: the contents of all files and the text printed so far.
* `World.Shows`: what each operation of a world does to the view. Only a write that succeeds and the
  printing of a text change it.
* `World.Shows.load_keeps`, `World.Shows.fromFile_keeps`: reading leaves everything as it was.
* `World.Shows.save_of_ok`, `World.Shows.save_of_error`: a text is in its file, or nothing has
  changed.
* `World.Writable`: a file that can be written, and can still be written later.
* `World.ofDesk`: a store and a console, as an example of such a world.
-/

namespace TwinSudoku

/-- The contents of files, where there are any, and the text on the console. -/
structure View (κ : Type) where
  content : κ → Option ByteArray
  printed : String

namespace View

variable {κ : Type} [DecidableEq κ] {place other : κ}

/-- The view after the bytes have been written into a file. -/
def writing (v : View κ) (place : κ) (bytes : ByteArray) : View κ :=
  { v with content := Function.update v.content place (some bytes) }

def printing (v : View κ) (text : String) : View κ := { v with printed := v.printed ++ text }

@[simp] theorem content_writing_self (v : View κ) (place : κ) (bytes : ByteArray) :
    (v.writing place bytes).content place = some bytes := Function.update_self ..

theorem content_writing_of_ne (v : View κ) (bytes : ByteArray) (h : other ≠ place) :
    (v.writing place bytes).content other = v.content other := Function.update_of_ne h ..

/-- Writing the same bytes again changes nothing. -/
theorem writing_of_content {v : View κ} {bytes : ByteArray}
    (h : v.content place = some bytes) : v.writing place bytes = v := by
  rw [writing, ← h, Function.update_eq_self]

end View

/-- What the operations of a world do to the view of it. A file that can be read is seen with the
bytes that are read. Files change by being written, and the console by being printed on. -/
structure World.Shows {ω κ : Type} [DecidableEq κ] (w : World (StateM ω)) (named : String → κ)
    (view : ω → View κ) : Prop where
  reads : ∀ {path bytes st}, w.files.Reads path bytes st →
    (view st).content (named path) = some bytes
  written : ∀ {path bytes st}, (w.files.write path bytes st).1 = .ok () →
    view (w.files.write path bytes st).2 = (view st).writing (named path) bytes
  unwritten : ∀ {path bytes st e}, (w.files.write path bytes st).1 = .error e →
    view (w.files.write path bytes st).2 = view st
  console : ∀ text st, view (w.console text st).2 = (view st).printing text
  read : ∀ v path, Action.Keeps (fun st => view st = v) (w.files.read path)
  makeDirectory : ∀ v path, Action.Keeps (fun st => view st = v) (w.files.makeDirectory path)
  isDirectory : ∀ v path, Action.Keeps (fun st => view st = v) (w.files.isDirectory path)
  seedText : ∀ v, Action.Keeps (fun st => view st = v) w.seedText
  freshSeed : ∀ v, Action.Keeps (fun st => view st = v) w.freshSeed
  freshId : ∀ v, Action.Keeps (fun st => view st = v) w.freshId
  time : ∀ v, Action.Keeps (fun st => view st = v) w.time
  elapsed : ∀ v, Action.Keeps (fun st => view st = v) w.elapsed

/-! ## Reading -/

section Reading

variable {ω : Type} {files : FileAccess (StateM ω)} {P : ω → Prop}

theorem Preferences.load_keeps (hread : ∀ path, Action.Keeps P (files.read path))
    (path : Option String) : Action.Keeps P (Preferences.load files path) := by
  cases path with
  | none => exact Action.keeps_pure _
  | some path =>
    exact Action.keeps_bind (FileAccess.readText_keeps (hread path)) fun _ => Action.keeps_pure _

theorem Pair.fromFile_keeps {path : String} (hread : Action.Keeps P (files.read path)) (s : Size) :
    Action.Keeps P (Pair.fromFile files s path) := by
  unfold fromFile
  apply Action.keeps_bind (FileAccess.readText_keeps hread)
  intro result
  split
  · exact Action.keeps_pure _
  · exact Action.keeps_pure _

end Reading

namespace World.Shows

variable {ω κ : Type} [DecidableEq κ] {w : World (StateM ω)} {named : String → κ}
  {view : ω → View κ} (hv : w.Shows named view)
include hv

theorem load_keeps (path : Option String) (st : ω) :
    view (Preferences.load w.files path st).2 = view st :=
  Preferences.load_keeps (hv.read (view st)) path st rfl

theorem fromFile_keeps (s : Size) (path : String) (st : ω) :
    view (Pair.fromFile w.files s path st).2 = view st :=
  Pair.fromFile_keeps (hv.read (view st) path) s st rfl

theorem makeParent_keeps (path : String) (st : ω) :
    view (w.files.makeParent path st).2 = view st :=
  FileAccess.makeParent_keeps (hv.makeDirectory (view st)) (hv.isDirectory (view st)) path st rfl

/-! ## Saving -/

theorem save_of_ok {path text : String} {st : ω} (h : (w.files.save path text st).1 = .ok ()) :
    view (w.files.save path text st).2 = (view st).writing (named path) text.toUTF8 := by
  have hkeeps := hv.makeParent_keeps path st
  cases hparent : w.files.makeParent path st with
  | mk made st₁ =>
    rw [hparent] at hkeeps
    cases made with
    | error e =>
      rw [FileAccess.save, Action.bind_of_eq hparent] at h
      cases h
    | ok =>
      rw [FileAccess.save, Action.bind_of_eq hparent] at h ⊢
      rw [← hkeeps]
      exact hv.written h

theorem save_of_error {path text : String} {st : ω} {e : FileError}
    (h : (w.files.save path text st).1 = .error e) :
    view (w.files.save path text st).2 = view st := by
  have hkeeps := hv.makeParent_keeps path st
  cases hparent : w.files.makeParent path st with
  | mk made st₁ =>
    rw [hparent] at hkeeps
    cases made with
    | error e =>
      rw [FileAccess.save, Action.bind_of_eq hparent]
      exact hkeeps
    | ok =>
      rw [FileAccess.save, Action.bind_of_eq hparent] at h ⊢
      exact (hv.unwritten h).trans hkeeps

end World.Shows

/-- The file can be written, and no reading and no writing of it takes that away. The property `P`
of the world says so. -/
structure World.Writable {ω : Type} (w : World (StateM ω)) (path : String) (P : ω → Prop) :
    Prop where
  write : ∀ bytes st, P st →
    (w.files.write path bytes st).1 = .ok () ∧ P (w.files.write path bytes st).2
  read : ∀ other, Action.Keeps P (w.files.read other)

/-! ## A store and a console -/

/-- A store, and what stands on the console. -/
structure Desk where
  store : Store
  printed : String

namespace Desk

/-- Lets something happen in the store of a desk. -/
def inStore {α : Type} (action : StateM Store α) : StateM Desk α := fun desk =>
  ((action desk.store).1, { desk with store := (action desk.store).2 })

/-- The bytes of the file at a place, if there is one. -/
def content (store : Store) (place : Place) : Option ByteArray :=
  match store.node? place with
  | some (.file bytes) => some bytes
  | _ => none

def view (desk : Desk) : View Place := ⟨content desk.store, desk.printed⟩

theorem content_put_file {store : Store} {place : Place} (bytes : ByteArray) (hne : place ≠ []) :
    content (store.put place (.file bytes)) =
      Function.update (content store) place (some bytes) := by
  funext target
  by_cases h : target = place
  · subst h
    rw [Function.update_self, content, Store.node?_put_self hne]
  · rw [Function.update_of_ne h, content, Store.node?_put_of_ne h, content]

theorem content_put_directory {store : Store} {place : Place} (hnone : store.node? place = none) :
    content (store.put place .directory) = content store := by
  have hne : place ≠ [] := by
    rintro rfl
    exact absurd hnone nofun
  funext target
  by_cases h : target = place
  · subst h
    rw [content, content, Store.node?_put_self hne, hnone]
  · rw [content, Store.node?_put_of_ne h, content]

end Desk

/-- The world of a desk. It gives no seed and stands still. -/
def World.ofDesk : World (StateM Desk) where
  files := {
    read := fun path => Desk.inStore (Store.access.read path)
    write := fun path bytes => Desk.inStore (Store.access.write path bytes)
    makeDirectory := fun path => Desk.inStore (Store.access.makeDirectory path)
    isDirectory := fun path => Desk.inStore (Store.access.isDirectory path) }
  console text := fun desk => ((), { desk with printed := desk.printed ++ text })
  seedText := pure none
  freshSeed := pure 0
  freshId := pure .zero
  time := pure 0
  elapsed := pure .zero

theorem World.ofDesk_faithful : World.ofDesk.Faithful Store.named where
  files := {
    read_written := fun h => Store.access_faithful.read_written h
    write_keeps := fun content bytes hne desk h =>
      Store.access_faithful.write_keeps content bytes hne desk.store h
    read_keeps := fun _ _ _ _ h => h
    makeDirectory_keeps := fun path other bytes desk h =>
      Store.access_faithful.makeDirectory_keeps path other bytes desk.store h
    isDirectory_keeps := fun _ _ _ _ h => h }
  console _ _ _ _ h := h
  seedText _ _ := Action.keeps_pure _
  freshSeed _ _ := Action.keeps_pure _
  freshId _ _ := Action.keeps_pure _
  time _ _ := Action.keeps_pure _
  elapsed _ _ := Action.keeps_pure _

theorem World.ofDesk_shows : World.ofDesk.Shows Store.named Desk.view where
  reads := by
    intro path bytes desk h
    obtain ⟨-, -, place, hfollow, hfile⟩ := Store.read_eq_ok_iff.1 h
    obtain rfl : place = Store.named path := Store.follow_eq hfollow
    show Desk.content desk.store _ = _
    rw [Desk.content, hfile]
  written := by
    intro path bytes desk h
    cases hwrite : desk.store.write path bytes with
    | error e =>
      have hrun := Store.change_of_error (·.write path bytes) hwrite
      exact absurd ((congrArg Prod.fst hrun).symm.trans h) nofun
    | ok store =>
      have hrun := Store.change_of_ok (·.write path bytes) hwrite
      obtain ⟨hplace, rfl, -⟩ := Store.write_named hwrite
      show View.mk (Desk.content (Store.change (·.write path bytes) desk.store).2) _ = _
      rw [hrun, Desk.content_put_file bytes (Store.ne_nil_of_node? hplace)]
      rfl
  unwritten := by
    intro path bytes desk e h
    cases hwrite : desk.store.write path bytes with
    | error e =>
      have hrun := Store.change_of_error (·.write path bytes) hwrite
      show View.mk (Desk.content (Store.change (·.write path bytes) desk.store).2) _ = _
      rw [hrun]
      rfl
    | ok store =>
      have hrun := Store.change_of_ok (·.write path bytes) hwrite
      exact absurd ((congrArg Prod.fst hrun).symm.trans h) nofun
  console _ _ := rfl
  read _ _ _ h := h
  makeDirectory v path := by
    intro desk h
    rw [← h]
    cases hmake : desk.store.makeDirectory path with
    | error e =>
      have hrun := Store.change_of_error (·.makeDirectory path) hmake
      show View.mk (Desk.content (Store.change (·.makeDirectory path) desk.store).2) _ = _
      rw [hrun]
      rfl
    | ok store =>
      have hrun := Store.change_of_ok (·.makeDirectory path) hmake
      obtain ⟨hnone, rfl⟩ := Store.makeDirectory_named hmake
      show View.mk (Desk.content (Store.change (·.makeDirectory path) desk.store).2) _ = _
      rw [hrun, Desk.content_put_directory hnone]
      rfl
  isDirectory _ _ _ h := h
  seedText _ := Action.keeps_pure _
  freshSeed _ := Action.keeps_pure _
  freshId _ := Action.keeps_pure _
  time _ := Action.keeps_pure _
  elapsed _ := Action.keeps_pure _

/-- A plain file of a desk can be written while there is room for it. -/
theorem World.ofDesk_writable {path : String} {paths : List String} (hplain : Store.Plain path)
    (hpath : path ∈ paths) : World.ofDesk.Writable path fun desk => desk.store.Room paths where
  write bytes _ hroom := Store.access_write_of_room hplain hpath hroom bytes
  read _ _ hroom := hroom

end TwinSudoku
