import Mathlib.Data.List.Basic
import TwinSudoku.Files.Store
import TwinSudoku.Proofs.Files.Faithful

/-!
# Stores give back what is written

Where a path leads in a store is a matter of its text alone, as long as it leads anywhere.

* `Store.named`: the place that a path names, whatever the store holds.
* `Store.follow_eq`, `Store.follow_mono`: a path that leads anywhere leads there, and goes on to do
  so while directories stay.
* `Store.read_eq_ok_iff`, `Store.write_eq_ok_iff`: when reading and writing succeed.
* `Store.access_faithful`: stores keep what is written into them.
* `Store.access_write_of_room`: where there is room for a file of the working directory, it can be
  written, and there stays room for it and for others.
-/

namespace TwinSudoku.Store

variable {store store' : Store} {place target : Place} {path : String} {bytes : ByteArray}

/-- The place that a part of a path leads to from a place. -/
def enterPart (place : Place) (part : String) : Place :=
  if part = "." then place else if part = ".." then place.dropLast else place ++ [part]

/-- The place that a path names. -/
def named (path : String) : Place := (Path.parts path).foldl enterPart (origin path)

/-! ## Places -/

theorem node?_put_self {node : Node} (hne : place ≠ []) :
    (store.put place node).node? place = some node := by
  rw [node?, if_neg hne, put, List.lookup_cons_self]

theorem node?_put_of_ne {node : Node} (hne : target ≠ place) :
    (store.put place node).node? target = store.node? target := by
  have hlookup : (store.nodes.filter fun entry => entry.1 != place).lookup target =
      store.nodes.lookup target := by
    induction store.nodes with
    | nil => rfl
    | cons entry rest ih =>
      rw [List.filter_cons]
      split
      · rw [List.lookup_cons, List.lookup_cons, ih]
      · next hentry =>
        have heq : entry.1 = place := by simpa using hentry
        rw [List.lookup_cons, ih, heq, beq_false_of_ne hne]
  unfold node?
  rw [put, List.lookup_cons, beq_false_of_ne hne]
  exact congrArg (fun found => if target = [] then some .directory else found) hlookup

theorem ne_nil_of_node? (h : store.node? place ≠ some .directory) : place ≠ [] := by
  rintro rfl
  exact h rfl

/-- Directories stay where something is put in place of none of them. -/
theorem directory_put {node : Node} (hplace : store.node? place ≠ some .directory)
    (h : store.node? target = some .directory) :
    (store.put place node).node? target = some .directory := by
  rw [node?_put_of_ne, h]
  rintro rfl
  exact hplace h

/-! ## Paths -/

theorem follow_cons_iff {part : String} {rest : List String} :
    store.follow place (part :: rest) = .ok target ↔
      store.node? place = some .directory ∧ part.utf8ByteSize ≤ maxName ∧
        store.follow (enterPart place part) rest = .ok target := by
  rw [follow]
  split
  · next h => simp [h]
  · next h => simp [h]
  · next hdir =>
    by_cases hdot : part = "."
    · have hshort : ".".utf8ByteSize ≤ maxName := by decide
      simp [hdir, enterPart, hdot, hshort]
    · by_cases hdots : part = ".."
      · have hshort : "..".utf8ByteSize ≤ maxName := by decide
        simp [hdir, enterPart, hdots, hshort]
      · by_cases hlong : maxName < part.utf8ByteSize
        · simp [hdot, hdots, hlong, Nat.not_le_of_lt hlong]
        · simp [hdir, enterPart, hdot, hdots, hlong, Nat.le_of_not_lt hlong]

theorem follow_append_iff {parts rest : List String} :
    store.follow place (parts ++ rest) = .ok target ↔
      ∃ mid, store.follow place parts = .ok mid ∧ store.follow mid rest = .ok target := by
  induction parts generalizing place with
  | nil => simp [follow]
  | cons part parts ih =>
    rw [List.cons_append, follow_cons_iff, ih]
    simp only [follow_cons_iff]
    constructor
    · rintro ⟨hdir, hshort, mid, hmid, hrest⟩
      exact ⟨mid, ⟨hdir, hshort, hmid⟩, hrest⟩
    · rintro ⟨mid, ⟨hdir, hshort, hmid⟩, hrest⟩
      exact ⟨hdir, hshort, mid, hmid, hrest⟩

/-- A path that leads anywhere leads to the place that it names. -/
theorem follow_eq {parts : List String} (h : store.follow place parts = .ok target) :
    target = parts.foldl enterPart place := by
  induction parts generalizing place with
  | nil => exact (Except.ok.inj h).symm
  | cons part rest ih => exact ih (follow_cons_iff.1 h).2.2

/-- A path leads to the same place while directories stay. -/
theorem follow_mono {parts : List String}
    (hstay : ∀ p, store.node? p = some .directory → store'.node? p = some .directory)
    (h : store.follow place parts = .ok target) : store'.follow place parts = .ok target := by
  induction parts generalizing place with
  | nil => exact h
  | cons part rest ih =>
    obtain ⟨hdir, hshort, hrest⟩ := follow_cons_iff.1 h
    exact follow_cons_iff.2 ⟨hstay _ hdir, hshort, ih hrest⟩

/-! ## Reading and writing -/

theorem read_eq_ok_iff : store.read path = .ok bytes ↔
    check path = .ok () ∧ Path.endsWithSlash path = false ∧
      ∃ place, store.follow (origin path) (Path.parts path) = .ok place ∧
        store.node? place = some (.file bytes) := by
  unfold read lookup locate
  simp only [bind_eq_ok]
  constructor
  · rintro ⟨node, ⟨place, ⟨_, hcheck, hfollow⟩, hnode⟩, hbytes⟩
    refine ⟨hcheck, ?_⟩
    split at hnode
    · exact absurd hnode nofun
    · next content hfile =>
      split at hnode
      · exact absurd hnode nofun
      · next hslash =>
        cases hnode
        cases hbytes
        exact ⟨Bool.eq_false_iff.2 hslash, place, hfollow, hfile⟩
    · cases hnode
      exact absurd hbytes nofun
  · rintro ⟨hcheck, hslash, place, hfollow, hfile⟩
    refine ⟨.file bytes, ⟨place, ⟨(), hcheck, hfollow⟩, ?_⟩, rfl⟩
    rw [hfile]
    dsimp only
    rw [hslash]
    rfl

theorem enter_eq_ok_iff : store.enter path = .ok place ↔
    check path = .ok () ∧
      store.follow (origin path) (Path.parts path).dropLast = .ok place ∧
        store.node? place = some .directory := by
  unfold enter
  simp only [bind_eq_ok]
  constructor
  · rintro ⟨_, hcheck, directory, hfollow, hnode⟩
    split at hnode
    · exact absurd hnode nofun
    · exact absurd hnode nofun
    · next hdir =>
      cases hnode
      exact ⟨hcheck, hfollow, hdir⟩
  · rintro ⟨hcheck, hfollow, hdir⟩
    refine ⟨(), hcheck, place, hfollow, ?_⟩
    rw [hdir]
    rfl

theorem write_eq_ok_iff : store.write path bytes = .ok store' ↔
    Path.endsWithSlash path = false ∧
      ∃ directory place, store.enter path = .ok directory ∧
        store.follow directory (Path.parts path).getLast?.toList = .ok place ∧
        store.node? place ≠ some .directory ∧ store' = store.put place (.file bytes) := by
  unfold write
  simp only [bind_eq_ok]
  constructor
  · rintro ⟨directory, henter, hrun⟩
    split at hrun
    · exact absurd hrun nofun
    · next hslash =>
      obtain ⟨place, hfollow, hrun⟩ := bind_eq_ok.1 hrun
      split at hrun
      · exact absurd hrun nofun
      · next hplace =>
        cases hrun
        exact ⟨Bool.eq_false_iff.2 hslash, directory, place, henter, hfollow, hplace, rfl⟩
  · rintro ⟨hslash, directory, place, henter, hfollow, hplace, rfl⟩
    refine ⟨directory, henter, ?_⟩
    rw [hslash]
    refine bind_eq_ok.2 ⟨place, hfollow, ?_⟩
    split
    · next hdir => exact absurd hdir hplace
    · rfl

/-- Writing puts a file at the place that the path names, in place of no directory. -/
theorem write_named (h : store.write path bytes = .ok store') :
    store.node? (named path) ≠ some .directory ∧
      store' = store.put (named path) (.file bytes) ∧ check path = .ok () ∧
        Path.endsWithSlash path = false ∧
          store.follow (origin path) (Path.parts path) = .ok (named path) := by
  obtain ⟨hslash, directory, place, henter, hlast, hplace, rfl⟩ := write_eq_ok_iff.1 h
  obtain ⟨hcheck, hfollow, -⟩ := enter_eq_ok_iff.1 henter
  have hparts : (Path.parts path).dropLast ++ (Path.parts path).getLast?.toList =
      Path.parts path := by
    cases hpart : (Path.parts path).getLast? with
    | none => rw [List.getLast?_eq_none_iff.1 hpart]; rfl
    | some part => exact List.dropLast_append_getLast? part hpart
  have hwhole : store.follow (origin path) (Path.parts path) = .ok place := by
    rw [← hparts]
    exact follow_append_iff.2 ⟨directory, hfollow, hlast⟩
  obtain rfl : place = named path := follow_eq hwhole
  exact ⟨hplace, rfl, hcheck, hslash, hwhole⟩

/-- What is put in place of no directory changes no file elsewhere. -/
theorem read_put {node : Node} {other : String} (hplace : store.node? place ≠ some .directory)
    (hne : named other ≠ place) (h : store.read other = .ok bytes) :
    (store.put place node).read other = .ok bytes := by
  obtain ⟨hcheck, hslash, target, hfollow, hfile⟩ := read_eq_ok_iff.1 h
  refine read_eq_ok_iff.2 ⟨hcheck, hslash, target,
    follow_mono (fun _ => directory_put hplace) hfollow, ?_⟩
  rw [node?_put_of_ne, hfile]
  rw [follow_eq hfollow]
  exact hne

/-! ## Keeping -/

section Change

variable (step : Store → Except FileError Store)

theorem change_of_ok (h : step store = .ok store') : change step store = (.ok (), store') := by
  rw [change, h]

theorem change_of_error {e : FileError} (h : step store = .error e) :
    change step store = (.error e, store) := by
  rw [change, h]

/-- A change keeps what its success would keep, since a failure changes nothing. -/
theorem change_keeps {P : Store → Prop}
    (h : ∀ store store', step store = .ok store' → P store → P store') :
    Action.Keeps P (change step) := by
  intro store hP
  cases hstep : step store with
  | ok store' =>
    rw [change_of_ok step hstep]
    exact h store store' hstep hP
  | error e =>
    rw [change_of_error step hstep]
    exact hP

end Change

/-- Making a directory puts it where there is nothing. -/
theorem makeDirectory_named (h : store.makeDirectory path = .ok store') :
    store.node? (named path) = none ∧ store' = store.put (named path) .directory := by
  unfold makeDirectory locate at h
  obtain ⟨place, hlocate, hrun⟩ := bind_eq_ok.1 h
  obtain ⟨_, -, hfollow⟩ := bind_eq_ok.1 hlocate
  obtain rfl : place = named path := follow_eq hfollow
  split at hrun
  · exact absurd hrun nofun
  · next hnone =>
    cases hrun
    exact ⟨hnone, rfl⟩

/-- Stores keep what is written into them. -/
theorem access_faithful : access.Faithful named where
  read_written := by
    intro path bytes store h
    cases hwrite : store.write path bytes with
    | error e =>
      have hrun : access.write path bytes store = (.error e, store) :=
        change_of_error (·.write path bytes) hwrite
      rw [hrun] at h
      exact absurd h nofun
    | ok store' =>
      have hrun : access.write path bytes store = (.ok (), store') :=
        change_of_ok (·.write path bytes) hwrite
      obtain ⟨hplace, rfl, hcheck, hslash, hfollow⟩ := write_named hwrite
      rw [hrun]
      exact read_eq_ok_iff.2 ⟨hcheck, hslash, named path,
        follow_mono (fun _ => directory_put hplace) hfollow,
        node?_put_self (ne_nil_of_node? hplace)⟩
  write_keeps := by
    intro path other content bytes hne
    refine change_keeps _ fun store store' hwrite hread => ?_
    obtain ⟨hplace, rfl, -⟩ := write_named hwrite
    exact read_put hplace hne hread
  read_keeps := fun _ _ _ _ h => h
  makeDirectory_keeps := by
    intro path other bytes
    refine change_keeps _ fun store store' hmake hread => ?_
    obtain ⟨hnone, rfl⟩ := makeDirectory_named hmake
    refine read_put (by rw [hnone]; exact nofun) ?_ hread
    intro hsame
    obtain ⟨-, -, target, hfollow, hfile⟩ := read_eq_ok_iff.1 hread
    obtain rfl : target = named path := (follow_eq hfollow).trans hsame
    exact absurd (hnone.symm.trans hfile) nofun
  isDirectory_keeps := fun _ _ _ _ h => h

/-! ## Files of the working directory -/

/-- The path is a single name, looked up in the working directory. -/
structure Plain (path : String) : Prop where
  check : check path = .ok ()
  parts : Path.parts path = [path]
  relative : origin path = home
  slash : Path.endsWithSlash path = false
  short : path.utf8ByteSize ≤ maxName
  parent : Path.parent? path = some ""

instance (path : String) : Decidable (Plain path) :=
  decidable_of_iff (Store.check path = .ok () ∧ Path.parts path = [path] ∧ origin path = home ∧
      Path.endsWithSlash path = false ∧ path.utf8ByteSize ≤ maxName ∧ Path.parent? path = some "")
    ⟨fun ⟨hcheck, hparts, hrelative, hslash, hshort, hparent⟩ =>
        ⟨hcheck, hparts, hrelative, hslash, hshort, hparent⟩,
      fun h => ⟨h.check, h.parts, h.relative, h.slash, h.short, h.parent⟩⟩

/-- There is a working directory, and no directory has any of the names. -/
def Room (paths : List String) (store : Store) : Prop :=
  store.node? home = some .directory ∧ ∀ path ∈ paths, store.node? (named path) ≠ some .directory

theorem room_put {paths : List String} (hplace : store.node? place ≠ some .directory)
    (h : store.Room paths) : (store.put place (.file bytes)).Room paths := by
  refine ⟨directory_put hplace h.1, fun path hpath => ?_⟩
  by_cases heq : named path = place
  · rw [heq, node?_put_self (ne_nil_of_node? hplace)]
    exact nofun
  · rw [node?_put_of_ne heq]
    exact h.2 path hpath

theorem write_of_room (hpath : Plain path) (hhome : store.node? home = some .directory)
    (hplace : store.node? (named path) ≠ some .directory) :
    store.write path bytes = .ok (store.put (named path) (.file bytes)) := by
  refine write_eq_ok_iff.2 ⟨hpath.slash, home, named path, ?_, ?_, hplace, rfl⟩
  · refine enter_eq_ok_iff.2 ⟨hpath.check, ?_, hhome⟩
    rw [hpath.parts, hpath.relative]
    rfl
  · rw [named, hpath.parts, hpath.relative]
    exact follow_cons_iff.2 ⟨hhome, hpath.short, rfl⟩

/-- A file of the working directory is written where there is room for it. -/
theorem access_write_of_room {paths : List String} (hplain : Plain path) (hpath : path ∈ paths)
    (h : store.Room paths) (bytes : ByteArray) :
    (access.write path bytes store).1 = .ok () ∧ (access.write path bytes store).2.Room paths := by
  have hwrite : store.write path bytes = _ := write_of_room hplain h.1 (h.2 path hpath)
  have hrun : access.write path bytes store = (.ok (), _) :=
    change_of_ok (·.write path bytes) hwrite
  rw [hrun]
  exact ⟨rfl, room_put (h.2 path hpath) h⟩

theorem access_save_of_room {paths : List String} (hplain : Plain path) (hpath : path ∈ paths)
    (h : store.Room paths) (text : String) :
    (access.save path text store).1 = .ok () ∧ (access.save path text store).2.Room paths := by
  rw [FileAccess.save_of_parent hplain.parent]
  exact access_write_of_room hplain hpath h text.toUTF8

end TwinSudoku.Store
