import TwinSudoku.Command.Run
import TwinSudoku.Proofs.Files.Store

/-!
# Steps of commands

A command takes the state of an oracle session and that of the world to an outcome and to new
states. The lemmas follow one command through its steps, forward where each step is known to give
a result, and backward from a command that succeeded to the results of its steps.

* `Command.bind_of_ok`, `Command.ok_of_bind`: steps one after another.
* `Command.ok_of_expect`, `Command.ok_of_releasing`: steps that may fail.
* `Command.Keeps`: whatever the outcome, a property of the world is kept.
* `World.Faithful`: the files of the world give back what is written, and nothing else that
  commands use of it touches them.
-/

namespace TwinSudoku

/-- The files give back what is written into them, and nothing else that commands use of the world
touches them. -/
structure World.Faithful {ω κ : Type} (w : World (StateM ω)) (named : String → κ) : Prop where
  files : w.files.Faithful named
  console : ∀ text path bytes, Action.Keeps (w.files.Reads path bytes) (w.console text)
  seedText : ∀ path bytes, Action.Keeps (w.files.Reads path bytes) w.seedText
  freshSeed : ∀ path bytes, Action.Keeps (w.files.Reads path bytes) w.freshSeed
  freshId : ∀ path bytes, Action.Keeps (w.files.Reads path bytes) w.freshId
  time : ∀ path bytes, Action.Keeps (w.files.Reads path bytes) w.time
  elapsed : ∀ path bytes, Action.Keeps (w.files.Reads path bytes) w.elapsed

/-- A stamp takes a number and the time, and nothing else. -/
theorem World.stamp_keeps {ω : Type} {w : World (StateM ω)} {P : ω → Prop}
    (hid : Action.Keeps P w.freshId) (htime : Action.Keeps P w.time) : Action.Keeps P w.stamp :=
  Action.keeps_bind hid fun _ => Action.keeps_bind htime fun _ => Action.keeps_pure _

/-- The world of a store. It gives no seed, prints nothing and stands still. -/
def World.ofStore : World (StateM Store) where
  files := Store.access
  console _ := pure ()
  seedText := pure none
  freshSeed := pure 0
  freshId := pure .zero
  time := pure 0
  elapsed := pure .zero

theorem World.ofStore_faithful : World.ofStore.Faithful Store.named where
  files := Store.access_faithful
  console _ _ _ := Action.keeps_pure _
  seedText _ _ := Action.keeps_pure _
  freshSeed _ _ := Action.keeps_pure _
  freshId _ _ := Action.keeps_pure _
  time _ _ := Action.keeps_pure _
  elapsed _ _ := Action.keeps_pure _

/-- What a plan owes to the options and the preferences. -/
theorem GenerateOptions.plan_eq_ok {options : GenerateOptions} {preferences : Preferences}
    {plan : Plan} (h : options.plan preferences = .ok plan) :
    Size.ofNat (options.k.getD preferences.k).toNat = .ok plan.size ∧
      plan.diagonal = (options.diagonal || preferences.diagonal) := by
  obtain ⟨s, hsize, hplan⟩ := bind_eq_ok.1 h
  cases hplan
  exact ⟨hsize, rfl⟩

namespace Command

variable {σ ω ρ α β : Type} {session session' : σ} {st st' : ω}

theorem stateBind_of_eq {x : StateT σ (StateM ω) α} {a : α}
    (h : x session st = ((a, session'), st')) (f : α → StateT σ (StateM ω) β) :
    (x >>= f) session st = f a session' st' := by
  change f (x session st).1.1 (x session st).1.2 (x session st).2 = _
  rw [h]

theorem bind_of_ok {x : Work σ (StateM ω) α} {a : α}
    (h : x session st = ((.ok a, session'), st')) (f : α → Work σ (StateM ω) β) :
    (x >>= f) session st = f a session' st' := stateBind_of_eq h (ExceptT.bindCont f)

theorem bind_of_error {x : Work σ (StateM ω) α} {e : CommandError}
    (h : x session st = ((.error e, session'), st')) (f : α → Work σ (StateM ω) β) :
    (x >>= f) session st = ((.error e, session'), st') := stateBind_of_eq h (ExceptT.bindCont f)

/-- A command that succeeds does so step by step. -/
theorem ok_of_bind {x : Work σ (StateM ω) α} {f : α → Work σ (StateM ω) β} {b : β}
    (h : (x >>= f) session st = ((.ok b, session'), st')) :
    ∃ a session₁ st₁, x session st = ((.ok a, session₁), st₁) ∧
      f a session₁ st₁ = ((.ok b, session'), st') := by
  rcases hx : x session st with ⟨⟨_ | a, session₁⟩, st₁⟩
  · rw [bind_of_error hx] at h
    exact absurd (congrArg (·.1.1) h) nofun
  · rw [bind_of_ok hx] at h
    exact ⟨a, session₁, st₁, rfl, h⟩

theorem outside_apply (action : StateM ω α) (session : σ) (st : ω) :
    (outside action : Work σ (StateM ω) α) session st =
      ((.ok (action st).1, session), (action st).2) := rfl

theorem consult_apply (action : StateM σ α) (session : σ) (st : ω) :
    (consult action : Work σ (StateM ω) α) session st =
      ((.ok (action session).1, (action session).2), st) := rfl

theorem consult_run_of_eq {ε : Type} {x : Run σ ε α} {result : Except ε α} (st : ω)
    (h : x session = (result, session')) :
    (consult x.run : Work σ (StateM ω) _) session st = ((.ok result, session'), st) := by
  rw [consult_apply, ExceptT.run, h]

theorem expect_ok {ε : Type} (error : ε → CommandError) (a : α) (session : σ) (st : ω) :
    (expect error (.ok a) : Work σ (StateM ω) α) session st = ((.ok a, session), st) := rfl

theorem ok_of_expect {ε : Type} {error : ε → CommandError} {result : Except ε α} {a : α}
    (h : (expect error result : Work σ (StateM ω) α) session st = ((.ok a, session'), st')) :
    result = .ok a ∧ session' = session ∧ st' = st := by
  cases result with
  | error e => exact absurd (congrArg (·.1.1) h) nofun
  | ok b =>
    have hb : (((.ok b, session), st) : (Except CommandError α × σ) × ω) = _ := h
    cases hb
    exact ⟨rfl, rfl, rfl⟩

/-- A command runs with the preferences that the request names. -/
theorem perform_run (w : World (StateM ω)) (o : Oracle σ) (source : Random.Source ρ)
    (config : Option String) (command : TwinSudoku.Command) (session : σ) (st : ω) :
    Request.perform w o source (.run config command) session st =
      perform w o source (Preferences.load w.files config st).1 command session
        (Preferences.load w.files config st).2 := bind_of_ok (outside_apply _ session st) _

theorem releasing_of_ok {o : Oracle σ} {step : Work σ (StateM ω) α} {a : α}
    (h : step session st = ((.ok a, session'), st')) :
    releasing o step session st = ((.ok a, session'), st') := by
  change ExceptT.tryCatch step _ session st = _
  exact stateBind_of_eq h _

theorem releasing_of_error {o : Oracle σ} {step : Work σ (StateM ω) α} {e : CommandError}
    (h : step session st = ((.error e, session'), st')) :
    releasing o step session st = ((.error e, (o.release session').2), st') := by
  change ExceptT.tryCatch step _ session st = _
  exact stateBind_of_eq h _

/-- What follows a failure leads to no success. -/
theorem ok_of_releasing {o : Oracle σ} {step : Work σ (StateM ω) α} {a : α}
    (h : releasing o step session st = ((.ok a, session'), st')) :
    step session st = ((.ok a, session'), st') := by
  rcases hstep : step session st with ⟨⟨e | b, session₁⟩, st₁⟩
  · rw [releasing_of_error hstep] at h
    exact absurd (congrArg (·.1.1) h) nofun
  · rw [releasing_of_ok hstep] at h
    exact h

/-! ## Properties of the world -/

/-- Whatever the outcome, the command keeps a property of the world. -/
def Keeps (P : ω → Prop) (x : Work σ (StateM ω) α) : Prop :=
  ∀ session st, P st → P (x session st).2

variable {P : ω → Prop}

theorem keeps_outside {action : StateM ω α} (h : Action.Keeps P action) :
    Keeps P (outside action : Work σ (StateM ω) α) := fun _ st hst => h st hst

theorem keeps_expect {ε : Type} (error : ε → CommandError) (result : Except ε α) :
    Keeps P (expect error result : Work σ (StateM ω) α) := by
  intro session st h
  cases result <;> exact h

theorem keeps_bind {x : Work σ (StateM ω) α} {f : α → Work σ (StateM ω) β} (hx : Keeps P x)
    (hf : ∀ a, Keeps P (f a)) : Keeps P (x >>= f) := by
  intro session st h
  have hmid := hx session st h
  rcases hrun : x session st with ⟨⟨e | a, session'⟩, st'⟩
  · rw [hrun] at hmid
    rw [bind_of_error hrun]
    exact hmid
  · rw [hrun] at hmid
    rw [bind_of_ok hrun]
    exact hf a session' st' hmid

variable {κ : Type} {w : World (StateM ω)} {named : String → κ}

theorem writeReport_keeps (hw : w.Faithful named) {path other : String}
    (hne : named other ≠ named path) (report : Report) (bytes : ByteArray) :
    Keeps (w.files.Reads other bytes) (writeReport w path report : Work σ (StateM ω) Unit) := by
  unfold writeReport
  refine keeps_bind (keeps_expect _ _) ?_
  intro text
  apply keeps_bind (keeps_outside (hw.files.makeParent_keeps path other bytes))
  intro made
  refine keeps_bind (keeps_expect _ _) ?_
  intro _
  apply keeps_bind (keeps_outside (hw.files.write_keeps _ bytes hne))
  intro written
  exact keeps_expect _ _

/-! ## Writing pairs -/

theorem writePair_of_ok {what path : String} {s : Size} {p : Pair s} (session : σ)
    (h : (w.files.save path p.toCsv st).1 = .ok ()) :
    writePair w what path p session st =
      ((.ok (), session), (w.files.save path p.toCsv st).2) := by
  have hsave : (p.toFile w.files path st).1 = .ok () := h
  unfold writePair
  rw [bind_of_ok (outside_apply _ session st), hsave]
  rfl

theorem ok_of_writePair (hw : w.Faithful named) {what path : String} {s : Size} {p : Pair s}
    (h : writePair w what path p session st = ((.ok (), session'), st')) :
    session' = session ∧ st' = (w.files.save path p.toCsv st).2 ∧
      w.files.Reads path p.toCsv.toUTF8 st' := by
  unfold writePair at h
  obtain ⟨result, session₁, st₁, hsave, h⟩ := ok_of_bind h
  rw [outside_apply] at hsave
  cases hsave
  obtain ⟨hok, rfl, rfl⟩ := ok_of_expect h
  exact ⟨rfl, rfl, hw.files.save_reads hok⟩

end Command

end TwinSudoku
