import Mathlib.Data.List.Forall2
import TwinSudoku.Failure

/-!
# Runs that fail or go on

A run takes a state to an outcome and a new state. The lemmas follow one run through its steps.

* `bind_eq_ok`, `bind_eq_error`, `mapError_eq_ok`, `mapError_eq_error`: what an outcome came from.
* `Run.bind_of_ok`, `Run.bind_of_error`: a run goes on after a step that gave a result and ends
  with one that failed.
* `Action.Keeps`, `Run.Keeps`: whatever the outcome, a property of states is kept. Steps that keep
  it make actions and runs that keep it.
* `Run.Alike`: two runs side by side. Steps that keep a relation between the two states make runs
  that keep it.
* `elim_eq_ok_iff`: a result or a defect.
* `mapM_of_defects`, `mapM_of_ok`, `mapM_eq_some_iff`, `allM_of_ok`, `Action.mapM_forall₂`: results
  one after another.
* `Action.mapM_view`: the same actions on a view of the state.
-/

namespace TwinSudoku

/-- Where a result is given unless there is a defect, it is given just if there is none. -/
theorem elim_eq_ok_iff {ε α : Type} {defect? : Option ε} {a b : α} :
    (defect?.elim (.ok a) .error : Except ε α) = .ok b ↔ defect? = none ∧ a = b := by
  cases defect? with
  | none => simp
  | some e => simp

/-- Where each step either gives a result or has a defect, the first defect is the outcome. -/
theorem mapM_of_defects {ε α β : Type} {f : α → Except ε β} {defect? : α → Option ε} {g : α → β}
    {xs : List α} (h : ∀ x ∈ xs, f x = (defect? x).elim (.ok (g x)) .error) :
    xs.mapM f = (xs.findSome? defect?).elim (.ok (xs.map g)) .error := by
  induction xs with
  | nil => rfl
  | cons x rest ih =>
    rw [List.mapM_cons, h x List.mem_cons_self, List.findSome?_cons]
    cases defect? x with
    | some e => rfl
    | none =>
      rw [Option.elim_none, ih fun y hy => h y (List.mem_cons_of_mem x hy)]
      cases rest.findSome? defect? <;> rfl

theorem mapM_of_ok {ε α β : Type} {f : α → Except ε β} {g : α → β} {xs : List α}
    (h : ∀ x ∈ xs, f x = .ok (g x)) : xs.mapM f = .ok (xs.map g) := by
  have h' : ∀ x ∈ xs, f x = ((fun _ => none : α → Option ε) x).elim (.ok (g x)) .error := h
  rw [mapM_of_defects h', List.findSome?_eq_none_iff.2 fun _ _ => rfl]
  rfl

/-- Results one after another are the results of the elements. -/
theorem mapM_eq_some_iff {α β : Type} {f : α → Option β} {xs : List α} {ys : List β} :
    xs.mapM f = some ys ↔ List.Forall₂ (fun x y => f x = some y) xs ys := by
  induction xs generalizing ys with
  | nil =>
    rw [List.mapM_nil, List.forall₂_nil_left_iff]
    exact Option.some_inj.trans eq_comm
  | cons x xs ih =>
    rw [List.mapM_cons, Option.bind_eq_bind, Option.bind_eq_some_iff, List.forall₂_cons_left_iff]
    simp only [Option.bind_eq_bind, Option.bind_eq_some_iff, ih, Option.pure_def, Option.some_inj]
    constructor
    · rintro ⟨y, hy, ys, hys, rfl⟩
      exact ⟨y, ys, hy, hys, rfl⟩
    · rintro ⟨y, ys, hy, hys, rfl⟩
      exact ⟨y, hy, ys, hys, rfl⟩

/-- Where each of some checks gives an answer, one after another they answer whether all hold. -/
theorem allM_of_ok {ε α : Type} {f : α → Except ε Bool} {g : α → Bool} {xs : List α}
    (h : ∀ x ∈ xs, f x = .ok (g x)) : xs.allM f = .ok (xs.all g) := by
  induction xs with
  | nil => rfl
  | cons x rest ih =>
    rw [List.allM, h x List.mem_cons_self, List.all_cons]
    cases g x with
    | true => exact ih fun y hy => h y (List.mem_cons_of_mem x hy)
    | false => rfl

/-- What goes on to a result had a result to go on from. -/
theorem bind_eq_ok {ε α β : Type} {x : Except ε α} {f : α → Except ε β} {b : β} :
    (x >>= f) = .ok b ↔ ∃ a, x = .ok a ∧ f a = .ok b := by
  cases x with
  | error e => exact ⟨nofun, nofun⟩
  | ok a => exact ⟨fun h => ⟨a, rfl, h⟩, fun ⟨_, ha, h⟩ => by cases ha; exact h⟩

/-- What fails has failed at first, or had a result to go on from. -/
theorem bind_eq_error {ε α β : Type} {x : Except ε α} {f : α → Except ε β} {e : ε} :
    (x >>= f) = .error e ↔ x = .error e ∨ ∃ a, x = .ok a ∧ f a = .error e := by
  constructor
  · intro h
    cases x with
    | error e' => exact .inl (congrArg Except.error (Except.error.inj h))
    | ok a => exact .inr ⟨a, rfl, h⟩
  · rintro (rfl | ⟨a, rfl, h⟩)
    · rfl
    · exact h

theorem mapError_eq_ok {ε δ α : Type} {x : Except ε α} {f : ε → δ} {a : α} :
    x.mapError f = .ok a ↔ x = .ok a := by
  cases x with
  | error e => exact ⟨nofun, nofun⟩
  | ok b => exact ⟨fun h => congrArg Except.ok (Except.ok.inj h), fun h => by cases h; rfl⟩

theorem mapError_eq_error {ε δ α : Type} {x : Except ε α} {f : ε → δ} {d : δ} :
    x.mapError f = .error d ↔ ∃ e, x = .error e ∧ f e = d := by
  cases x with
  | error e =>
    exact ⟨fun h => ⟨e, rfl, Except.error.inj h⟩, fun ⟨_, he, h⟩ => by cases he; cases h; rfl⟩
  | ok b => exact ⟨nofun, nofun⟩

/-! ## Actions -/

namespace Action

variable {σ α β : Type}

/-- An action hands its result and its state on. -/
theorem bind_of_eq {x : StateM σ α} {a : α} {st st' : σ} (h : x st = (a, st'))
    (f : α → StateM σ β) : (x >>= f) st = f a st' := by
  change f (x st).1 (x st).2 = f a st'
  rw [h]

/-- Whatever its result, the action keeps a property of the state. -/
def Keeps (P : σ → Prop) (x : StateM σ α) : Prop := ∀ st, P st → P (x st).2

variable {P : σ → Prop}

theorem keeps_pure (a : α) : Keeps P (pure a : StateM σ α) := fun _ h => h

theorem keeps_bind {x : StateM σ α} {f : α → StateM σ β} (hx : Keeps P x)
    (hf : ∀ a, Keeps P (f a)) : Keeps P (x >>= f) := fun st h => hf _ _ (hx st h)

/-- Actions on the elements of a list one after another, each of which keeps `P` and gives a result
that is related to the element. -/
theorem mapM_forall₂ {γ : Type} {R : γ → α → Prop} {f : γ → StateM σ α}
    (hf : ∀ c st, P st → ∃ a st', f c st = (a, st') ∧ P st' ∧ R c a) (cs : List γ) {st : σ}
    (hst : P st) :
    ∃ results st', cs.mapM f st = (results, st') ∧ P st' ∧ List.Forall₂ R cs results := by
  induction cs generalizing st with
  | nil => exact ⟨[], st, rfl, hst, .nil⟩
  | cons c rest ih =>
    obtain ⟨a, st₁, hrun, hst₁, ha⟩ := hf c st hst
    obtain ⟨results, st₂, hrest, hst₂, hresults⟩ := ih hst₁
    refine ⟨a :: results, st₂, ?_, hst₂, .cons ha hresults⟩
    rw [List.mapM_cons, bind_of_eq hrun, bind_of_eq hrest]
    rfl

/-- Where each action does the same on a view of the state, so do actions one after another. -/
theorem mapM_view {γ τ : Type} {view : σ → τ} {f : γ → StateM σ α} {g : γ → StateM τ α}
    (h : ∀ c st, g c (view st) = Prod.map id view (f c st)) (cs : List γ) (st : σ) :
    cs.mapM g (view st) = Prod.map id view (cs.mapM f st) := by
  induction cs generalizing st with
  | nil => rfl
  | cons c rest ih =>
    cases hstep : f c st with
    | mk a st₁ =>
      cases hrest : rest.mapM f st₁ with
      | mk results st₂ =>
        have hview := h c st
        have hviews := ih st₁
        rw [hstep] at hview
        rw [hrest] at hviews
        rw [List.mapM_cons, List.mapM_cons, bind_of_eq hstep, bind_of_eq hrest, bind_of_eq hview,
          bind_of_eq hviews]
        rfl

end Action

/-! ## Runs -/

namespace Run

variable {σ ε α β : Type} {st st' : σ}

theorem pure_apply (a : α) (st : σ) : (pure a : Run σ ε α) st = (.ok a, st) := rfl

theorem bind_of_ok {x : Run σ ε α} {a : α} (h : x st = (.ok a, st')) (f : α → Run σ ε β) :
    (x >>= f) st = f a st' := by
  change ExceptT.bindCont f (x st).1 (x st).2 = f a st'
  rw [h]
  rfl

theorem bind_of_error {x : Run σ ε α} {e : ε} (h : x st = (.error e, st')) (f : α → Run σ ε β) :
    (x >>= f) st = (.error e, st') := by
  change ExceptT.bindCont f (x st).1 (x st).2 = _
  rw [h]
  rfl

theorem tryCatch_of_ok {x : Run σ ε α} {a : α} (h : x st = (.ok a, st'))
    (handle : ε → Run σ ε α) : (tryCatch x handle) st = (.ok a, st') := by
  change (match (x st).1 with
    | .ok a => (pure (Except.ok a) : StateM σ (Except ε α))
    | .error e => handle e) (x st).2 = _
  rw [h]
  rfl

theorem tryCatch_of_error {x : Run σ ε α} {e : ε} (h : x st = (.error e, st'))
    (handle : ε → Run σ ε α) : (tryCatch x handle) st = handle e st' := by
  change (match (x st).1 with
    | .ok a => (pure (Except.ok a) : StateM σ (Except ε α))
    | .error e => handle e) (x st).2 = _
  rw [h]

theorem adapt_apply {δ : Type} (f : δ → ε) (x : Run σ δ α) (st : σ) :
    (x.adapt f : Run σ ε α) st = ((x st).1.mapError f, (x st).2) := rfl

theorem ofMisuse_ok (a : α) (st : σ) :
    (Failure.ofMisuse (.ok a) : Run σ Failure α) st = (.ok a, st) := rfl

/-- Whatever the outcome, the run keeps a property of the state. -/
def Keeps (P : σ → Prop) (x : Run σ ε α) : Prop := ∀ st, P st → P (x st).2

variable {P : σ → Prop}

theorem keeps_pure (a : α) : Keeps P (pure a : Run σ ε α) := fun _ h => h

theorem keeps_throw (e : ε) : Keeps P (throw e : Run σ ε α) := fun _ h => h

theorem keeps_bind {x : Run σ ε α} {f : α → Run σ ε β} (hx : Keeps P x)
    (hf : ∀ a, Keeps P (f a)) : Keeps P (x >>= f) := by
  intro st h
  have hmid := hx st h
  cases hrun : x st with
  | mk outcome st' =>
    rw [hrun] at hmid
    cases outcome with
    | error e =>
      rw [bind_of_error hrun]
      exact hmid
    | ok a =>
      rw [bind_of_ok hrun]
      exact hf a st' hmid

/-- A run goes on only with a result that is not refused. -/
theorem keeps_ofMisuse_bind {result : Except Misuse α} {f : α → Run σ Failure β}
    (hf : ∀ a, result = .ok a → Keeps P (f a)) : Keeps P (Failure.ofMisuse result >>= f) := by
  cases result with
  | error cause => exact keeps_throw _
  | ok a => exact hf a rfl

/-! ## Two runs -/

/-- Two runs ended with related results, or failed in the same way. -/
inductive Outcomes {ε α β : Type} (R : α → β → Prop) : Except ε α → Except ε β → Prop
  | ok {a : α} {b : β} : R a b → Outcomes R (.ok a) (.ok b)
  | error (e : ε) : Outcomes R (.error e) (.error e)

variable {τ γ δ : Type} {I : σ → τ → Prop} {R : α → β → Prop} {S : γ → δ → Prop}

/-- From states in the relation `I`, two runs lead to such states again and to outcomes that agree
up to `R`. -/
def Alike (I : σ → τ → Prop) (R : α → β → Prop) (x : Run σ ε α) (y : Run τ ε β) : Prop :=
  ∀ st st', I st st' → I (x st).2 (y st').2 ∧ Outcomes R (x st).1 (y st').1

theorem alike_pure {a : α} {b : β} (h : R a b) :
    Alike I R (pure a : Run σ ε α) (pure b) := fun _ _ hst => ⟨hst, .ok h⟩

theorem alike_throw (e : ε) : Alike I R (throw e : Run σ ε α) (throw e) :=
  fun _ _ hst => ⟨hst, .error e⟩

theorem alike_ofMisuse_bind {result : Except Misuse α} {f : α → Run σ Failure γ}
    {g : α → Run τ Failure δ} (hfg : ∀ a, result = .ok a → Alike I S (f a) (g a)) :
    Alike I S (Failure.ofMisuse result >>= f) (Failure.ofMisuse result >>= g) := by
  cases result with
  | error cause => exact alike_throw _
  | ok a => exact hfg a rfl

theorem alike_bind {x : Run σ ε α} {y : Run τ ε β} {f : α → Run σ ε γ} {g : β → Run τ ε δ}
    (hxy : Alike I R x y) (hfg : ∀ a b, R a b → Alike I S (f a) (g b)) :
    Alike I S (x >>= f) (y >>= g) := by
  intro st st' hst
  obtain ⟨hmid, hout⟩ := hxy st st' hst
  cases hx : x st with
  | mk outcome st₁ =>
    cases hy : y st' with
    | mk outcome' st₁' =>
      rw [hx, hy] at hmid hout
      cases hout with
      | ok hab =>
        rw [bind_of_ok hx, bind_of_ok hy]
        exact hfg _ _ hab _ _ hmid
      | error e =>
        rw [bind_of_error hx, bind_of_error hy]
        exact ⟨hmid, .error e⟩

end Run

end TwinSudoku
