import TwinSudoku.Proofs.Runs

/-!
# The first of several defects

Elements are looked at one after another, and the first one with a defect decides.

* `FirstDefect`: a defect of a list whose elements before it are good.
* `mapM_zipIdx_eq_ok_iff`, `mapM_zipIdx_eq_error_iff`: steps that give a result for each good
  element and fail with the defect of any other.
* `findSome?_zipIdx_eq_some_iff`: a search for defects.
-/

namespace TwinSudoku

variable {ε α β : Type}

/-- An element of the list has the defect, and all before it are good. What counts as a defect may
depend on the position of the element. -/
def FirstDefect (good : α → Prop) (defect : Nat → α → ε → Prop) (xs : List α) (e : ε) : Prop :=
  ∃ before x after, xs = before ++ x :: after ∧ (∀ y ∈ before, good y) ∧ defect before.length x e

theorem not_firstDefect_nil {good : α → Prop} {defect : Nat → α → ε → Prop} {e : ε} :
    ¬ FirstDefect good defect [] e := by
  rintro ⟨before, x, after, heq, -⟩
  simp at heq

theorem firstDefect_cons {good : α → Prop} {defect : Nat → α → ε → Prop} {x : α} {xs : List α}
    {e : ε} :
    FirstDefect good defect (x :: xs) e ↔
      defect 0 x e ∨ good x ∧ FirstDefect good (fun i => defect (i + 1)) xs e := by
  constructor
  · rintro ⟨before, y, after, heq, hbefore, hdefect⟩
    cases before with
    | nil =>
      cases heq
      exact .inl hdefect
    | cons z before =>
      cases heq
      obtain ⟨hz, hbefore⟩ := List.forall_mem_cons.1 hbefore
      exact .inr ⟨hz, before, y, after, rfl, hbefore, hdefect⟩
  · rintro (hdefect | ⟨hx, before, y, after, rfl, hbefore, hdefect⟩)
    · exact ⟨[], x, xs, rfl, List.forall_mem_nil _, hdefect⟩
    · exact ⟨x :: before, y, after, rfl, List.forall_mem_cons.2 ⟨hx, hbefore⟩, hdefect⟩

/-- The same where positions are counted from any number on. -/
theorem firstDefect_cons_from {good : α → Prop} {defect : Nat → α → ε → Prop} {x : α} {xs : List α}
    {e : ε} (n : Nat) :
    FirstDefect good (fun i => defect (n + i)) (x :: xs) e ↔
      defect n x e ∨ good x ∧ FirstDefect good (fun i => defect (n + 1 + i)) xs e := by
  have hshift : (fun i => defect (n + (i + 1))) = fun i => defect (n + 1 + i) := by
    funext i
    rw [Nat.add_assoc, Nat.add_comm 1]
  rw [firstDefect_cons, hshift, Nat.add_zero]

theorem firstDefect_map {γ : Type} {good : α → Prop} {defect : Nat → α → ε → Prop} {g : γ → α}
    {xs : List γ} {e : ε} :
    FirstDefect good defect (xs.map g) e ↔
      FirstDefect (fun x => good (g x)) (fun i x => defect i (g x)) xs e := by
  induction xs generalizing defect with
  | nil => simp only [List.map_nil, not_firstDefect_nil]
  | cons x rest ih => rw [List.map_cons, firstDefect_cons, firstDefect_cons, ih]

variable {f : α × Nat → Except ε β} {R : α → β → Prop} {D : Nat → α → ε → Prop}

theorem mapM_zipIdx_eq_ok_iff (hok : ∀ x i y, f (x, i) = .ok y ↔ R x y) {xs : List α} {ys : List β}
    (n : Nat) : (xs.zipIdx n).mapM f = .ok ys ↔ List.Forall₂ R xs ys := by
  induction xs generalizing ys n with
  | nil =>
    rw [List.forall₂_nil_left_iff]
    exact ⟨fun h => (Except.ok.inj h).symm, fun h => congrArg Except.ok h.symm⟩
  | cons x rest ih =>
    rw [List.zipIdx_cons, List.mapM_cons, bind_eq_ok, List.forall₂_cons_left_iff]
    simp only [bind_eq_ok, hok, ih]
    constructor
    · rintro ⟨y, hy, others, hothers, heq⟩
      exact ⟨y, others, hy, hothers, (Except.ok.inj heq).symm⟩
    · rintro ⟨y, others, hy, hothers, rfl⟩
      exact ⟨y, hy, others, hothers, rfl⟩

theorem mapM_zipIdx_eq_error_iff (hok : ∀ x i y, f (x, i) = .ok y ↔ R x y)
    (herror : ∀ x i e, f (x, i) = .error e ↔ D i x e) {xs : List α} {e : ε} (n : Nat) :
    (xs.zipIdx n).mapM f = .error e ↔
      FirstDefect (fun x => ∃ y, R x y) (fun i => D (n + i)) xs e := by
  induction xs generalizing n with
  | nil => exact ⟨nofun, fun h => absurd h not_firstDefect_nil⟩
  | cons x rest ih =>
    rw [List.zipIdx_cons, List.mapM_cons, firstDefect_cons_from, bind_eq_error, ← ih, herror]
    simp only [bind_eq_error, hok]
    refine or_congr_right ⟨?_, ?_⟩
    · rintro ⟨y, hy, hrest | ⟨_, _, hpure⟩⟩
      · exact ⟨⟨y, hy⟩, hrest⟩
      · cases hpure
    · rintro ⟨⟨y, hy⟩, hrest⟩
      exact ⟨y, hy, .inl hrest⟩

/-- A search that finds nothing at good elements, and a defect at all others, finds the first
one. -/
theorem findSome?_zipIdx_eq_some_iff {good : α → Prop} {d : α × Nat → Option ε}
    (hgood : ∀ x i, d (x, i) = none ↔ good x) (hdefect : ∀ x i e, d (x, i) = some e ↔ D i x e)
    {xs : List α} {e : ε} (n : Nat) :
    (xs.zipIdx n).findSome? d = some e ↔ FirstDefect good (fun i => D (n + i)) xs e := by
  induction xs generalizing n with
  | nil => exact ⟨nofun, fun h => absurd h not_firstDefect_nil⟩
  | cons x rest ih =>
    rw [List.zipIdx_cons, List.findSome?_cons, firstDefect_cons_from, ← ih, ← hdefect, ← hgood x n]
    cases d (x, n) with
    | some found => simp
    | none => simp

end TwinSudoku
