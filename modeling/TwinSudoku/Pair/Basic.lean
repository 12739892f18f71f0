import TwinSudoku.Misuse

/-!
# Pairs of boards

A pair of boards holds a digit or nothing, written 0, in each cell of two boards of one size.

* `Pair.digit` is the view of a pair: what each cell holds, with 0 outside the boards. Two
  pairs with the same view are equal (`Pair.ext_digit`).
* `Pair.set`, `Pair.clear` write one cell and refuse a cell outside the boards, `set` first of
  all a number that is no digit. `digit_put` says what a cell holds after a write.
* `Pair.ofView` is the pair with a given view (`digit_ofView`).
* `Pair.filled`, `Pair.filledCount`, `Pair.isComplete`, `Pair.rows` read the whole pair.
-/

namespace TwinSudoku

/-- Two boards of one size, their cells in the order of `Cell.place`. -/
structure Pair (s : Size) where
  values : Vector (Fin (s.side + 1)) (2 * s.area)
deriving DecidableEq

namespace Pair

variable {s : Size}

/-! ## Reading a cell -/

/-- What a cell holds: a digit, or 0 for nothing. Outside the boards there is nothing. -/
def digit (p : Pair s) (c : Cell) : Nat :=
  if h : c.Inside s then p.values[c.placeIn h].val else 0

def get (p : Pair s) (c : Cell) : Except Misuse Nat :=
  if c.Inside s then .ok (p.digit c) else .error .beyondBoards

/-- Whether a cell of the boards holds nothing. -/
def isEmpty (p : Pair s) (c : Cell) : Except Misuse Bool :=
  (p.get c).map (· == 0)

theorem digit_of_inside (p : Pair s) {c : Cell} (h : c.Inside s) :
    p.digit c = p.values[c.placeIn h].val := dif_pos h

theorem digit_of_not_inside (p : Pair s) {c : Cell} (h : ¬ c.Inside s) : p.digit c = 0 :=
  dif_neg h

theorem digit_le (p : Pair s) (c : Cell) : p.digit c ≤ s.side := by
  rw [digit]
  split
  · exact Nat.le_of_lt_succ (Fin.isLt _)
  · exact Nat.zero_le _

theorem digit_mem_digits {p : Pair s} {c : Cell} : p.digit c ∈ s.digits ↔ p.digit c ≠ 0 := by
  have := p.digit_le c
  rw [Size.mem_digits]
  omega

/-- A pair is determined by what its cells hold. -/
theorem ext_digit {p q : Pair s} (h : ∀ c, c.Inside s → p.digit c = q.digit c) : p = q := by
  obtain ⟨v⟩ := p
  obtain ⟨w⟩ := q
  congr 1
  apply Vector.ext
  intro i hi
  have hc := h (Cell.ofPlace s i) Cell.ofPlace_inside
  rw [digit_of_inside _ Cell.ofPlace_inside, digit_of_inside _ Cell.ofPlace_inside] at hc
  simpa [Cell.place_ofPlace hi, Fin.ext_iff] using hc

/-! ## Making and changing pairs -/

def empty (s : Size) : Pair s := ⟨Vector.replicate _ 0⟩

instance : Inhabited (Pair s) := ⟨empty s⟩

/-- A number as the value of a cell; numbers above the largest digit count as nothing. -/
def valueOf (s : Size) (n : Nat) : Fin (s.side + 1) :=
  if h : n ≤ s.side then ⟨n, Nat.lt_succ_of_le h⟩ else 0

/-- The pair whose cells hold what the view says. -/
def ofView (s : Size) (view : Cell → Nat) : Pair s :=
  ⟨Vector.ofFn fun i => valueOf s (view (Cell.ofPlace s i))⟩

/-- Puts a value into a cell of the boards. -/
def put (p : Pair s) (c : Cell) (h : c.Inside s) (v : Fin (s.side + 1)) : Pair s :=
  ⟨p.values.set (c.place s) v (Cell.place_lt h)⟩

def set (p : Pair s) (c : Cell) (d : Nat) : Except Misuse (Pair s) :=
  if hd : 1 ≤ d ∧ d ≤ s.side then
    if hc : c.Inside s then .ok (p.put c hc ⟨d, Nat.lt_succ_of_le hd.2⟩)
    else .error .beyondBoards
  else .error (.digitRefused d c)

/-- The pair without what it holds in a cell. -/
def without (p : Pair s) (c : Cell) : Pair s := if hc : c.Inside s then p.put c hc 0 else p

def clear (p : Pair s) (c : Cell) : Except Misuse (Pair s) :=
  if c.Inside s then .ok (p.without c) else .error .beyondBoards

theorem digit_empty (c : Cell) : (empty s).digit c = 0 := by
  rw [digit]
  split
  · simp [empty]
  · rfl

theorem digit_put (p : Pair s) {c e : Cell} (h : c.Inside s) (v : Fin (s.side + 1)) :
    (p.put c h v).digit e = if e = c then v.val else p.digit e := by
  by_cases he : e.Inside s
  · rw [digit_of_inside _ he, digit_of_inside _ he]
    by_cases hec : e = c
    · subst hec
      simp [put]
    · rw [if_neg hec]
      have hne : c.place s ≠ e.place s := fun heq => hec (Cell.place_injective he h heq.symm)
      simp [put, hne]
  · rw [digit_of_not_inside _ he, digit_of_not_inside _ he, if_neg]
    rintro rfl
    exact he h

theorem digit_without (p : Pair s) (c e : Cell) :
    (p.without c).digit e = if e = c then 0 else p.digit e := by
  rw [without]
  split
  · next h => exact digit_put p h 0
  · next h =>
    split
    · next he => rw [he, digit_of_not_inside _ h]
    · rfl

theorem digit_ofView {view : Cell → Nat} {c : Cell} (h : c.Inside s) (hv : view c ≤ s.side) :
    (ofView s view).digit c = view c := by
  rw [digit_of_inside _ h]
  simp [ofView, valueOf, Cell.ofPlace_place h, hv]

/-! ## Reading the whole pair -/

/-- The cells that hold a digit, in order. -/
def filled (p : Pair s) : List Cell := (Cell.all s).filter fun c => p.digit c != 0

def filledCount (p : Pair s) : Nat := p.values.toList.countP (· != 0)

def isComplete (p : Pair s) : Bool := p.filledCount == 2 * s.area

/-- The rows of one board, from the top. -/
def board (p : Pair s) (g : Board) : List (List Nat) :=
  (List.range s.side).map fun r => (List.range s.side).map fun c => p.digit ⟨g, r, c⟩

def rows (p : Pair s) : List (List Nat) := p.board .a ++ p.board .b

theorem mem_filled {p : Pair s} {c : Cell} : c ∈ p.filled ↔ c.Inside s ∧ p.digit c ≠ 0 := by
  simp [filled]

/-- A digit that is held lies inside the boards. -/
theorem inside_of_digit_ne_zero {p : Pair s} {c : Cell} (h : p.digit c ≠ 0) : c.Inside s :=
  Decidable.byContradiction fun hc => h (p.digit_of_not_inside hc)

end Pair

end TwinSudoku
