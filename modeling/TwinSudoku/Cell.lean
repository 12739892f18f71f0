import TwinSudoku.Size

/-!
# Boards and cells

* `Board`: the two boards of a pair, `A` and `B`.
* `Cell`: a board, a row and a column, each counted from 0. A cell may lie outside the boards
  of a given size; `Cell.Inside` says that it does not.
* `Cell.Before`: the order of cells by board, row and column.
* `Cell.place`, `Cell.ofPlace`: the cells of a size, numbered from 0 in that order. The two
  undo each other (`ofPlace_place`, `place_ofPlace`), and places are in the order of cells
  (`place_lt_place_iff`).
-/

namespace TwinSudoku

/-- One of the two boards of a pair. -/
inductive Board
  | a
  | b
deriving DecidableEq, Inhabited

namespace Board

def all : List Board := [a, b]

/-- The number of a board: 0 for the first and 1 for the second. -/
def index : Board → Nat
  | a => 0
  | b => 1

def ofIndex? : Nat → Option Board
  | 0 => some a
  | 1 => some b
  | _ => none

def other : Board → Board
  | a => b
  | b => a

def letter : Board → String
  | a => "A"
  | b => "B"

theorem ofIndex?_index (g : Board) : ofIndex? g.index = some g := by cases g <;> rfl

theorem other_other (g : Board) : g.other.other = g := by cases g <;> rfl

theorem index_lt (g : Board) : g.index < 2 := by cases g <;> decide

end Board

/-- A position on one of the boards. -/
@[ext] structure Cell where
  board : Board
  row : Nat
  col : Nat
deriving DecidableEq, Inhabited

namespace Cell

/-- The cell at the same position of the other board. -/
def twin (c : Cell) : Cell := { c with board := c.board.other }

theorem twin_twin (c : Cell) : c.twin.twin = c := by
  cases c
  simp [twin, Board.other_other]

/-- The name of a cell: the letter of the board, then row and column in brackets. -/
def name (c : Cell) : String :=
  c.board.letter ++ "[" ++ toString c.row ++ "," ++ toString c.col ++ "]"

/-- The order by board, then row, then column. -/
def Before (c d : Cell) : Prop :=
  c.board.index < d.board.index ∨
    c.board = d.board ∧ (c.row < d.row ∨ c.row = d.row ∧ c.col < d.col)

instance (c d : Cell) : Decidable (c.Before d) := inferInstanceAs (Decidable (_ ∨ _))

/-- Cells in the order of boards, rows and columns; equal cells stay as they are. -/
def sorted (cells : List Cell) : List Cell :=
  cells.mergeSort fun c d => !decide (d.Before c)

/-- The row and the column are those of a board of this size. -/
def Inside (c : Cell) (s : Size) : Prop := c.row < s.side ∧ c.col < s.side

instance (c : Cell) (s : Size) : Decidable (c.Inside s) := inferInstanceAs (Decidable (_ ∧ _))

/-- The number of a cell among those of both boards, in order and from 0. -/
def place (s : Size) (c : Cell) : Nat := c.board.index * s.area + (c.row * s.side + c.col)

def ofPlace (s : Size) (i : Nat) : Cell :=
  ⟨if i < s.area then .a else .b, i % s.area / s.side, i % s.side⟩

/-- The cells of both boards, in order. -/
def all (s : Size) : List Cell := (List.range (2 * s.area)).map (ofPlace s)

theorem place_in_board_lt {s : Size} {c : Cell} (h : c.Inside s) :
    c.row * s.side + c.col < s.area := by
  have hrow : c.row * s.side + s.side ≤ s.side * s.side := by
    have := Nat.mul_le_mul_right s.side (Nat.succ_le_of_lt h.1)
    rwa [Nat.succ_mul] at this
  have := h.2
  rw [Size.area]
  omega

theorem place_lt {s : Size} {c : Cell} (h : c.Inside s) : c.place s < 2 * s.area := by
  have := place_in_board_lt h
  have := c.board.index_lt
  rw [place]
  have : c.board.index * s.area ≤ 1 * s.area := Nat.mul_le_mul_right _ (by omega)
  omega

/-- The number of a cell of the boards, as one of the numbers that there are. -/
def placeIn {s : Size} (c : Cell) (h : c.Inside s) : Fin (2 * s.area) := ⟨c.place s, place_lt h⟩

@[simp] theorem val_placeIn {s : Size} (c : Cell) (h : c.Inside s) :
    (c.placeIn h).val = c.place s := rfl

theorem ofPlace_place {s : Size} {c : Cell} (h : c.Inside s) : ofPlace s (c.place s) = c := by
  have hlt := place_in_board_lt h
  have hside := s.side_pos
  have harea : s.area = s.side * s.side := rfl
  obtain ⟨g, r, k⟩ := c
  have hk : k < s.side := h.2
  have hmod : (g.index * s.area + (r * s.side + k)) % s.area = r * s.side + k := by
    rw [Nat.mul_comm, Nat.mul_add_mod, Nat.mod_eq_of_lt hlt]
  have hcol : (g.index * s.area + (r * s.side + k)) % s.side = k := by
    rw [harea, ← Nat.mul_assoc, ← Nat.add_assoc, ← Nat.add_mul, Nat.mul_comm, Nat.mul_add_mod,
      Nat.mod_eq_of_lt hk]
  have hrow : (r * s.side + k) / s.side = r := by
    rw [Nat.mul_comm, Nat.mul_add_div hside, Nat.div_eq_of_lt hk, Nat.add_zero]
  simp only [ofPlace, place, hmod, hcol, hrow, Cell.mk.injEq, and_true]
  cases g with
  | a => exact if_pos (by simpa [Board.index] using hlt)
  | b => exact if_neg (by simp [Board.index])

theorem ofPlace_inside {s : Size} {i : Nat} : (ofPlace s i).Inside s := by
  have hside := s.side_pos
  constructor
  · exact (Nat.div_lt_iff_lt_mul hside).2 (Nat.mod_lt _ s.area_pos)
  · exact Nat.mod_lt _ hside

theorem place_ofPlace {s : Size} {i : Nat} (h : i < 2 * s.area) : (ofPlace s i).place s = i := by
  have harea : s.area = s.side * s.side := rfl
  have hin : i % s.area / s.side * s.side + i % s.side = i % s.area := by
    have hmod : i % s.side = i % s.area % s.side := by
      rw [harea, Nat.mod_mul_left_mod]
    rw [hmod, Nat.mul_comm]
    exact Nat.div_add_mod _ _
  simp only [ofPlace, place, hin]
  split
  · next hlt => simp [Board.index, Nat.mod_eq_of_lt hlt]
  · next hge =>
    have hsub : i % s.area = i - s.area := by
      rw [Nat.mod_eq_sub_mod (by omega), Nat.mod_eq_of_lt (by omega)]
    simp only [Board.index, hsub]
    omega

theorem place_injective {s : Size} {c d : Cell} (hc : c.Inside s) (hd : d.Inside s)
    (h : c.place s = d.place s) : c = d := by
  rw [← ofPlace_place hc, h, ofPlace_place hd]

@[simp] theorem mem_all {s : Size} {c : Cell} : c ∈ all s ↔ c.Inside s := by
  simp only [all, List.mem_map, List.mem_range]
  constructor
  · rintro ⟨i, _, rfl⟩
    exact ofPlace_inside
  · intro h
    exact ⟨c.place s, place_lt h, ofPlace_place h⟩

theorem place_lt_place_iff {s : Size} {c d : Cell} (hc : c.Inside s) (hd : d.Inside s) :
    c.place s < d.place s ↔ c.Before d := by
  have hcp := place_in_board_lt hc
  have hdp := place_in_board_lt hd
  obtain ⟨g, r, k⟩ := c
  obtain ⟨g', r', k'⟩ := d
  have hk : k < s.side := hc.2
  have hk' : k' < s.side := hd.2
  have hin : r * s.side + k < r' * s.side + k' ↔ r < r' ∨ r = r' ∧ k < k' := by
    constructor
    · intro h
      rcases Nat.lt_trichotomy r r' with hr | hr | hr
      · exact .inl hr
      · subst hr
        exact .inr ⟨rfl, by omega⟩
      · have := Nat.mul_le_mul_right s.side (Nat.succ_le_of_lt hr)
        rw [Nat.succ_mul] at this
        omega
    · rintro (hr | ⟨rfl, hkk⟩)
      · have := Nat.mul_le_mul_right s.side (Nat.succ_le_of_lt hr)
        rw [Nat.succ_mul] at this
        omega
      · omega
  simp only [place] at hcp hdp ⊢
  cases g <;> cases g' <;> simp only [Before, Board.index, reduceCtorEq, false_and, or_false,
    true_and, Nat.lt_irrefl, false_or, Nat.zero_mul, Nat.zero_add, Nat.one_mul] <;> omega

end Cell

end TwinSudoku
