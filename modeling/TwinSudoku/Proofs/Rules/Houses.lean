import Mathlib.Data.List.Nodup
import TwinSudoku.Pair.Rules

/-!
# The cells of houses

Every house has as many cells as there are digits, all inside the boards and no two the same
(`House.proper_of_mem_all`). The lists of cells are read as conditions on rows and columns:

* `House.mem_row`, `House.mem_column`, `House.mem_falling`, `House.mem_rising`.
* `House.mem_block`: a block is where the rows cross one band and the columns one stack.
* `House.exists_block_iff`: two cells of a board lie in a common block exactly when their blocks
  start at the same row and column, so that the blocks cover the board without overlap.
-/

namespace TwinSudoku

theorem Size.blockStart_eq_iff {s : Size} {i j : Nat} :
    s.blockStart i = s.blockStart j ↔ i / s.k = j / s.k := by
  have hstart (n : Nat) : s.blockStart n = s.k * (n / s.k) := by
    have := Nat.div_add_mod n s.k
    rw [Size.blockStart]
    omega
  rw [hstart, hstart]
  exact Nat.mul_right_inj (Nat.pos_iff_ne_zero.1 s.k_pos)

theorem Size.div_lt_k {s : Size} {i : Nat} (h : i < s.side) : i / s.k < s.k :=
  (Nat.div_lt_iff_lt_mul s.k_pos).2 h

/-- A block, or a position in it, given by its two coordinates. -/
theorem Size.pack_lt {s : Size} {i j : Nat} (hi : i < s.k) (hj : j < s.k) :
    i * s.k + j < s.side := by
  have := Nat.mul_le_mul_right s.k (Nat.succ_le_of_lt hi)
  rw [Nat.succ_mul] at this
  rw [Size.side]
  omega

theorem Size.pack_div {s : Size} {i j : Nat} (hj : j < s.k) : (i * s.k + j) / s.k = i := by
  rw [Nat.mul_comm, Nat.mul_add_div s.k_pos, Nat.div_eq_of_lt hj, Nat.add_zero]

theorem Size.pack_mod {s : Size} {i j : Nat} (hj : j < s.k) : (i * s.k + j) % s.k = j := by
  rw [Nat.mul_comm, Nat.mul_add_mod, Nat.mod_eq_of_lt hj]

namespace House

variable {s : Size} {g : Board} {c : Cell}

/-! ## Members -/

theorem mem_row {r : Nat} : c ∈ row s g r ↔ c.board = g ∧ c.row = r ∧ c.col < s.side := by
  simp only [row, List.mem_map, List.mem_range]
  constructor
  · rintro ⟨k, hk, rfl⟩
    exact ⟨rfl, rfl, hk⟩
  · rintro ⟨rfl, rfl, hk⟩
    exact ⟨c.col, hk, rfl⟩

theorem inside_of_mem_row {r : Nat} (hr : r < s.side) (h : c ∈ row s g r) : c.Inside s := by
  obtain ⟨_, rfl, hcol⟩ := mem_row.1 h
  exact ⟨hr, hcol⟩

theorem mem_column {k : Nat} : c ∈ column s g k ↔ c.board = g ∧ c.col = k ∧ c.row < s.side := by
  simp only [column, List.mem_map, List.mem_range]
  constructor
  · rintro ⟨r, hr, rfl⟩
    exact ⟨rfl, rfl, hr⟩
  · rintro ⟨rfl, rfl, hr⟩
    exact ⟨c.row, hr, rfl⟩

theorem mem_falling : c ∈ falling s g ↔ c.board = g ∧ c.row < s.side ∧ c.row = c.col := by
  simp only [falling, List.mem_map, List.mem_range]
  constructor
  · rintro ⟨i, hi, rfl⟩
    exact ⟨rfl, hi, rfl⟩
  · rintro ⟨rfl, hr, hrc⟩
    exact ⟨c.row, hr, Cell.ext rfl rfl hrc⟩

theorem mem_rising : c ∈ rising s g ↔ c.board = g ∧ c.row + c.col + 1 = s.side := by
  simp only [rising, List.mem_map, List.mem_range]
  constructor
  · rintro ⟨i, hi, rfl⟩
    exact ⟨rfl, by dsimp only; omega⟩
  · rintro ⟨rfl, hsum⟩
    exact ⟨c.row, by omega, Cell.ext rfl rfl (by dsimp only; omega)⟩

theorem mem_block {b : Nat} (hb : b < s.side) :
    c ∈ block s g b ↔
      c.Inside s ∧ c.board = g ∧ c.row / s.k = b / s.k ∧ c.col / s.k = b % s.k := by
  simp only [block, List.mem_map, List.mem_range]
  constructor
  · rintro ⟨i, hi, rfl⟩
    have hmod : b % s.k < s.k := Nat.mod_lt _ s.k_pos
    have hmod' : i % s.k < s.k := Nat.mod_lt _ s.k_pos
    exact ⟨⟨Size.pack_lt (Size.div_lt_k hb) (Size.div_lt_k hi), Size.pack_lt hmod hmod'⟩, rfl,
      Size.pack_div (Size.div_lt_k hi), Size.pack_div hmod'⟩
  · rintro ⟨_, rfl, hr, hk⟩
    have hrow : c.row % s.k < s.k := Nat.mod_lt _ s.k_pos
    have hcol : c.col % s.k < s.k := Nat.mod_lt _ s.k_pos
    refine ⟨c.row % s.k * s.k + c.col % s.k, Size.pack_lt hrow hcol, ?_⟩
    rw [Size.pack_div hcol, Size.pack_mod hcol, ← hr, ← hk]
    exact Cell.ext rfl (Nat.div_add_mod' _ _) (Nat.div_add_mod' _ _)

/-- Two cells of a board share a block exactly when their blocks start at the same cell. -/
theorem exists_block_iff {d : Cell} (hc : c.Inside s) (hd : d.Inside s) (hg : c.board = d.board) :
    (∃ b < s.side, c ∈ block s c.board b ∧ d ∈ block s c.board b) ↔
      s.blockStart c.row = s.blockStart d.row ∧ s.blockStart c.col = s.blockStart d.col := by
  rw [Size.blockStart_eq_iff, Size.blockStart_eq_iff]
  constructor
  · rintro ⟨b, hb, hcb, hdb⟩
    obtain ⟨_, _, hcr, hck⟩ := (mem_block hb).1 hcb
    obtain ⟨_, _, hdr, hdk⟩ := (mem_block hb).1 hdb
    exact ⟨hcr.trans hdr.symm, hck.trans hdk.symm⟩
  · rintro ⟨hrow, hcol⟩
    have hk := Size.div_lt_k hc.2
    refine ⟨c.row / s.k * s.k + c.col / s.k, Size.pack_lt (Size.div_lt_k hc.1) hk, ?_, ?_⟩
    all_goals
      rw [mem_block (Size.pack_lt (Size.div_lt_k hc.1) hk), Size.pack_div hk, Size.pack_mod hk]
    · exact ⟨hc, rfl, rfl, rfl⟩
    · exact ⟨hd, hg.symm, hrow.symm, hcol.symm⟩

/-! ## The houses of a board -/

variable {diagonal : Bool}

theorem row_mem_all (diagonal : Bool) {r : Nat} (hr : r < s.side) :
    row s g r ∈ all s diagonal g := by
  simp only [all, List.mem_append]
  exact .inl (.inl (.inl (List.mem_map_of_mem (List.mem_range.2 hr))))

theorem column_mem_all (diagonal : Bool) {k : Nat} (hk : k < s.side) :
    column s g k ∈ all s diagonal g := by
  simp only [all, List.mem_append]
  exact .inl (.inl (.inr (List.mem_map_of_mem (List.mem_range.2 hk))))

theorem block_mem_all (diagonal : Bool) {b : Nat} (hb : b < s.side) :
    block s g b ∈ all s diagonal g := by
  simp only [all, List.mem_append]
  exact .inl (.inr (List.mem_map_of_mem (List.mem_range.2 hb)))

theorem falling_mem_all (h : diagonal) : falling s g ∈ all s diagonal g := by
  simp [all, h]

theorem rising_mem_all (h : diagonal) : rising s g ∈ all s diagonal g := by
  simp [all, h]

/-- The houses of a board are its rows, columns and blocks, and its diagonals on request. -/
theorem forall_mem_all {P : List Cell → Prop} :
    (∀ house ∈ all s diagonal g, P house) ↔
      (∀ r < s.side, P (row s g r)) ∧ (∀ k < s.side, P (column s g k)) ∧
      (∀ b < s.side, P (block s g b)) ∧ (diagonal → P (falling s g) ∧ P (rising s g)) := by
  constructor
  · intro h
    exact ⟨fun r hr => h _ (row_mem_all diagonal hr), fun k hk => h _ (column_mem_all diagonal hk),
      fun b hb => h _ (block_mem_all diagonal hb), fun hd => ⟨h _ (falling_mem_all hd),
      h _ (rising_mem_all hd)⟩⟩
  · rintro ⟨hrow, hcolumn, hblock, hdiag⟩ house hmem
    simp only [all, List.mem_append, List.mem_map, List.mem_range] at hmem
    rcases hmem with ((⟨r, hr, rfl⟩ | ⟨k, hk, rfl⟩) | ⟨b, hb, rfl⟩) | hmem
    · exact hrow r hr
    · exact hcolumn k hk
    · exact hblock b hb
    · cases diagonal with
      | false => simp at hmem
      | true =>
        simp only [if_true, List.mem_cons, List.not_mem_nil, or_false] at hmem
        rcases hmem with rfl | rfl
        · exact (hdiag rfl).1
        · exact (hdiag rfl).2

/-! ## Shape -/

/-- As many cells as there are digits, all inside the boards and no two the same. -/
structure Proper (s : Size) (house : List Cell) : Prop where
  nodup : house.Nodup
  length_eq : house.length = s.side
  inside : ∀ c ∈ house, c.Inside s

/-- A house that is given by its cells from the first to the last. -/
theorem proper_map {f : Nat → Cell} (hinj : ∀ i < s.side, ∀ j < s.side, f i = f j → i = j)
    (hin : ∀ i < s.side, (f i).Inside s) : Proper s ((List.range s.side).map f) where
  nodup := (List.nodup_map_iff_inj_on List.nodup_range).2 fun i hi j hj =>
    hinj i (List.mem_range.1 hi) j (List.mem_range.1 hj)
  length_eq := by simp
  inside := by simpa using hin

theorem proper_of_mem_all {house : List Cell} (h : house ∈ all s diagonal g) :
    Proper s house := by
  have hmod (i : Nat) : i % s.k < s.k := Nat.mod_lt _ s.k_pos
  refine forall_mem_all.2 ⟨fun r hr => ?_, fun k hk => ?_, fun b hb => ?_, fun _ => ⟨?_, ?_⟩⟩
    house h
  · exact proper_map (fun i _ j _ hij => congrArg Cell.col hij) fun i hi => ⟨hr, hi⟩
  · exact proper_map (fun i _ j _ hij => congrArg Cell.row hij) fun i hi => ⟨hi, hk⟩
  · refine proper_map (fun i hi j hj hij => ?_) fun i hi =>
      ⟨Size.pack_lt (Size.div_lt_k hb) (Size.div_lt_k hi), Size.pack_lt (hmod b) (hmod i)⟩
    -- the row and the column of a cell of the block give back its place in the block
    have hdiv : i / s.k = j / s.k := Nat.add_left_cancel (congrArg Cell.row hij)
    have hrem : i % s.k = j % s.k := Nat.add_left_cancel (congrArg Cell.col hij)
    rw [← Nat.div_add_mod i s.k, ← Nat.div_add_mod j s.k, hdiv, hrem]
  · exact proper_map (fun i _ j _ hij => congrArg Cell.row hij) fun i hi => ⟨hi, hi⟩
  · refine proper_map (fun i _ j _ hij => congrArg Cell.row hij) fun i hi => ⟨hi, ?_⟩
    dsimp only
    omega

end House

end TwinSudoku
