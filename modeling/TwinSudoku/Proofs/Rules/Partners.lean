import TwinSudoku.Proofs.Rules.Relabelling

/-!
# Partners of a board

A board that keeps the rules of one board goes together with itself under other digits: these rules
ask only which cells hold the same digit, and the two boards differ in every cell exactly when no
digit stays the same. Such digits are there from the second block size on, for each digit can be
replaced by the next one.

* `Pair.KeepsBoard`: the rules of one board, said of two cells at a time.
* `Size.next`: each digit replaced by the next one.
* `Pair.withPartner`: one board of a pair, and on the other one the same under other digits.
* `Pair.isSolution_withPartner_iff`: when this is a solution.
* `Pair.exists_completes_of_keepsBoard`: a board alone can always be completed.
-/

namespace TwinSudoku

theorem Board.eq_or_eq_other (g h : Board) : h = g ∨ h = g.other := by
  cases g <;> cases h <;> simp [other]

theorem Board.other_ne (g : Board) : g.other ≠ g := by
  cases g <;> simp [other]

theorem Cell.board_twin {c : Cell} {g : Board} (h : c.board = g.other) : c.twin.board = g := by
  rw [twin, h, Board.other_other]

/-! ## The next digit -/

namespace Size

variable {s : Size} {d : Nat}

/-- The next digit, and after the last one the first. -/
def next (s : Size) (d : Nat) : Nat := d % s.side + 1

theorem next_of_lt (h : d < s.side) : s.next d = d + 1 := by
  rw [next, Nat.mod_eq_of_lt h]

theorem next_side (s : Size) : s.next s.side = 1 := by
  rw [next, Nat.mod_self]

theorem perm_map_next (s : Size) : (s.digits.map s.next).Perm s.digits := by
  apply perm_map_of_inj
  · intro d _
    have hlt : d % s.side < s.side := Nat.mod_lt _ s.side_pos
    rw [mem_digits, next]
    omega
  · intro d hd e he heq
    rw [mem_digits] at hd he
    have hd' : d < s.side ∨ d = s.side := by omega
    have he' : e < s.side ∨ e = s.side := by omega
    rcases hd' with hd' | rfl <;> rcases he' with he' | rfl
    · rw [next_of_lt hd', next_of_lt he'] at heq
      omega
    · rw [next_of_lt hd', next_side] at heq
      omega
    · rw [next_of_lt he', next_side] at heq
      omega
    · rfl

theorem next_ne (h : 2 ≤ s.k) (hd : d ∈ s.digits) : s.next d ≠ d := by
  have hside : 2 * 2 ≤ s.side := Nat.mul_le_mul h h
  rw [mem_digits] at hd
  have hd' : d < s.side ∨ d = s.side := by omega
  rcases hd' with hd' | rfl
  · rw [next_of_lt hd']
    omega
  · rw [next_side]
    omega

end Size

namespace Pair

variable {s : Size} {diagonal : Bool} {p q : Pair s} {g : Board} {π : Nat → Nat}
  {related : Cell → Cell → Prop}

/-! ## The rules of one board -/

/-- Different cells of the board related by `related` hold different digits. -/
def DistinctOn (p : Pair s) (g : Board) (related : Cell → Cell → Prop) : Prop :=
  ∀ c d : Cell, c.Inside s → d.Inside s → c ≠ d → c.board = g → d.board = g → related c d →
    p.digit c ≠ p.digit d

/-- The board is complete and keeps the rules that speak of one board. -/
structure KeepsBoard (p : Pair s) (diagonal : Bool) (g : Board) : Prop where
  complete : ∀ c : Cell, c.Inside s → c.board = g → p.digit c ≠ 0
  row : p.DistinctOn g fun c d => c.row = d.row
  column : p.DistinctOn g fun c d => c.col = d.col
  block : p.DistinctOn g fun c d =>
    s.blockStart c.row = s.blockStart d.row ∧ s.blockStart c.col = s.blockStart d.col
  falling : diagonal → p.DistinctOn g fun c d => c.row = c.col ∧ d.row = d.col
  rising : diagonal → p.DistinctOn g fun c d =>
    c.row + c.col + 1 = s.side ∧ d.row + d.col + 1 = s.side

theorem Distinct.on (h : p.Distinct related) (g : Board) : p.DistinctOn g related := by
  intro c d hc hd hne hcg hdg hrel
  exact h c d hc hd hne (hcg.trans hdg.symm) hrel

/-- Each board of a pair that keeps all rules keeps those of one board. -/
theorem Solves.keepsBoard (h : p.Solves diagonal) (g : Board) : p.KeepsBoard diagonal g where
  complete c hc _ := h.complete c hc
  row := h.row.on g
  column := h.column.on g
  block := h.block.on g
  falling hdiag := (h.falling hdiag).on g
  rising hdiag := (h.rising hdiag).on g

/-- The rules of one board are about this board only. -/
theorem KeepsBoard.congr (h : p.KeepsBoard diagonal g)
    (hq : ∀ c : Cell, c.Inside s → c.board = g → q.digit c = p.digit c) :
    q.KeepsBoard diagonal g := by
  have hdistinct {related : Cell → Cell → Prop} (hp : p.DistinctOn g related) :
      q.DistinctOn g related := by
    intro c d hc hd hne hcg hdg hrel
    rw [hq c hc hcg, hq d hd hdg]
    exact hp c d hc hd hne hcg hdg hrel
  exact {
    complete := by
      intro c hc hcg
      rw [hq c hc hcg]
      exact h.complete c hc hcg
    row := hdistinct h.row
    column := hdistinct h.column
    block := hdistinct h.block
    falling := fun hdiag => hdistinct (h.falling hdiag)
    rising := fun hdiag => hdistinct (h.rising hdiag) }

/-! ## A board under other digits -/

/-- The board of the pair, and on the other one `π d` wherever it holds `d`. -/
def withPartner (p : Pair s) (g : Board) (π : Nat → Nat) : Pair s :=
  ofView s fun c => if c.board = g then p.digit c else π (p.digit c.twin)

theorem digit_withPartner (π : Nat → Nat) {c : Cell} (hc : c.Inside s) (hg : c.board = g) :
    (p.withPartner g π).digit c = p.digit c := by
  rw [withPartner, digit_ofView hc]
  · rw [if_pos hg]
  · rw [if_pos hg]
    exact p.digit_le c

theorem digit_withPartner_other (hπ : (s.digits.map π).Perm s.digits) {c : Cell}
    (hc : p.digit c.twin ≠ 0) (hg : c.board = g.other) :
    (p.withPartner g π).digit c = π (p.digit c.twin) := by
  have hin : c.Inside s := inside_of_digit_ne_zero (c := c.twin) hc
  have hne : c.board ≠ g := by
    rw [hg]
    exact g.other_ne
  have hle := (Size.mem_digits.1 (map_mem_digits hπ (digit_mem_digits.2 hc))).2
  rw [withPartner, digit_ofView hin]
  · rw [if_neg hne]
  · rw [if_neg hne]
    exact hle

theorem digit_withPartner_twin (hπ : (s.digits.map π).Perm s.digits) {c : Cell} (hc : p.digit c ≠ 0)
    (hg : c.board = g) : (p.withPartner g π).digit c.twin = π (p.digit c) := by
  have hother : c.twin.board = g.other := congrArg Board.other hg
  rw [← c.twin_twin] at hc
  rw [digit_withPartner_other hπ hc hother, c.twin_twin]

/-- What is said of the rows and columns of two cells of a board can be said of their twins, and
different digits stay different. -/
theorem KeepsBoard.distinct_withPartner (h : p.KeepsBoard diagonal g)
    (hπ : (s.digits.map π).Perm s.digits) (hrelated : ∀ c d, related c d → related c.twin d.twin)
    (hp : p.DistinctOn g related) : (p.withPartner g π).Distinct related := by
  intro c d hc hd hne hcd hrel
  rcases g.eq_or_eq_other c.board with hg | hg
  · have hgd : d.board = g := hcd ▸ hg
    rw [digit_withPartner π hc hg, digit_withPartner π hd hgd]
    exact hp c d hc hd hne hg hgd hrel
  · -- both cells are twins of cells of the board
    have hgd : d.board = g.other := hcd ▸ hg
    have hne' : c.twin ≠ d.twin := by
      intro heq
      rw [← c.twin_twin, heq, d.twin_twin] at hne
      exact hne rfl
    have hc0 := h.complete c.twin hc (Cell.board_twin hg)
    have hd0 := h.complete d.twin hd (Cell.board_twin hgd)
    have hdigit := hp c.twin d.twin hc hd hne' (Cell.board_twin hg) (Cell.board_twin hgd)
      (hrelated c d hrel)
    rw [digit_withPartner_other hπ hc0 hg, digit_withPartner_other hπ hd0 hgd]
    intro heq
    exact hdigit (eq_of_map_eq hπ (digit_mem_digits.2 hc0) (digit_mem_digits.2 hd0) heq)

/-- Where no digit stays the same, a cell of the board and its twin differ. -/
theorem KeepsBoard.differs_withPartner (h : p.KeepsBoard diagonal g)
    (hπ : (s.digits.map π).Perm s.digits) (hfree : ∀ d ∈ s.digits, π d ≠ d) {c : Cell}
    (hc : c.Inside s) (hg : c.board = g) :
    (p.withPartner g π).digit c ≠ (p.withPartner g π).digit c.twin := by
  have hc0 := h.complete c hc hg
  rw [digit_withPartner π hc hg, digit_withPartner_twin hπ hc0 hg]
  exact (hfree _ (digit_mem_digits.2 hc0)).symm

theorem KeepsBoard.solves_withPartner (h : p.KeepsBoard diagonal g)
    (hπ : (s.digits.map π).Perm s.digits) (hfree : ∀ d ∈ s.digits, π d ≠ d) :
    (p.withPartner g π).Solves diagonal where
  complete c hc := by
    rcases g.eq_or_eq_other c.board with hg | hg
    · rw [digit_withPartner π hc hg]
      exact h.complete c hc hg
    · have hc0 := h.complete c.twin hc (Cell.board_twin hg)
      have hmem := Size.mem_digits.1 (map_mem_digits hπ (digit_mem_digits.2 hc0))
      rw [digit_withPartner_other hπ hc0 hg]
      omega
  row := h.distinct_withPartner hπ (fun _ _ hrel => hrel) h.row
  column := h.distinct_withPartner hπ (fun _ _ hrel => hrel) h.column
  block := h.distinct_withPartner hπ (fun _ _ hrel => hrel) h.block
  falling hdiag := h.distinct_withPartner hπ (fun _ _ hrel => hrel) (h.falling hdiag)
  rising hdiag := h.distinct_withPartner hπ (fun _ _ hrel => hrel) (h.rising hdiag)
  twin c hc := by
    rcases g.eq_or_eq_other c.board with hg | hg
    · exact h.differs_withPartner hπ hfree hc hg
    · have hne := h.differs_withPartner hπ hfree (c := c.twin) hc (Cell.board_twin hg)
      rw [Cell.twin_twin] at hne
      exact hne.symm

/-- A board that keeps the rules is a solution together with itself under other digits exactly when
no digit stays the same. -/
theorem isSolution_withPartner_iff (h : p.KeepsBoard diagonal g)
    (hπ : (s.digits.map π).Perm s.digits) :
    (p.withPartner g π).isSolution diagonal ↔ ∀ d ∈ s.digits, π d ≠ d := by
  constructor
  · intro hsolution d hd
    -- the digit stands somewhere on the board, where it differs from its replacement
    obtain ⟨c, hg, hc⟩ := exists_digit_eq hsolution g hd
    have hin : c.Inside s := by
      apply inside_of_digit_ne_zero (p := p.withPartner g π)
      rw [hc]
      exact Nat.one_le_iff_ne_zero.1 (Size.mem_digits.1 hd).1
    have hne := (isSolution_iff_solves.1 hsolution).twin c hin
    rw [digit_withPartner_twin hπ (h.complete c hin hg) hg, hc] at hne
    rw [digit_withPartner π hin hg] at hc
    rw [hc] at hne
    exact hne.symm
  · intro hfree
    exact isSolution_of_solves (h.solves_withPartner hπ hfree)

/-- The board of a pair that makes a solution in this way keeps the rules. -/
theorem keepsBoard_of_withPartner (π : Nat → Nat) (h : (p.withPartner g π).isSolution diagonal) :
    p.KeepsBoard diagonal g := by
  refine ((solves_of_isSolution h).keepsBoard g).congr fun c hc hg => ?_
  rw [digit_withPartner π hc hg]

/-- A board that keeps the rules, with nothing on the other one, has a completion. -/
theorem exists_completes_of_keepsBoard (hk : 2 ≤ s.k) (h : p.KeepsBoard diagonal g)
    (hempty : ∀ c : Cell, c.board ≠ g → p.digit c = 0) : ∃ q : Pair s, q.Completes diagonal p := by
  refine ⟨p.withPartner g s.next, ?_, ?_⟩
  · rw [isSolution_withPartner_iff h s.perm_map_next]
    intro d hd
    exact Size.next_ne hk hd
  · intro c hc
    have hg : c.board = g := by
      by_contra hne
      exact hc (hempty c hne)
    exact digit_withPartner s.next (inside_of_digit_ne_zero hc) hg

end Pair

end TwinSudoku
