import Mathlib.Algebra.Ring.Int.Defs
import Mathlib.Algebra.Ring.Nat
import TwinSudoku.Proofs.Numbering.Order
import TwinSudoku.Proofs.Runs

/-!
# The numbering on machine words

Variables are natural numbers here, and literals integers. On a machine they are words, and a value
that is too large for its word would be cut. The module carries out the same calculations word by
word: every product, every sum and every narrowing is refused where its value does not fit. None is
refused when words have at least 32 bits, so that nothing is cut on the way either.

* `Words.variableOf`, `Words.meaningOf`, `Words.asserted`, `Words.denied`: the calculations, by the
  powers of the side and with a check of each intermediate value.
* `Words.variableOf_eq`, `Words.meaningOf_eq`: they give what `Size.variableOf` and `Size.meaningOf`
  give, and refuse what these refuse.
* `Size.variableOf_eq_ok_iff_meaningOf`: cells with digits and variables correspond one to one.
* `Size.numbering_ordered_in_words`: the correspondence, its domains, its order and its words.
-/

namespace TwinSudoku

/-- Why a calculation on words has no result. -/
inductive WordFailure
  /-- A value does not fit its word. -/
  | overflow
  | misuse (cause : Misuse)

namespace Words

/-! ## Words -/

/-- A number in an unsigned word. -/
def unsigned (bits n : Nat) : Except WordFailure Nat :=
  if n < 2 ^ bits then .ok n else .error .overflow

/-- An integer in a word with a sign. -/
def signed (bits : Nat) (x : Int) : Except WordFailure Int :=
  if -2 ^ (bits - 1) ≤ x ∧ x < 2 ^ (bits - 1) then .ok x else .error .overflow

/-- A difference of unsigned words. -/
def minus (m n : Nat) : Except WordFailure Nat :=
  if n ≤ m then .ok (m - n) else .error .overflow

/-! ## The calculations -/

section Calculations

variable (bits : Nat) (s : Size)

/-- The second, the fourth and the sixth power of the block size. -/
structure Powers where
  side : Nat
  area : Nat
  volume : Nat

def powers : Except WordFailure Powers := do
  let side ← unsigned bits (s.k * s.k)
  let area ← unsigned bits (side * side)
  let volume ← unsigned bits (area * side)
  return ⟨side, area, volume⟩

/-- The largest digit, which is kept in eight bits. -/
def largestDigit : Except WordFailure Nat := do
  let side ← unsigned bits (s.k * s.k)
  unsigned 8 side

/-- The variable of a cell and a digit. Nothing is multiplied before both have been looked at. -/
def variableOf (c : Cell) (d : Nat) : Except WordFailure Nat := do
  let powers ← powers bits s
  if c.row < powers.side ∧ c.col < powers.side then
    if 1 ≤ d ∧ d ≤ powers.side then
      let board ← unsigned bits (c.board.index * powers.volume)
      let row ← unsigned bits (c.row * powers.area)
      let toRow ← unsigned bits (board + row)
      let col ← unsigned bits (c.col * powers.side)
      let toCol ← unsigned bits (toRow + col)
      let number ← unsigned bits (toCol + d)
      unsigned 32 number
    else throw (.misuse (.digitOutside d powers.side))
  else throw (.misuse (.cellOutside c powers.side))

/-- The cell and the digit of a variable. -/
def meaningOf (v : Nat) : Except WordFailure (Cell × Nat) := do
  let powers ← powers bits s
  let count ← unsigned bits (2 * powers.volume)
  if 1 ≤ v ∧ v ≤ count then
    let offset ← minus v 1
    let board ← (Board.ofIndex (offset / powers.volume)).mapError .misuse
    let row := offset % powers.volume / powers.area
    let col := offset % powers.area / powers.side
    let digit ← unsigned bits (offset % powers.side + 1)
    let digit ← unsigned 8 digit
    return (⟨board, row, col⟩, digit)
  else throw (.misuse (.variableOutside v count))

def asserted (c : Cell) (d : Nat) : Except WordFailure Int := do
  let v ← variableOf bits s c d
  signed 32 v

def denied (c : Cell) (d : Nat) : Except WordFailure Int := do
  let l ← asserted bits s c d
  signed 32 (-l)

end Calculations

variable {bits : Nat} {s : Size} {c : Cell} {d v : Nat}

/-! ## What fits -/

theorem unsigned_of_le (hbits : 32 ≤ bits) {n : Nat} (hn : n ≤ s.variableCount) :
    unsigned bits n = .ok n := by
  have hcount := s.variableCount_le
  have hpow : 2 ^ 32 ≤ 2 ^ bits := Nat.pow_le_pow_right (by decide) hbits
  exact if_pos (by omega)

/-- A calculation goes on with a number that is no larger than the last variable. -/
theorem unsigned_bind {α : Type} (hbits : 32 ≤ bits) {n : Nat} (hn : n ≤ s.variableCount)
    (f : Nat → Except WordFailure α) : (unsigned bits n >>= f) = f n := by
  rw [unsigned_of_le hbits hn]
  rfl

theorem unsigned_eight (hd : d ≤ s.side) : unsigned 8 d = .ok d := by
  have hside := s.side_le
  exact if_pos (by omega)

/-- A literal fits a word with a sign, and so does its opposite. -/
theorem signed_of_natAbs_le {x : Int} (hx : x.natAbs ≤ s.variableCount) :
    signed 32 x = .ok x := by
  have hcount := s.variableCount_le
  exact if_pos (by omega)

theorem volume_le_count (s : Size) : s.area * s.side ≤ s.variableCount :=
  Nat.le_mul_of_pos_left _ Nat.two_pos

theorem area_le_count (s : Size) : s.area ≤ s.variableCount :=
  (Nat.le_mul_of_pos_right s.area s.side_pos).trans (volume_le_count s)

theorem side_le_count (s : Size) : s.side ≤ s.variableCount :=
  (Nat.le_mul_of_pos_right s.side s.side_pos).trans (area_le_count s)

theorem powers_bind {α : Type} (hbits : 32 ≤ bits) (s : Size)
    (f : Powers → Except WordFailure α) :
    (powers bits s >>= f) = f ⟨s.side, s.area, s.area * s.side⟩ := by
  rw [powers, ← Size.side, unsigned_bind hbits (side_le_count s), ← Size.area,
    unsigned_bind hbits (area_le_count s), unsigned_bind hbits (volume_le_count s)]
  rfl

theorem largestDigit_eq (hbits : 32 ≤ bits) (s : Size) : largestDigit bits s = .ok s.side := by
  rw [largestDigit, ← Size.side, unsigned_bind hbits (side_le_count s),
    unsigned_eight (Nat.le_refl _)]

/-! ## The calculations agree -/

/-- The number of a variable by the powers of the block size. -/
theorem number_eq (s : Size) (c : Cell) (d : Nat) :
    s.number c d =
      c.board.index * (s.area * s.side) + c.row * s.area + c.col * s.side + d := by
  rw [Size.number, Cell.place, Nat.add_mul, Nat.add_mul, Nat.mul_assoc, Nat.mul_assoc,
    ← Size.area, ← Nat.add_assoc]

theorem variableOf_eq (hbits : 32 ≤ bits) (s : Size) (c : Cell) (d : Nat) :
    variableOf bits s c d = (s.variableOf c d).mapError .misuse := by
  rw [variableOf, powers_bind hbits, Size.variableOf]
  dsimp only
  by_cases hc : c.Inside s
  · rw [if_pos hc, if_pos (show c.row < s.side ∧ c.col < s.side from hc)]
    by_cases hd : 1 ≤ d ∧ d ≤ s.side
    · -- no value on the way is larger than the result
      have hle := Size.number_le hc hd.2
      have hnumber := number_eq s c d
      have hstep {n : Nat} (hn : n ≤ s.number c d) (f : Nat → Except WordFailure Nat) :
          (unsigned bits n >>= f) = f n := unsigned_bind hbits (hn.trans hle) f
      rw [if_pos hd, if_pos hd, hstep (by omega), hstep (by omega), hstep (by omega),
        hstep (by omega), hstep (by omega), hstep (by omega), ← hnumber,
        unsigned_of_le (Nat.le_refl 32) hle]
      rfl
    · rw [if_neg hd, if_neg hd]
      rfl
  · rw [if_neg hc, if_neg (show ¬ (c.row < s.side ∧ c.col < s.side) from hc)]
    rfl

theorem ofIndex_div {i : Nat} (hi : i < 2 * s.area) :
    Board.ofIndex (i / s.area) = .ok (if i < s.area then .a else .b) := by
  split
  · next hlt =>
    rw [Nat.div_eq_of_lt hlt]
    rfl
  · next hge =>
    have hone : i / s.area = 1 := Nat.div_eq_of_lt_le (by omega) (by omega)
    rw [hone]
    rfl

theorem meaningOf_eq (hbits : 32 ≤ bits) (s : Size) (v : Nat) :
    meaningOf bits s v = (s.meaningOf v).mapError .misuse := by
  have hcount : 2 * (s.area * s.side) = s.variableCount := rfl
  rw [meaningOf, powers_bind hbits, Size.meaningOf]
  dsimp only
  rw [hcount, unsigned_bind (s := s) hbits (Nat.le_refl _)]
  by_cases hv : s.HasVariable v
  · have hv' : 1 ≤ v ∧ v ≤ s.variableCount := hv
    have hplace : (v - 1) / s.side < 2 * s.area := by
      rw [Nat.div_lt_iff_lt_mul s.side_pos, Nat.mul_assoc, hcount]
      omega
    have hboard : (v - 1) / (s.area * s.side) = (v - 1) / s.side / s.area := by
      rw [Nat.div_div_eq_div_mul, Nat.mul_comm]
    have hrow : (v - 1) % (s.area * s.side) / s.area =
        (v - 1) / s.side % s.area / s.side := by
      rw [← Nat.mod_mul_right_div_self, Nat.div_div_eq_div_mul, Nat.mul_comm s.side, Size.area]
    have hcol : (v - 1) % s.area / s.side = (v - 1) / s.side % s.side :=
      Nat.mod_mul_right_div_self _ _ _
    have hdigit : (v - 1) % s.side + 1 ≤ s.side := Nat.mod_lt _ s.side_pos
    have hminus : minus v 1 = .ok (v - 1) := if_pos hv.1
    rw [if_pos hv, if_pos hv', hminus]
    change ((Board.ofIndex ((v - 1) / (s.area * s.side))).mapError WordFailure.misuse >>= _) = _
    rw [hboard, ofIndex_div hplace]
    change (unsigned bits ((v - 1) % s.side + 1) >>= _) = _
    rw [unsigned_bind hbits (hdigit.trans (side_le_count s)), unsigned_eight hdigit, hrow, hcol]
    rfl
  · have hv' : ¬ (1 ≤ v ∧ v ≤ s.variableCount) := hv
    rw [if_neg hv, if_neg hv']
    rfl

theorem asserted_eq (hbits : 32 ≤ bits) (s : Size) (c : Cell) (d : Nat) :
    asserted bits s c d = (s.asserted c d).mapError .misuse := by
  rw [asserted, variableOf_eq hbits, Size.asserted]
  cases hv : s.variableOf c d with
  | error cause => rfl
  | ok v =>
    obtain ⟨hc, hd, rfl⟩ := Size.variableOf_eq_ok_iff.1 hv
    refine bind_eq_ok.2 ⟨s.number c d, rfl, ?_⟩
    exact signed_of_natAbs_le (s := s) (Size.hasVariable_number hc hd).2

theorem denied_eq (hbits : 32 ≤ bits) (s : Size) (c : Cell) (d : Nat) :
    denied bits s c d = (s.denied c d).mapError .misuse := by
  rw [denied, asserted_eq hbits, Size.asserted, Size.denied]
  cases hv : s.variableOf c d with
  | error cause => rfl
  | ok v =>
    obtain ⟨hc, hd, rfl⟩ := Size.variableOf_eq_ok_iff.1 hv
    refine bind_eq_ok.2 ⟨s.number c d, rfl, ?_⟩
    apply signed_of_natAbs_le (s := s)
    rw [Int.natAbs_neg]
    exact (Size.hasVariable_number hc hd).2

end Words

/-! ## Cells with digits, and variables -/

namespace Size

variable {s : Size} {c c' : Cell} {d d' v v' : Nat}

theorem variableCount_eq (s : Size) : s.variableCount = 2 * s.k ^ 6 := by
  simp only [variableCount, area, side, Nat.pow_succ, Nat.pow_zero, Nat.one_mul, Nat.mul_assoc]

theorem meaningOf_eq_ok_iff :
    s.meaningOf v = .ok (c, d) ↔ s.HasVariable v ∧ s.cellDigit v = (c, d) := by
  rw [meaningOf]
  by_cases hv : s.HasVariable v <;> simp [hv]

/-- A cell with a digit has a variable exactly where the variable speaks of them. -/
theorem variableOf_eq_ok_iff_meaningOf :
    s.variableOf c d = .ok v ↔ s.meaningOf v = .ok (c, d) := by
  rw [variableOf_eq_ok_iff, meaningOf_eq_ok_iff]
  constructor
  · rintro ⟨hc, hd, rfl⟩
    exact ⟨hasVariable_number hc hd, cellDigit_number_of_mem hc hd⟩
  · rintro ⟨hv, hmeaning⟩
    have hnumber := number_cellDigit hv
    have hc := cellDigit_inside (s := s) (v := v)
    have hd := cellDigit_mem_digits (s := s) (v := v)
    rw [hmeaning] at hnumber hc hd
    exact ⟨hc, hd, hnumber⟩

/-- Variables are in the order of their cells, and in that of the digits where the cell is the
same. -/
theorem variableOf_lt_iff (hv : s.variableOf c d = .ok v) (hv' : s.variableOf c' d' = .ok v') :
    v < v' ↔ c.Before c' ∨ c = c' ∧ d < d' := by
  obtain ⟨hc, hd, rfl⟩ := variableOf_eq_ok_iff.1 hv
  obtain ⟨hc', hd', rfl⟩ := variableOf_eq_ok_iff.1 hv'
  rw [number_lt_number_iff hd hd', Cell.place_lt_place_iff hc hc']
  refine or_congr_right (and_congr_left fun _ => ?_)
  exact ⟨Cell.place_injective hc hc', fun heq => congrArg (Cell.place s) heq⟩

theorem literals_of_variable (hv : s.variableOf c d = .ok v) :
    s.asserted c d = .ok (v : Int) ∧ s.denied c d = .ok (-(v : Int)) ∧ -(v : Int) ≠ 0 := by
  have hpos := (meaningOf_eq_ok_iff.1 (variableOf_eq_ok_iff_meaningOf.1 hv)).1.1
  rw [asserted, denied, hv]
  exact ⟨rfl, rfl, by omega⟩

/-- The cells of the boards with the digits, and the numbers from 1 to twice the sixth power of the
block size, correspond one to one. What lies outside is refused on both sides. The correspondence
keeps the order by board, row, column and digit. It is the same in words of at least 32 bits, in
which every value on the way fits: a variable a word without a sign, its two literals a word with
one, and a digit eight bits. -/
theorem numbering_ordered_in_words {bits : Nat} (hbits : 32 ≤ bits) (s : Size) :
    (∀ c d, (∃ v, s.variableOf c d = .ok v) ↔
      (c.row < s.side ∧ c.col < s.side) ∧ 1 ≤ d ∧ d ≤ s.side) ∧
    (∀ v, (∃ c d, s.meaningOf v = .ok (c, d)) ↔ 1 ≤ v ∧ v ≤ 2 * s.k ^ 6) ∧
    (∀ c d v, s.variableOf c d = .ok v ↔ s.meaningOf v = .ok (c, d)) ∧
    (∀ c d v c' d' v', s.variableOf c d = .ok v → s.variableOf c' d' = .ok v' →
      (v < v' ↔ c.Before c' ∨ c = c' ∧ d < d')) ∧
    (∀ c d v, s.variableOf c d = .ok v →
      s.asserted c d = .ok (v : Int) ∧ s.denied c d = .ok (-(v : Int)) ∧ -(v : Int) ≠ 0) ∧
    (∀ c d, Words.variableOf bits s c d = (s.variableOf c d).mapError .misuse ∧
      Words.asserted bits s c d = (s.asserted c d).mapError .misuse ∧
      Words.denied bits s c d = (s.denied c d).mapError .misuse) ∧
    (∀ v, Words.meaningOf bits s v = (s.meaningOf v).mapError .misuse) ∧
    Words.largestDigit bits s = .ok s.side := by
  refine ⟨fun c d => ?_, fun v => ?_, fun c d v => variableOf_eq_ok_iff_meaningOf,
    fun c d v c' d' v' => variableOf_lt_iff, fun c d v => literals_of_variable,
    fun c d => ⟨Words.variableOf_eq hbits s c d, Words.asserted_eq hbits s c d,
      Words.denied_eq hbits s c d⟩,
    Words.meaningOf_eq hbits s, Words.largestDigit_eq hbits s⟩
  · simp only [variableOf_eq_ok_iff, mem_digits]
    constructor
    · rintro ⟨v, hc, hd, -⟩
      exact ⟨hc, hd⟩
    · rintro ⟨hc, hd⟩
      exact ⟨_, hc, hd, rfl⟩
  · simp only [meaningOf_eq_ok_iff, ← variableCount_eq]
    constructor
    · rintro ⟨c, d, hv, -⟩
      exact hv
    · intro hv
      exact ⟨_, _, hv, rfl⟩

theorem numbering_ordered_in_words_standard :
    standard.meaningOf 1458 = .ok (⟨.b, 8, 8⟩, 9) ∧
      Words.denied 64 standard ⟨.b, 8, 8⟩ 9 = (.ok (-1458) : Except WordFailure Int) := by
  obtain ⟨-, -, hmeaning, -, hliterals, hwords, -⟩ :=
    numbering_ordered_in_words (by decide : 32 ≤ 64) standard
  have hv : standard.variableOf ⟨.b, 8, 8⟩ 9 = .ok 1458 := rfl
  refine ⟨(hmeaning _ _ _).1 hv, ?_⟩
  rw [(hwords _ _).2.2, (hliterals _ _ _ hv).2.1]
  rfl

end Size

end TwinSudoku
