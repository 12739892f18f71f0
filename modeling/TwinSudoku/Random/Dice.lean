import TwinSudoku.Random.Stream

/-!
# Drawing numbers

* `Dice ρ`: a way to draw numbers below a given one from a state of any type `ρ`. Nothing is
  assumed of what is drawn.
* `streamDice`: draws from a stream of random words. A word times `n` has the number drawn as
  its high half. If the low half is so large that a finer fraction could carry, one more word
  refines it.
* `Source ρ`: dice together with the state that a seed gives them at first. `streamSource` is that
  of `streamDice`.
-/

namespace TwinSudoku.Random

/-- A way to draw a number below `n`. -/
structure Dice (ρ : Type) where
  below : (n : Nat) → 0 < n → ρ → Fin n × ρ

/-- Draws a number below `n` from a state kept by a state monad. -/
def Dice.draw {ρ : Type} (dice : Dice ρ) (n : Nat) (h : 0 < n) : StateM ρ (Fin n) :=
  fun state => dice.below n h state

/-- The high half of a word times `n`. -/
def high (word : UInt32) (n : Nat) : Nat := word.toNat * n / UInt32.size

def low (word : UInt32) (n : Nat) : Nat := word.toNat * n % UInt32.size

theorem product_le (word : UInt32) (n : Nat) : word.toNat * n ≤ 0xffffffff * n :=
  Nat.mul_le_mul_right n (Nat.le_of_lt_succ word.toNat_lt)

theorem high_lt (word : UInt32) {n : Nat} (h : 0 < n) : high word n < n := by
  have := product_le word n
  rw [high, UInt32.size]
  omega

theorem high_succ_lt {word : UInt32} {n : Nat} (h : UInt32.size < low word n + n) :
    high word n + 1 < n := by
  have := product_le word n
  rw [low, UInt32.size] at h
  rw [high, UInt32.size]
  omega

def streamDice : Dice Stream where
  below n h stream :=
    let (word, stream) := stream.next
    if hlow : UInt32.size < low word n + n then
      let (finer, stream) := stream.next
      if UInt32.size ≤ low word n + high finer n then
        (⟨high word n + 1, high_succ_lt hlow⟩, stream)
      else (⟨high word n, high_lt word h⟩, stream)
    else (⟨high word n, high_lt word h⟩, stream)

/-- Dice, and their state at first. -/
structure Source (ρ : Type) where
  dice : Dice ρ
  ofSeed : UInt64 → ρ

def streamSource : Source Stream := ⟨streamDice, .ofSeed⟩

end TwinSudoku.Random
