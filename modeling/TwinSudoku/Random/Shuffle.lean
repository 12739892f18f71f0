import TwinSudoku.Random.Dice

/-!
# Shuffling

`shuffle` exchanges, for `i` from 0 upward, the elements at the places `i` and `j` with a
random `j ≤ i`. The numbers `j` are not drawn one by one: one draw below the product of
several successive `i + 1` gives as many of them, as long as the product is below the number
of words.

* `shuffle_perm`: a shuffled list is a permutation of the list, whatever is drawn.
-/

namespace TwinSudoku.Random

/-- The largest product `m (m + 1) ⋯` below the number of words with its number of factors,
starting from the product of `count` factors; at most `fuel` factors are added. -/
def productFrom (m : Nat) : (fuel product count : Nat) → Nat × Nat
  | 0, product, count => (product, count)
  | fuel + 1, product, count =>
    if product * (m + count) < UInt32.size then
      productFrom m fuel (product * (m + count)) (count + 1)
    else (product, count)

/-- The product of successive numbers from `m` on that one draw covers. Since each factor is
at least 2, there are fewer than 32. -/
def chunkOf (m : Nat) : Nat × Nat := productFrom m 32 m 1

theorem productFrom_pos {m : Nat} (hm : 0 < m) :
    ∀ (fuel : Nat) {product : Nat} (count : Nat), 0 < product →
      0 < (productFrom m fuel product count).1
  | 0, _, _, h => h
  | fuel + 1, _, count, h => by
    rw [productFrom]
    split
    · exact productFrom_pos hm fuel _ (Nat.mul_pos h (by omega))
    · exact h

theorem chunkOf_pos {m : Nat} (hm : 0 < m) : 0 < (chunkOf m).1 := productFrom_pos hm 32 1 hm

/-- What is left of the last draw: its quotient, and how many numbers it still gives. -/
structure Chunk where
  rest : Nat
  left : Nat

/-- The number for the place `i`, which is at most `i`. -/
def pick {ρ : Type} (dice : Dice ρ) (i : Nat) (chunk : Chunk) : StateM ρ (Nat × Chunk) := do
  let m := i + 1
  let chunk ←
    if chunk.left = 0 then do
      let product := chunkOf m
      let drawn ← dice.draw product.1 (chunkOf_pos i.succ_pos)
      pure ⟨drawn.val, product.2⟩
    else pure chunk
  if chunk.left = 1 then return (chunk.rest, ⟨chunk.rest, 0⟩)
  else return (chunk.rest % m, ⟨chunk.rest / m, chunk.left - 1⟩)

/-- Exchanges for the places from `i` on, `n` of them. -/
def shuffleFrom {ρ α : Type} (dice : Dice ρ) :
    (n i : Nat) → Chunk → Array α → StateM ρ (Array α)
  | 0, _, _, xs => return xs
  | n + 1, i, chunk, xs => do
    let (j, chunk) ← pick dice i chunk
    shuffleFrom dice n (i + 1) chunk (xs.swapIfInBounds i j)

/-- A list in random order. A list of at most one element needs no draw. -/
def shuffle {ρ α : Type} (dice : Dice ρ) (xs : List α) : StateM ρ (List α) := do
  if xs.length ≤ 1 then return xs
  else return (← shuffleFrom dice xs.length 0 ⟨0, 1⟩ xs.toArray).toList

theorem swapIfInBounds_perm {α : Type} (xs : Array α) (i j : Nat) :
    (xs.swapIfInBounds i j).toList.Perm xs.toList := by
  rw [Array.swapIfInBounds_def]
  split
  · split
    · exact (Array.swap_perm _ _).toList
    · exact .refl _
  · exact .refl _

theorem shuffleFrom_perm {ρ α : Type} (dice : Dice ρ) :
    ∀ (n i : Nat) (chunk : Chunk) (xs : Array α) (state : ρ),
      (shuffleFrom dice n i chunk xs state).1.toList.Perm xs.toList
  | 0, _, _, _, _ => .refl _
  | n + 1, i, _, xs, _ =>
    (shuffleFrom_perm dice n (i + 1) _ _ _).trans (swapIfInBounds_perm xs i _)

/-- A shuffled list is a permutation of the list, whatever is drawn. -/
theorem shuffle_perm {ρ α : Type} (dice : Dice ρ) (xs : List α) (state : ρ) :
    (shuffle dice xs state).1.Perm xs := by
  rw [shuffle]
  split
  · exact .refl _
  · exact shuffleFrom_perm dice xs.length 0 _ xs.toArray state

end TwinSudoku.Random
