/-!
# Streams of random words

A 64-bit seed is expanded to a key of eight 32-bit words, and the key to an endless stream of
words by a block cipher that runs over a counter.

* `expandKey`: the key of a seed. Each word comes from one step of a linear congruential
  generator, whose state is folded and then rotated by its own highest bits.
* `blockWords`: the sixteen words of one block: twelve rounds of the ChaCha permutation on the
  constants, the key and the block counter, added to what they started from.
* `Stream.next`: the next word.
-/

namespace TwinSudoku.Random

/-- Rotates a word towards its highest bit, by less than its width. Shifting by the width
shifts by nothing. -/
def rotateLeft (x n : UInt32) : UInt32 := (x <<< n) ||| (x >>> (32 - n))

/-- Rotates a word towards its lowest bit, by less than its width. -/
def rotateRight (x n : UInt32) : UInt32 := (x >>> n) ||| (x <<< (32 - n))

/-- One step of the generator that expands a seed. -/
def stepSeed (state : UInt64) : UInt64 :=
  state * 6364136223846793005 + 11634580027462260723

/-- The word that a state of the generator gives. -/
def foldSeed (state : UInt64) : UInt32 :=
  rotateRight (((state >>> 18) ^^^ state) >>> 27).toUInt32 (state >>> 59).toUInt32

/-- The next `n` words of the generator. -/
def expandFrom (state : UInt64) : Nat → List UInt32
  | 0 => []
  | n + 1 => foldSeed (stepSeed state) :: expandFrom (stepSeed state) n

def expandKey (seed : UInt64) : List UInt32 := expandFrom seed 8

/-- The sixteen words that the permutation works on. -/
abbrev Block := Vector UInt32 16

@[inline] def quarter (x : Block) (a b c d : Fin 16) : Block :=
  let x := x.set a (x[a] + x[b])
  let x := x.set d (rotateLeft (x[d] ^^^ x[a]) 16)
  let x := x.set c (x[c] + x[d])
  let x := x.set b (rotateLeft (x[b] ^^^ x[c]) 12)
  let x := x.set a (x[a] + x[b])
  let x := x.set d (rotateLeft (x[d] ^^^ x[a]) 8)
  let x := x.set c (x[c] + x[d])
  x.set b (rotateLeft (x[b] ^^^ x[c]) 7)

/-- Two rounds: first the columns of the four by four square of words, then its diagonals. -/
def doubleRound (x : Block) : Block :=
  let x := quarter x 0 4 8 12
  let x := quarter x 1 5 9 13
  let x := quarter x 2 6 10 14
  let x := quarter x 3 7 11 15
  let x := quarter x 0 5 10 15
  let x := quarter x 1 6 11 12
  let x := quarter x 2 7 8 13
  quarter x 3 4 9 14

/-- What a block starts from: the constants, the key, the counter with its low word first, and
two zeros. -/
def blockStart (key : List UInt32) (counter : UInt64) : Block :=
  let constants : List UInt32 := [0x61707865, 0x3320646e, 0x79622d32, 0x6b206574]
  let words := constants ++ key ++
    [counter.toUInt32, (counter >>> 32).toUInt32, 0, 0]
  Vector.ofFn fun i => words[i.val]?.getD 0

/-- The words of the block with the given counter. -/
def blockWords (key : List UInt32) (counter : UInt64) : List UInt32 :=
  let start := blockStart key counter
  let mixed := Nat.repeat doubleRound 6 start
  (Vector.zipWith (· + ·) mixed start).toList

/-- A stream of words: the words left of the current block, then the blocks to come. -/
structure Stream where
  key : List UInt32
  counter : UInt64
  pending : List UInt32

namespace Stream

def ofSeed (seed : UInt64) : Stream := ⟨expandKey seed, 0, []⟩

/-- The next word and the stream after it. -/
def next (stream : Stream) : UInt32 × Stream :=
  match stream.pending with
  | word :: rest => (word, { stream with pending := rest })
  | [] =>
    let words := blockWords stream.key stream.counter
    (words.headD 0, { stream with counter := stream.counter + 1, pending := words.tail })

end Stream

end TwinSudoku.Random
