import PokerHand.Shuffle.KeyStream

/-!
# Shuffling

A shuffle walks over the places from the first to the last and swaps each with a place that is
not behind it. Equal seeds give equal arrangements.

Step `i` of a shuffle needs an index at most `i`. One word serves several steps: a chunk is a
number below the product of the next few bounds, and each step splits its own index off it. The
product takes as many bounds as stay below `2 ^ 32`. A chunk is the high half of a word times the
product; when the low half is so large that a second word could carry into the high half, that
word is drawn as well and its carry added.
-/
namespace PokerHand.Shuffle

/-- How many words there are. -/
def wordCount : Nat := 4294967296

/-- Random words by position. -/
abbrev Source := Nat → UInt32

/-- What is left of the last chunk: a number that holds `left` indices, after `used` words. -/
structure Chunk where
  value : Nat
  left : Nat
  used : Nat

namespace Chunk

/-- Before the first step, whose only index is zero. -/
def start : Chunk := ⟨0, 1, 0⟩

/-- Multiplies `product` by `next`, `next + 1` and so on while it stays below `2 ^ 32`, at most
`n` times; yields the product and the first factor that it does not hold. -/
def grow : Nat → Nat → Nat → Nat × Nat
  | 0, product, next => (product, next)
  | n + 1, product, next =>
      if product * next < wordCount then grow n (product * next) (next + 1) else (product, next)

/-- The product of bounds for the chunk whose first bound is `n`, and the first bound after it.
A product that starts at two or more at least doubles, so it takes fewer than 32 factors. -/
def bounds (n : Nat) : Nat × Nat := grow 32 n (n + 1)

/-- A number below `bound` and the count of words used after it was drawn. -/
def draw (source : Source) (used bound : Nat) : Nat × Nat :=
  let scaled := (source used).toNat * bound
  let low := scaled % wordCount
  if low > wordCount - bound then
    let carried := low + (source (used + 1)).toNat * bound / wordCount
    (scaled / wordCount + (if carried ≥ wordCount then 1 else 0), used + 2)
  else (scaled / wordCount, used + 1)

/-- The chunk that serves the bounds from `n` on. -/
def refill (source : Source) (used n : Nat) : Chunk :=
  let (bound, next) := bounds n
  let (value, used) := draw source used bound
  ⟨value, next - n, used⟩

/-- The index for step `i` and the chunk after it. -/
def next (source : Source) (i : Nat) (chunk : Chunk) : Nat × Chunk :=
  let chunk := if chunk.left = 0 then refill source chunk.used (i + 1) else chunk
  if chunk.left ≤ 1 then (chunk.value, { chunk with left := 0 })
  else
    (chunk.value % (i + 1),
      { chunk with value := chunk.value / (i + 1), left := chunk.left - 1 })

end Chunk

variable {α : Type}

/-- The walk from place `i` over the next `n` places. -/
def walk (source : Source) : (n i : Nat) → Chunk → Array α → Array α
  | 0, _, _, xs => xs
  | n + 1, i, chunk, xs =>
      let (j, chunk) := chunk.next source i
      walk source n (i + 1) chunk (xs.swapIfInBounds i j)

/-- The arrangement that the words of `source` give. -/
def arrange (source : Source) (xs : List α) : List α :=
  (walk source xs.length 0 Chunk.start xs.toArray).toList

/-- The arrangement that belongs to a seed. -/
def shuffled (xs : List α) (seed : UInt64) : List α :=
  arrange (KeyStream.word (KeyStream.keyOfSeed seed)) xs

end PokerHand.Shuffle
