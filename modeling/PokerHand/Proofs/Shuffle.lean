import Mathlib.Data.Nat.Factorial.Basic
import PokerHand.Card
import PokerHand.Shuffle

/-!
# A shuffle keeps the cards, and every place is swapped with one that is not behind it

Each step of a shuffle swaps two places, so whatever indices are drawn the cards stay the same
(`walk_perm`).

The bounds that a chunk serves have a rising factorial as their product (`Chunk.exists_bounds`). A
chunk is drawn below it, whether or not a second word is carried into it (`Chunk.draw_lt`), and
splitting an index off leaves it below the product of the bounds that remain (`Chunk.Serves`). So
the index of a step is never greater than the step, and all swaps of a shuffle are within the list.
-/
namespace PokerHand.Shuffle

section Cards

variable {α : Type}

theorem swapIfInBounds_perm (xs : Array α) (i j : Nat) :
    (xs.swapIfInBounds i j).toList.Perm xs.toList := by
  unfold Array.swapIfInBounds
  split
  · split
    · exact (Array.swap_perm _ _).toList
    · exact .refl _
  · exact .refl _

theorem walk_perm (source : Source) (n i : Nat) (chunk : Chunk) (xs : Array α) :
    (walk source n i chunk xs).toList.Perm xs.toList := by
  induction n generalizing i chunk xs with
  | zero => exact .refl _
  | succ n ih => exact (ih _ _ _).trans (swapIfInBounds_perm xs i _)

theorem arrange_perm (source : Source) (xs : List α) : (arrange source xs).Perm xs :=
  walk_perm source xs.length 0 .start xs.toArray

theorem shuffled_perm (xs : List α) (seed : UInt64) : (shuffled xs seed).Perm xs :=
  arrange_perm _ xs

end Cards

variable {α : Type} {source : Source} {used bound n i : Nat}

namespace Chunk

variable {chunk : Chunk}

/-- Growing adds factors to a rising factorial while it stays below `2 ^ 32`. If steps are left
over, the next factor does not fit. -/
theorem exists_grow (steps : Nat) {k : Nat} (hfits : n.ascFactorial k < wordCount) :
    ∃ m, k ≤ m ∧ m ≤ k + steps ∧
      grow steps (n.ascFactorial k) (n + k) = (n.ascFactorial m, n + m) ∧
      n.ascFactorial m < wordCount ∧ (m < k + steps → wordCount ≤ n.ascFactorial (m + 1)) := by
  induction steps generalizing k with
  | zero => exact ⟨k, Nat.le_refl k, Nat.le_refl k, rfl, hfits, fun h => absurd h (Nat.lt_irrefl k)⟩
  | succ steps ih =>
      rw [grow, Nat.mul_comm, ← Nat.ascFactorial_succ]
      split
      · next hmore =>
        obtain ⟨m, hkm, hm, hgrow, hfits, hfull⟩ := ih hmore
        exact ⟨m, by omega, by omega, hgrow, hfits, fun h => hfull (by omega)⟩
      · next hmore =>
        exact ⟨k, Nat.le_refl k, by omega, rfl, hfits, fun _ => Nat.le_of_not_lt hmore⟩

/-- A chunk serves at least one bound, and as many as have a product below `2 ^ 32`. -/
theorem exists_bounds (hn : n < wordCount) :
    ∃ k, 0 < k ∧ bounds n = (n.ascFactorial k, n + k) ∧ n.ascFactorial k < wordCount ∧
      (1 < n → wordCount ≤ n.ascFactorial (k + 1)) := by
  have hone : n.ascFactorial 1 = n := by simp [Nat.ascFactorial]
  obtain ⟨k, hk, hmost, hgrow, hfits, hfull⟩ := exists_grow 32 (k := 1) (hone.symm ▸ hn)
  refine ⟨k, hk, by rwa [hone] at hgrow, hfits, fun hn => hfull ?_⟩
  -- a product of 33 factors from two on does not stay below it
  refine Nat.lt_of_le_of_ne hmost fun hk => ?_
  have hpow : 2 ^ 33 ≤ n.ascFactorial 33 :=
    Nat.le_trans (Nat.pow_le_pow_left hn 33) (n.pow_succ_le_ascFactorial 33)
  rw [hk] at hfits
  exact absurd (Nat.lt_of_le_of_lt hpow hfits) (by decide)

/-- What is drawn is below its bound. It can be one below only if the low half is too small for a
carry, so a carry does not reach the bound either. -/
theorem draw_lt (source : Source) (used : Nat) (hpos : 0 < bound) (hbound : bound ≤ wordCount) :
    (draw source used bound).1 < bound := by
  have hword : (source used).toNat ≤ wordCount - 1 :=
    Nat.le_sub_one_of_lt (source used).toNat_lt
  have hscaled : (source used).toNat * bound ≤ (wordCount - 1) * bound :=
    Nat.mul_le_mul_right bound hword
  have hhigh : (source used).toNat * bound / wordCount < bound := by
    simp only [wordCount] at hscaled ⊢
    omega
  have hcarry : wordCount - bound < (source used).toNat * bound % wordCount →
      (source used).toNat * bound / wordCount + 1 < bound := by
    simp only [wordCount] at hscaled hbound ⊢
    omega
  by_cases hlow : wordCount - bound < (source used).toNat * bound % wordCount
  · have hraised := hcarry hlow
    rw [draw, if_pos hlow]
    dsimp only
    split <;> omega
  · rw [draw, if_neg hlow]
    exact hhigh

/-- A carry may still reach the greatest index. -/
example : draw (fun i => if i = 0 then 2863311530 else 4294967295) 0 3 = (2, 2) := by decide

/-- A chunk that holds indices is below the product of the bounds from step `i` on that they are
for. -/
def Serves (i : Nat) (chunk : Chunk) : Prop :=
  0 < chunk.left → chunk.value < (i + 1).ascFactorial chunk.left

theorem serves_start : start.Serves 0 := fun _ => by decide

theorem serves_refill (source : Source) (used : Nat) (hi : i + 1 < wordCount) :
    0 < (refill source used (i + 1)).left ∧ (refill source used (i + 1)).Serves i := by
  obtain ⟨k, hk, hbounds, hfits, -⟩ := exists_bounds hi
  have hpos : 0 < (i + 1).ascFactorial k := Nat.ascFactorial_pos i k
  have hleft : (refill source used (i + 1)).left = k := by simp [refill, hbounds]
  have hvalue : (refill source used (i + 1)).value < (i + 1).ascFactorial k := by
    simpa [refill, hbounds] using draw_lt source used hpos (Nat.le_of_lt hfits)
  exact ⟨hleft ▸ hk, fun _ => hleft ▸ hvalue⟩

/-- The chunk that a step goes by, the last one or a new one, holds an index for it. -/
theorem Serves.ready (hserves : chunk.Serves i) (source : Source) (hi : i + 1 < wordCount)
    {ready : Chunk}
    (hready : (if chunk.left = 0 then refill source chunk.used (i + 1) else chunk) = ready) :
    0 < ready.left ∧ ready.value < (i + 1).ascFactorial ready.left := by
  rw [← hready]
  split
  · obtain ⟨hleft, hserves⟩ := serves_refill source chunk.used hi
    exact ⟨hleft, hserves hleft⟩
  · next hleft =>
    exact ⟨Nat.pos_of_ne_zero hleft, hserves (Nat.pos_of_ne_zero hleft)⟩

/-- The index of a step is not greater than the step, and what remains serves the next one. -/
theorem Serves.next (hserves : chunk.Serves i) (source : Source) (hi : i + 1 < wordCount) :
    (chunk.next source i).1 ≤ i ∧ (chunk.next source i).2.Serves (i + 1) := by
  obtain ⟨hleft, hvalue⟩ := hserves.ready source hi rfl
  rw [Chunk.next]
  generalize (if chunk.left = 0 then refill source chunk.used (i + 1) else chunk) = ready
    at hleft hvalue ⊢
  -- the last index is all that is left of the chunk, any other a remainder of it
  split
  · next hlast =>
    have hone : ready.left = 1 := by omega
    rw [hone, Nat.ascFactorial_succ, Nat.ascFactorial_zero] at hvalue
    exact ⟨by dsimp only; omega, fun h => absurd h (Nat.lt_irrefl 0)⟩
  · next hmore =>
    obtain ⟨left, hleft⟩ := Nat.exists_eq_add_of_lt hleft
    rw [Nat.zero_add] at hleft
    rw [hleft, Nat.ascFactorial_succ, ← Nat.succ_ascFactorial] at hvalue
    refine ⟨Nat.le_of_lt_succ (Nat.mod_lt _ (Nat.succ_pos i)), fun _ => ?_⟩
    simpa [hleft] using Nat.div_lt_of_lt_mul hvalue

end Chunk

/-- The chunk from which step `i` of a shuffle takes its index. -/
def chunkAt (source : Source) : Nat → Chunk
  | 0 => .start
  | i + 1 => ((chunkAt source i).next source i).2

/-- The index with which step `i` of a shuffle swaps. -/
def index (source : Source) (i : Nat) : Nat := ((chunkAt source i).next source i).1

theorem serves_chunkAt (source : Source) (hi : i < wordCount) : (chunkAt source i).Serves i := by
  induction i with
  | zero => exact Chunk.serves_start
  | succ i ih => exact ((ih (Nat.lt_of_succ_lt hi)).next source hi).2

theorem index_le (source : Source) (hi : i + 1 < wordCount) : index source i ≤ i :=
  ((serves_chunkAt source (Nat.lt_of_succ_lt hi)).next source hi).1

/-- The walk swaps each place with the one at its index. -/
theorem walk_eq_foldl (source : Source) (n i : Nat) (xs : Array α) :
    walk source n i (chunkAt source i) xs =
      (List.range' i n).foldl (fun ys j => ys.swapIfInBounds j (index source j)) xs := by
  induction n generalizing i xs with
  | zero => rfl
  | succ n ih => rw [List.range'_succ, List.foldl_cons, ← ih]; rfl

theorem shuffled_eq_foldl (xs : List α) (seed : UInt64) :
    shuffled xs seed = ((List.range xs.length).foldl (fun ys i =>
      ys.swapIfInBounds i (index (KeyStream.word (KeyStream.keyOfSeed seed)) i))
        xs.toArray).toList := by
  rw [List.range_eq_range', ← walk_eq_foldl]
  rfl

/-- A shuffle swaps each place, from the first to the last, with the one at the index drawn for it,
and so the cards stay the same. Whatever the words and the carries are, the index is not behind the
place. That is so because the chunk in use holds a number below the product of the bounds it still
serves, and because a new one is drawn for the product of one or more bounds and stays below it. -/
theorem shuffle_keeps_cards (xs : List α) (seed : UInt64) (hlength : xs.length < wordCount) :
    (shuffled xs seed).Perm xs ∧
      shuffled xs seed = ((List.range xs.length).foldl (fun ys i =>
        ys.swapIfInBounds i (index (KeyStream.word (KeyStream.keyOfSeed seed)) i))
          xs.toArray).toList ∧
      (∀ (source : Source) (i : Nat), i < xs.length → index source i ≤ i) ∧
      ∀ (source : Source) (used i : Nat), i < xs.length →
        (chunkAt source i).Serves i ∧ ∃ k, 0 < k ∧
          Chunk.bounds (i + 1) = ((i + 1).ascFactorial k, i + 1 + k) ∧
          (Chunk.draw source used ((i + 1).ascFactorial k)).1 < (i + 1).ascFactorial k := by
  have hfits : ∀ i < xs.length, i + 1 < wordCount := fun i hi => Nat.lt_of_le_of_lt hi hlength
  refine ⟨shuffled_perm xs seed, shuffled_eq_foldl xs seed,
    fun source i hi => index_le source (hfits i hi), fun source used i hi =>
      ⟨serves_chunkAt source (Nat.lt_of_succ_lt (hfits i hi)), ?_⟩⟩
  obtain ⟨k, hk, hbounds, hproduct, -⟩ := Chunk.exists_bounds (hfits i hi)
  exact ⟨k, hk, hbounds,
    Chunk.draw_lt source used (Nat.ascFactorial_pos i k) (Nat.le_of_lt hproduct)⟩

/-- A list in which each card stands twice. -/
theorem shuffle_keeps_cards_twoPacks : (Deck.standard ++ Deck.standard).length < wordCount ∧
    (shuffled (Deck.standard ++ Deck.standard) 7).Perm (Deck.standard ++ Deck.standard) ∧
      shuffled (Deck.standard ++ Deck.standard) 7 =
        ((List.range (Deck.standard ++ Deck.standard).length).foldl (fun ys i =>
          ys.swapIfInBounds i (index (KeyStream.word (KeyStream.keyOfSeed 7)) i))
            (Deck.standard ++ Deck.standard).toArray).toList ∧
      (∀ (source : Source) (i : Nat), i < (Deck.standard ++ Deck.standard).length →
        index source i ≤ i) ∧
      ∀ (source : Source) (used i : Nat), i < (Deck.standard ++ Deck.standard).length →
        (chunkAt source i).Serves i ∧ ∃ k, 0 < k ∧
          Chunk.bounds (i + 1) = ((i + 1).ascFactorial k, i + 1 + k) ∧
          (Chunk.draw source used ((i + 1).ascFactorial k)).1 < (i + 1).ascFactorial k :=
  ⟨by decide, shuffle_keeps_cards _ 7 (by decide)⟩

end PokerHand.Shuffle
