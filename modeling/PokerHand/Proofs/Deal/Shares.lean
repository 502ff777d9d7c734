import Mathlib.Data.List.Nodup
import PokerHand.Proofs.Deal.Loops

/-!
# The shares of a deal

A deal serves the seats in rounds, from the one after the dealer. Every seat gets a card of each
round (`map_some_share`), and together the shares are the cards that are dealt (`shares_perm`).
-/
namespace PokerHand.Hand

/-- How many seats are served before the one at `place` in a round of the deal. -/
def before (count dealer place : Nat) : Nat := (place + count - dealer - 1) % count

variable {count dealer place each : Nat} {cards : List Card}

theorem before_lt (hplace : place < count) : before count dealer place < count :=
  Nat.mod_lt _ (Nat.zero_lt_of_lt hplace)

theorem before_eq (hdealer : dealer < count) (hplace : place < count) :
    before count dealer place =
      if place ≤ dealer then place + count - dealer - 1 else place - dealer - 1 := by
  unfold before
  split
  · exact Nat.mod_eq_of_lt (by omega)
  · rw [Nat.mod_eq_sub_mod (by omega), Nat.mod_eq_of_lt (by omega)]
    omega

/-- The `j`th seat after the dealer is served after `j - 1` others. -/
theorem before_add {j : Nat} (hdealer : dealer < count) (hone : 1 ≤ j) (hle : j ≤ count) :
    before count dealer ((dealer + j) % count) = j - 1 := by
  rw [before_eq hdealer (Nat.mod_lt _ (by omega))]
  by_cases hlt : dealer + j < count
  · rw [Nat.mod_eq_of_lt hlt, if_neg (by omega)]
    omega
  · rw [Nat.mod_eq_sub_mod (by omega), Nat.mod_eq_of_lt (by omega), if_pos (by omega)]
    omega

theorem eq_of_before_eq (hdealer : dealer < count) {p q : Nat} (hp : p < count) (hq : q < count)
    (hsame : before count dealer p = before count dealer q) : p = q := by
  rw [before_eq hdealer hp, before_eq hdealer hq] at hsame
  split at hsame <;> split at hsame <;> omega

/-- A card of the `i`th round lies in the `i`th stretch of as many cards as there are seats. -/
theorem round_lt {i b : Nat} (hi : i < each) (hb : b < count) : i * count + b < each * count := by
  have hrounds : (i + 1) * count ≤ each * count := Nat.mul_le_mul_right count hi
  rw [Nat.add_mul, Nat.one_mul] at hrounds
  omega

theorem round_inj {i j a b : Nat} (ha : a < count) (hb : b < count)
    (hsame : i * count + a = j * count + b) : i = j ∧ a = b := by
  have hpos : 0 < count := Nat.zero_lt_of_lt ha
  have hround : (i * count + a) / count = (j * count + b) / count := by rw [hsame]
  have hplace : (i * count + a) % count = (j * count + b) % count := by rw [hsame]
  rw [Nat.mul_comm i, Nat.mul_comm j] at hround hplace
  rw [Nat.mul_add_div hpos, Nat.mul_add_div hpos, Nat.div_eq_of_lt ha,
    Nat.div_eq_of_lt hb] at hround
  rw [Nat.mul_add_mod, Nat.mul_add_mod, Nat.mod_eq_of_lt ha, Nat.mod_eq_of_lt hb] at hplace
  exact ⟨hround, hplace⟩

/-- Nothing is left out where every value is there. -/
theorem map_some_filterMap {α β : Type} {f : α → Option β} {xs : List α}
    (hf : ∀ x ∈ xs, ∃ y, f x = some y) : (xs.filterMap f).map some = xs.map f := by
  induction xs with
  | nil => rfl
  | cons x xs ih =>
      obtain ⟨⟨y, hy⟩, hrest⟩ := List.forall_mem_cons.1 hf
      simp [hy, ih hrest]

/-- Every seat gets a card of each round. -/
theorem map_some_share (hlength : cards.length = each * count) (hplace : place < count) :
    (share cards count each dealer place).map some =
      (List.range each).map fun i => cards[i * count + before count dealer place]? := by
  refine map_some_filterMap fun i hi => ?_
  have hbefore : before count dealer place < count := before_lt hplace
  have hlt := round_lt (List.mem_range.1 hi) hbefore
  rw [← hlength] at hlt
  exact ⟨_, List.getElem?_eq_getElem hlt⟩

/-- The places in the deck of the cards that the seat at a place gets. -/
def picks (count each dealer place : Nat) : List Nat :=
  (List.range each).map fun i => i * count + before count dealer place

theorem mem_picks {x : Nat} :
    x ∈ picks count each dealer place ↔ ∃ i < each, i * count + before count dealer place = x := by
  simp [picks]

/-- Together the seats get each card of the deal once. -/
theorem picks_perm (hdealer : dealer < count) :
    ((List.range count).flatMap (picks count each dealer)).Perm (List.range (each * count)) := by
  refine (List.perm_ext_iff_of_nodup ?_ List.nodup_range).2 fun x => ?_
  · refine List.nodup_flatMap.2 ⟨fun p hp => ?_, ?_⟩
    · have hlt : before count dealer p < count := before_lt (List.mem_range.1 hp)
      exact List.nodup_range.map fun i j hij => (round_inj hlt hlt hij).1
    · refine List.Pairwise.imp_of_mem (fun {p q} hp hq hne x hxp hxq => hne ?_) List.nodup_range
      have hp := List.mem_range.1 hp
      have hq := List.mem_range.1 hq
      obtain ⟨i, -, rfl⟩ := mem_picks.1 hxp
      obtain ⟨j, -, hsame⟩ := mem_picks.1 hxq
      exact (eq_of_before_eq hdealer hq hp (round_inj (before_lt hq) (before_lt hp) hsame).2).symm
  · simp only [List.mem_flatMap, List.mem_range, mem_picks]
    constructor
    · rintro ⟨p, hp, i, hi, rfl⟩
      exact round_lt hi (before_lt hp)
    · intro hx
      have hpos : 0 < count := Nat.zero_lt_of_lt hdealer
      refine ⟨(dealer + (x % count + 1)) % count, Nat.mod_lt _ hpos, x / count,
        Nat.div_lt_of_lt_mul (Nat.mul_comm each count ▸ hx), ?_⟩
      rw [before_add hdealer (Nat.le_add_left 1 _) (Nat.mod_lt x hpos), Nat.add_one_sub_one]
      exact Nat.div_add_mod' x count

/-- The cards at all places are the cards. -/
theorem filterMap_getElem? (cards : List Card) :
    (List.range cards.length).filterMap (cards[·]?) = cards := by
  induction cards with
  | nil => rfl
  | cons card cards ih =>
      rw [List.length_cons, List.range_succ_eq_map, List.filterMap_cons, List.filterMap_map]
      exact congrArg (card :: ·) ih

/-- Together the shares are the cards that are dealt. -/
theorem shares_perm (hlength : cards.length = each * count) (hdealer : dealer < count) :
    ((List.range count).flatMap (share cards count each dealer)).Perm cards := by
  have hshare : share cards count each dealer =
      fun place => (picks count each dealer place).filterMap (cards[·]?) := by
    funext place
    simp [share, picks, before, List.filterMap_map]
  have hpicks : ((List.range count).flatMap (picks count each dealer)).Perm
      (List.range (each * count)) := picks_perm hdealer
  have hperm := hpicks.filterMap (cards[·]?)
  rw [← hlength, filterMap_getElem?] at hperm
  rwa [hshare, ← List.filterMap_flatMap]

end PokerHand.Hand
