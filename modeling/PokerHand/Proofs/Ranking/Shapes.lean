import PokerHand.Proofs.Ranking.Groups

/-!
# Shapes of hands

The shape of a hand tells how many cards it has of each of its ranks, the greatest number first. Up
to five cards of one deck have one of eighteen shapes (`shape_mem`), and what the numbers of equal
ranks make is read off the shape. Hands of equally many cards that make the same have the same
shape (`eq_of_ofSizes`).
-/
namespace PokerHand.Rules

open MadeHand

variable {cards : List Card}

/-- The numbers of cards of each rank, the greatest first. -/
def shape (cards : List Card) : List Nat := (rankList cards).map (multiplicity cards)

/-- How many cards a shape has. -/
def size : List Nat → Nat
  | [] => 0
  | k :: rest => k + size rest

/-- The shape of five cards of different ranks. -/
def ones : List Nat := [1, 1, 1, 1, 1]

/-- The shapes of up to five cards of one deck. -/
def shapes : List (List Nat) :=
  [[], [1], [2], [1, 1], [3], [2, 1], [1, 1, 1], [4], [3, 1], [2, 2], [2, 1, 1], [1, 1, 1, 1],
   [4, 1], [3, 2], [3, 1, 1], [2, 2, 1], [2, 1, 1, 1], ones]

/-- Falling positive numbers of at most five cards in all, none above four, are a shape. -/
theorem mem_shapes {sizes : List Nat} (hpos : ∀ k ∈ sizes, 0 < k) (hfour : ∀ k ∈ sizes, k ≤ 4)
    (hfall : sizes.Pairwise fun a b => b ≤ a) (hsize : size sizes ≤ 5) : sizes ∈ shapes := by
  rcases sizes with _ | ⟨a, _ | ⟨b, _ | ⟨c, _ | ⟨d, _ | ⟨e, _ | ⟨f, rest⟩⟩⟩⟩⟩⟩ <;>
    simp [shapes, ones, size] at * <;> omega

theorem size_map_length {α : Type} (groups : List (List α)) :
    size (groups.map List.length) = groups.flatten.length := by
  induction groups with
  | nil => rfl
  | cons group groups ih => rw [List.map_cons, size, ih, List.flatten_cons, List.length_append]

theorem size_shape (cards : List Card) : size (shape cards) = cards.length := by
  rw [shape, ← sizes_groups, size_map_length]
  exact (flatten_groups_perm cards).length_eq

/-- There are four suits. -/
theorem multiplicity_le_four (hnodup : cards.Nodup) (r : Rank) : multiplicity cards r ≤ 4 := by
  have hsuits : ((ofRank cards r).map Card.suit).Nodup := by
    refine List.pairwise_map.2 ((hnodup.filter _).imp_of_mem fun {c d} hc hd hne hsuit => hne ?_)
    cases c
    cases d
    exact Card.mk.injEq .. ▸ ⟨hsuit, (rank_of_mem_ofRank hc).trans (rank_of_mem_ofRank hd).symm⟩
  have hle := (hsuits.subperm fun s _ => s.mem_all).length_le
  rwa [List.length_map, length_ofRank] at hle

theorem shape_mem (hnodup : cards.Nodup) (hfive : cards.length ≤ 5) : shape cards ∈ shapes := by
  refine mem_shapes ?_ ?_ ?_ (Nat.le_trans (Nat.le_of_eq (size_shape cards)) hfive)
  · intro k hk
    obtain ⟨r, hr, rfl⟩ := List.mem_map.1 hk
    exact mem_rankList.1 hr
  · intro k hk
    obtain ⟨r, -, rfl⟩ := List.mem_map.1 hk
    exact multiplicity_le_four hnodup r
  · refine List.pairwise_map.2 ((pairwise_leads cards).imp fun hleads => ?_)
    rcases leads_iff.1 hleads with hlt | ⟨heq, -⟩
    · exact Nat.le_of_lt hlt
    · exact Nat.le_of_eq heq

theorem ranksWith_eq {k : Nat} (hk : 0 < k) (cards : List Card) :
    ranksWith cards k = (shape cards).count k := by
  rw [shape, List.count_eq_countP, List.countP_map, rankList,
    (List.mergeSort_perm _ _).countP_eq, List.countP_filter, ranksWith]
  refine List.countP_congr fun r _ => ?_
  simp only [beq_iff_eq, Function.comp_apply, Bool.and_eq_true, decide_eq_true_eq]
  omega

/-- What the numbers of equal ranks make is what the sizes of the groups make. -/
theorem classifyRanks_eq (hnodup : cards.Nodup) (hfive : cards.length ≤ 5) :
    classifyRanks cards = ofSizes (shape cards) := by
  have hshapes : ∀ sizes ∈ shapes,
      (if 1 ≤ sizes.count 4 then Category.fourOfAKind
        else if 1 ≤ sizes.count 3 then
          if 1 ≤ sizes.count 2 then .fullHouse else .threeOfAKind
        else if 2 ≤ sizes.count 2 then .twoPair
        else if 1 ≤ sizes.count 2 then .pair
        else .highCard) = ofSizes sizes := by decide
  rw [classifyRanks, ranksWith_eq (by decide), ranksWith_eq (by decide), ranksWith_eq (by decide)]
  exact hshapes _ (shape_mem hnodup hfive)

/-- Equally many cards that make the same have the same shape. -/
theorem eq_of_ofSizes {xs ys : List Nat} (hxs : xs ∈ shapes) (hys : ys ∈ shapes)
    (hsize : size xs = size ys) (hmade : ofSizes xs = ofSizes ys) : xs = ys := by
  have hshapes : ∀ xs ∈ shapes, ∀ ys ∈ shapes, size xs = size ys → ofSizes xs = ofSizes ys →
      xs = ys := by decide
  exact hshapes xs hxs ys hys hsize hmade

/-- Five cards without equal ranks make nothing by their ranks. -/
theorem ofSizes_eq_highCard_iff (hnodup : cards.Nodup) (hfive : cards.length = 5) :
    ofSizes (shape cards) = .highCard ↔ shape cards = ones := by
  have hshapes : ∀ sizes ∈ shapes, size sizes = 5 →
      (ofSizes sizes = .highCard ↔ sizes = ones) := by decide
  exact hshapes _ (shape_mem hnodup (Nat.le_of_eq hfive)) ((size_shape cards).trans hfive)

/-- Five cards with five ranks have one of each. -/
theorem shape_eq_ones (hnodup : cards.Nodup) (hfive : cards.length = 5)
    (hranks : 5 ≤ (rankList cards).length) : shape cards = ones := by
  have hshapes : ∀ sizes ∈ shapes, size sizes = 5 → 5 ≤ sizes.length → sizes = ones := by decide
  refine hshapes _ (shape_mem hnodup (Nat.le_of_eq hfive)) ((size_shape cards).trans hfive) ?_
  rwa [shape, List.length_map]

/-- The ranks of five cards without equal ones fall. -/
theorem falling_of_ones (hones : shape cards = ones) :
    ((rankList cards).map Rank.value).Pairwise (· > ·) := by
  have hone : ∀ r ∈ rankList cards, multiplicity cards r = 1 := by
    intro r hr
    have hmem : multiplicity cards r ∈ ones := hones ▸ List.mem_map_of_mem hr
    simpa [ones] using hmem
  refine List.pairwise_map.2 ?_
  refine ((pairwise_leads cards).and (nodup_rankList cards)).imp_of_mem fun {r s} hr hs h => ?_
  obtain ⟨hleads, hne⟩ := h
  have hvalue : r.value ≠ s.value := fun heq => hne (Rank.value_injective heq)
  rw [leads_iff, hone r hr, hone s hs] at hleads
  omega

end PokerHand.Rules
