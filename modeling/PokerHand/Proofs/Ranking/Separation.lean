import PokerHand.Proofs.Ranking.Straights

/-!
# Scores keep to their blocks

Whatever the cards, few or many and with repeats, their score is the offset of their category and a
place within its block (`MadeHand.exists_place`). So two categories never share a score, in any
order of categories, and the one that stands earlier scores higher.
-/
namespace PokerHand

namespace Order

theorem ranking_of_ofList {ranking : List Category} {order : Order}
    (h : ofList ranking = .ok order) : order.ranking = ranking := by
  unfold ofList at h
  split at h
  · exact (congrArg Order.ranking (Except.ok.inj h)).symm
  · cases h

end Order

namespace MadeHand

/-- The top of a straight leaves it a digit. -/
theorem straightTop?_sub_lt {values : List Nat} (hvalues : RankValues values) {top : Nat}
    (h : straightTop? values = some top) : top - 5 < 13 := by
  unfold straightTop? at h
  split at h
  · obtain rfl := Option.some.inj h
    decide
  · next a _ _ _ _ _ =>
    split at h
    · obtain rfl := Option.some.inj h
      have hhigh : a ≤ 14 := (hvalues a List.mem_cons_self).2
      omega
    · cases h
  · cases h

/-- The score of any cards is a place in the block of their category. -/
theorem exists_place (cards : List Card) (order : Order) :
    ∃ place < (evaluate cards order).category.slotSize,
      (evaluate cards order).power = order.offset (evaluate cards order).category + place := by
  have hvalues : RankValues (values (groups cards)) := by
    rw [values_groups]
    exact Rules.rankValues cards
  have hdigits := fun c : Category => digitsValue_lt hvalues c.digits
  simp only [evaluate]
  split
  · split
    · next top htop =>
      have hlt := straightTop?_sub_lt hvalues htop
      refine ⟨top - 5, ?_, rfl⟩
      cases isFlush cards <;> exact hlt
    · exact ⟨_, hdigits _, rfl⟩
  · exact ⟨_, hdigits _, rfl⟩

/-- In every accepted order of categories the score of any cards lies in the block of their
category. Of cards of two categories those whose category stands earlier have the higher score. -/
theorem scores_separate_categories {ranking : List Category} {order : Order}
    (haccepted : Order.ofList ranking = .ok order) :
    (∀ cards, order.offset (evaluate cards order).category ≤ (evaluate cards order).power ∧
        (evaluate cards order).power <
          order.offset (evaluate cards order).category +
            (evaluate cards order).category.slotSize) ∧
      ∀ a b, (evaluate a order).category ≠ (evaluate b order).category →
        (ranking.idxOf (evaluate a order).category < ranking.idxOf (evaluate b order).category ↔
          (evaluate b order).power < (evaluate a order).power) := by
  have hranking := Order.ranking_of_ofList haccepted
  refine ⟨fun cards => ?_, fun a b hne => ?_⟩
  · obtain ⟨place, hlt, hpower⟩ := exists_place cards order
    omega
  · obtain ⟨placeA, hltA, hpowerA⟩ := exists_place a order
    obtain ⟨placeB, hltB, hpowerB⟩ := exists_place b order
    rw [hpowerA, hpowerB, Order.score_lt_iff hltB hltA, ← hranking]
    simp [hne.symm]

/-- Where a high card is the best that there is, no cards at all beat five times the same ace, which
make a flush. -/
theorem scores_separate_categories_highCardFirst :
    ∃ order, Order.ofList Category.all = .ok order ∧
      let aces : List Card := List.replicate 5 ⟨.spades, .ace⟩
      (evaluate [] order).category = .highCard ∧ (evaluate aces order).category = .flush ∧
      (evaluate aces order).power < order.offset .flush + Category.flush.slotSize ∧
      (evaluate aces order).power < (evaluate [] order).power := by
  have haccepted : Order.ofList Category.all = .ok ⟨Category.all, by decide⟩ := rfl
  obtain ⟨hblock, hhigher⟩ := scores_separate_categories haccepted
  refine ⟨_, haccepted, by decide, by decide, ?_, ?_⟩
  · exact (hblock (List.replicate 5 ⟨.spades, .ace⟩)).2
  · exact (hhigher [] (List.replicate 5 ⟨.spades, .ace⟩) (by decide)).1 (by decide)

end MadeHand

end PokerHand
