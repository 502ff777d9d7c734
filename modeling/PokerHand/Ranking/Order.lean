import PokerHand.Fault
import PokerHand.Ranking.Category

/-!
# Orders of categories

An order lists every category once, strongest first. The offset of a category is the size of all
categories that stand behind it, so the blocks of scores are disjoint and rise with strength.
-/
namespace PokerHand

structure Order where
  ranking : List Category
  complete : ranking.length = Category.all.length ∧ ∀ c ∈ Category.all, c ∈ ranking

namespace Order

instance : DecidableEq Order := fun a b =>
  decidable_of_iff (a.ranking = b.ranking) (by cases a; cases b; simp)

/-- The order with this ranking; refused unless it lists every category. -/
def ofList (ranking : List Category) : Except Fault Order :=
  if h : ranking.length = Category.all.length ∧ ∀ c ∈ Category.all, c ∈ ranking then
    .ok ⟨ranking, h⟩
  else .error (.badTerms .incompleteOrder)

/-- The order of a game with all fifty-two cards. -/
def standard : Order where
  ranking := [.straightFlush, .fourOfAKind, .fullHouse, .flush, .straight, .threeOfAKind,
    .twoPair, .pair, .highCard]
  complete := by decide

/-- The order of a game without the low cards, where a flush beats a full house. -/
def shortDeck : Order where
  ranking := [.straightFlush, .fourOfAKind, .flush, .fullHouse, .straight, .threeOfAKind,
    .twoPair, .pair, .highCard]
  complete := by decide

/-- The least score of a category: the size of everything weaker. -/
def offset (order : Order) (c : Category) : Nat :=
  Category.slotSum ((order.ranking.dropWhile fun d => d != c).drop 1)

end Order

end PokerHand
