/-!
# Categories of hands

Every category owns a block of the score space whose size is a power of thirteen: one digit in
base thirteen for each rank that tells two hands of the category apart.
-/
namespace PokerHand

inductive Category where
  | highCard
  | pair
  | twoPair
  | threeOfAKind
  | straight
  | flush
  | fullHouse
  | fourOfAKind
  | straightFlush
  deriving DecidableEq

namespace Category

def all : List Category :=
  [highCard, pair, twoPair, threeOfAKind, straight, flush, fullHouse, fourOfAKind,
   straightFlush]

/-- The written form of a category. -/
def name : Category → String
  | highCard => "HighCard"
  | pair => "Pair"
  | twoPair => "TwoPair"
  | threeOfAKind => "ThreeOfAKind"
  | straight => "Straight"
  | flush => "Flush"
  | fullHouse => "FullHouse"
  | fourOfAKind => "FourOfAKind"
  | straightFlush => "StraightFlush"

def ofName? (s : String) : Option Category := all.find? fun c => c.name == s

/-- How many ranks tell two hands of this category apart. -/
def digits : Category → Nat
  | highCard | flush => 5
  | pair => 4
  | twoPair | threeOfAKind => 3
  | fullHouse | fourOfAKind => 2
  | straight | straightFlush => 1

/-- How many scores the category owns. -/
def slotSize (c : Category) : Nat := Nat.pow 13 c.digits

/-- How many scores several categories own. -/
def slotSum : List Category → Nat
  | [] => 0
  | c :: rest => c.slotSize + slotSum rest

theorem mem_all (c : Category) : c ∈ all := by cases c <;> decide

end Category

end PokerHand
