import PokerHand.Card
import PokerHand.Ranking.Category

/-!
# What poker hands are

The rules for hands of up to five cards, told without scores: a hand has a category
(`Rules.classify`) and a key (`Rules.key`), and of two hands of one category the one with the higher
key is better. A straight has its top card for a key and any other hand its ranks, those of which
there are most in front. Fewer than five cards make no straight and no flush.
-/
namespace PokerHand.Rules

/-- How many of the cards have a rank. -/
def multiplicity (cards : List Card) (r : Rank) : Nat := (cards.map Card.rank).count r

/-- How many ranks have exactly `k` cards. -/
def ranksWith (cards : List Card) (k : Nat) : Nat :=
  Rank.all.countP fun r => multiplicity cards r == k

/-- Whether a rank may stand before another one: there are more cards of it, or as many and it is
no lower. -/
def leads (cards : List Card) (r s : Rank) : Bool :=
  multiplicity cards s < multiplicity cards r ||
    (multiplicity cards s == multiplicity cards r && s.value ≤ r.value)

/-- The ranks of the cards, those of which there are most first, and then by falling rank. -/
def rankList (cards : List Card) : List Rank :=
  (Rank.all.filter fun r => 0 < multiplicity cards r).mergeSort (leads cards)

/-- Whether a rank fills the place `v` of a straight. The ace fills the last place and the first. -/
def fills (r : Rank) (v : Nat) : Bool := r.value == v || (r == .ace && v == 1)

/-- Whether the cards fill the five places that end with `top`. -/
def reaches (cards : List Card) (top : Nat) : Bool :=
  [top, top - 1, top - 2, top - 3, top - 4].all fun v => cards.any fun c => fills c.rank v

/-- The last places of straights. -/
def tops : List Nat := [14, 13, 12, 11, 10, 9, 8, 7, 6, 5]

/-- The last place of the straight that five cards make. -/
def topOfStraight? (cards : List Card) : Option Nat :=
  if cards.length = 5 then tops.find? (reaches cards) else none

/-- Whether the cards are five of one suit. -/
def isFlush (cards : List Card) : Bool :=
  cards.length == 5 && Suit.all.any fun s => cards.all fun c => c.suit == s

/-- What the numbers of equal ranks make. -/
def classifyRanks (cards : List Card) : Category :=
  if 1 ≤ ranksWith cards 4 then .fourOfAKind
  else if 1 ≤ ranksWith cards 3 then
    if 1 ≤ ranksWith cards 2 then .fullHouse else .threeOfAKind
  else if 2 ≤ ranksWith cards 2 then .twoPair
  else if 1 ≤ ranksWith cards 2 then .pair
  else .highCard

/-- The category of a hand. -/
def classify (cards : List Card) : Category :=
  match topOfStraight? cards, isFlush cards with
  | some _, true => .straightFlush
  | some _, false => .straight
  | none, true => .flush
  | none, false => classifyRanks cards

/-- What tells apart hands of one category. -/
def key (cards : List Card) : List Nat :=
  match topOfStraight? cards with
  | some top => [top]
  | none => (rankList cards).map Rank.value

end PokerHand.Rules
