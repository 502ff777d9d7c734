import PokerHand.Card
import PokerHand.Lists
import PokerHand.Ranking.Order

/-!
# Scoring a set of cards

The cards are sorted by falling rank and fall into groups of equal rank; larger groups stand first
and groups of one size stay sorted. The sizes give the category, and five single cards may also make
a straight or a flush. Within its category a hand counts its leading ranks as digits in base
thirteen, and a straight counts its top card, where the ace of the lowest straight plays as a one.
-/
namespace PokerHand

/-- What a set of cards is worth. -/
structure MadeHand where
  category : Category
  cards : List Card
  power : Nat
  deriving DecidableEq

namespace MadeHand

/-- The cards by falling rank; cards of one rank stay as they come. -/
def sorted (cards : List Card) : List Card :=
  Lists.sortBy (fun c d => d.rank.value ≤ c.rank.value) cards

/-- The groups of equal rank, by falling rank. -/
def byRank (cards : List Card) : List (List Card) :=
  (Lists.gather Card.rank (sorted cards)).map Prod.snd

/-- The groups of equal rank, larger ones first and then by falling rank. -/
def groups (cards : List Card) : List (List Card) :=
  Lists.sortBy (fun a b => b.length ≤ a.length) (byRank cards)

/-- What the sizes of the groups make, straights and flushes apart. -/
def ofSizes : List Nat → Category
  | 4 :: _ => .fourOfAKind
  | 3 :: 2 :: _ => .fullHouse
  | 3 :: _ => .threeOfAKind
  | 2 :: 2 :: _ => .twoPair
  | 2 :: _ => .pair
  | _ => .highCard

/-- The top of the straight that five falling rank values make. -/
def straightTop? : List Nat → Option Nat
  | [14, 5, 4, 3, 2] => some 5
  | [a, _, _, _, e] => if a = e + 4 then some a else none
  | _ => none

/-- Whether all cards have one suit. -/
def isFlush : List Card → Bool
  | [] => true
  | c :: rest => rest.all fun d => d.suit == c.suit

/-- The number whose leading digits in base thirteen are the given rank values. -/
def digitsValue : Nat → List Nat → Nat
  | 0, _ => 0
  | _, [] => 0
  | n + 1, v :: rest => (v - 2) * Nat.pow 13 n + digitsValue n rest

/-- The rank values of the groups. -/
def values (groups : List (List Card)) : List Nat :=
  groups.filterMap fun g => g.head?.map fun c => c.rank.value

/-- Scores the cards as they are, however many. -/
def evaluate (cards : List Card) (order : Order) : MadeHand :=
  let groups := groups cards
  let plain := ofSizes (groups.map List.length)
  let values := values groups
  let ordered := groups.flatten
  if cards.length = 5 ∧ plain = .highCard then
    match straightTop? values with
    | some top =>
        let category := if isFlush cards then .straightFlush else .straight
        ⟨category, if top = 5 then ordered.rotateLeft 1 else ordered,
          order.offset category + (top - 5)⟩
    | none =>
        let category := if isFlush cards then .flush else .highCard
        ⟨category, ordered, order.offset category + digitsValue category.digits values⟩
  else ⟨plain, ordered, order.offset plain + digitsValue plain.digits values⟩

end MadeHand

end PokerHand
