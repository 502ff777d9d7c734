/-!
# Playing cards

A card has a suit and a rank. Suits and ranks have one letter each and a card is written as its
suit letter followed by its rank letter. `Card.precedes` is the order by suit, then rank.
-/
namespace PokerHand

inductive Suit where
  | clubs | diamonds | hearts | spades
  deriving DecidableEq

namespace Suit

/-- The suits in the order in which a fresh deck holds them. -/
def all : List Suit := [spades, hearts, diamonds, clubs]

def letter : Suit → Char
  | clubs => 'C'
  | diamonds => 'D'
  | hearts => 'H'
  | spades => 'S'

def name : Suit → String
  | clubs => "Clubs"
  | diamonds => "Diamonds"
  | hearts => "Hearts"
  | spades => "Spades"

/-- The place of a suit when cards are sorted. -/
def place : Suit → Nat
  | clubs => 0
  | diamonds => 1
  | hearts => 2
  | spades => 3

/-- The suit with this letter, in either case. -/
def ofLetter? (c : Char) : Option Suit := all.find? fun s => s.letter == c.toUpper

theorem mem_all (s : Suit) : s ∈ all := by cases s <;> decide

end Suit

inductive Rank where
  | two | three | four | five | six | seven | eight | nine | ten | jack | queen | king | ace
  deriving DecidableEq

namespace Rank

/-- The ranks from lowest to highest. -/
def all : List Rank :=
  [two, three, four, five, six, seven, eight, nine, ten, jack, queen, king, ace]

/-- Two counts two, and so on up to the ace, which counts fourteen. -/
def value : Rank → Nat
  | two => 2
  | three => 3
  | four => 4
  | five => 5
  | six => 6
  | seven => 7
  | eight => 8
  | nine => 9
  | ten => 10
  | jack => 11
  | queen => 12
  | king => 13
  | ace => 14

def letter : Rank → Char
  | two => '2'
  | three => '3'
  | four => '4'
  | five => '5'
  | six => '6'
  | seven => '7'
  | eight => '8'
  | nine => '9'
  | ten => 'T'
  | jack => 'J'
  | queen => 'Q'
  | king => 'K'
  | ace => 'A'

def name : Rank → String
  | two => "Two"
  | three => "Three"
  | four => "Four"
  | five => "Five"
  | six => "Six"
  | seven => "Seven"
  | eight => "Eight"
  | nine => "Nine"
  | ten => "Ten"
  | jack => "Jack"
  | queen => "Queen"
  | king => "King"
  | ace => "Ace"

/-- The rank with this letter, in either case. -/
def ofLetter? (c : Char) : Option Rank := all.find? fun r => r.letter == c.toUpper

theorem mem_all (r : Rank) : r ∈ all := by cases r <;> decide

theorem value_injective {r s : Rank} (h : r.value = s.value) : r = s := by
  cases r <;> cases s <;> first | rfl | simp [value] at h

end Rank

structure Card where
  suit : Suit
  rank : Rank
  deriving DecidableEq

namespace Card

/-- The two letters of a card, suit first. -/
def letters (c : Card) : List Char := [c.suit.letter, c.rank.letter]

/-- The written form of a card. -/
def symbol (c : Card) : String := String.ofList c.letters

/-- Whether `a` may stand before `b` when cards are sorted by suit, then rank. -/
def precedes (a b : Card) : Bool :=
  a.suit.place < b.suit.place || (a.suit == b.suit && a.rank.value ≤ b.rank.value)

/-- The cards' symbols with one space between. -/
def listText (cards : List Card) : String := " ".intercalate (cards.map symbol)

end Card

/-! Fresh decks. -/

namespace Deck

/-- All fifty-two cards, suit by suit from spades to clubs, each from two to ace. -/
def standard : List Card := Suit.all.flatMap fun s => Rank.all.map fun r => ⟨s, r⟩

/-- The thirty-six cards from six upward, in the order of the standard deck. -/
def short : List Card := standard.filter fun c => Rank.six.value ≤ c.rank.value

end Deck

end PokerHand
