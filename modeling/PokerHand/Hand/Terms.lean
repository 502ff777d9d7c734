import PokerHand.Betting

/-!
# The terms of a hand

The terms fix stakes, dealing and ranking for one hand; a `Setup` adds the players.
`Setup.check` refuses a setup that cannot be played and names the first thing that is wrong.
-/
namespace PokerHand

/-- The forced bets, by the position that posts them. -/
structure Blinds where
  dealer : Int
  small : Int
  big : Int
  deriving DecidableEq

def Blinds.anyPositive (b : Blinds) : Bool := b.dealer > 0 || b.small > 0 || b.big > 0

structure Terms where
  ante : Int
  blinds : Blinds
  limit : Limit
  holeCount : Nat
  /-- How many hole cards a player has to show; with zero any cards may be shown. -/
  requiredHole : Nat
  order : Order
  deck : List Card
  /-- How many cards are burned before board cards are dealt. -/
  burnCount : Nat
  deriving DecidableEq

namespace Terms

/-- No-limit terms with blinds of five and ten and an unshuffled deck of fifty-two cards. -/
def standard : Terms where
  ante := 0
  blinds := ⟨0, 5, 10⟩
  limit := .no
  holeCount := 2
  requiredHole := 0
  order := .standard
  deck := Deck.standard
  burnCount := 1

/-- The same stakes with thirty-six cards and a flush above a full house. -/
def shortDeck : Terms := { standard with order := .shortDeck, deck := Deck.short }

/-- The first positive stake of big blind, small blind, dealer blind and ante; else one chip. -/
def minBet (t : Terms) : Int :=
  (([t.blinds.big, t.blinds.small, t.blinds.dealer, t.ante].find? fun v => v > 0)).getD 1

/-- How many cards a hand of `players` may take from the deck. -/
def cardsTaken (t : Terms) (players : Nat) : Nat :=
  players * t.holeCount + 5 + 3 * t.burnCount

/-- The cards that a hand of `players` may take as they are counted, in words of sixty-four bits
without a sign. -/
def cardsNeeded (t : Terms) (players : Nat) : Nat :=
  t.cardsTaken players % 18446744073709551616

end Terms

/-- A player who is about to be seated. -/
structure Entry where
  bankroll : Int
  positions : List Position
  deriving DecidableEq

structure Setup where
  terms : Terms
  players : List Entry
  deriving DecidableEq

namespace Setup

/-- Entries for `count` players with the same bankroll and the customary positions. -/
def entries (count : Nat) (bankroll : Int) : List Entry :=
  (List.range count).map fun seat => ⟨bankroll, Position.customary count seat⟩

/-- Refuses unless exactly one player deals. -/
def checkDealer (s : Setup) : Except Fault Unit :=
  match s.players.countP fun p => p.positions.contains .dealer with
  | 0 => .error .noDealer
  | 1 => .ok ()
  | n => .error (.badTerms (.severalDealers n))

/-- Refuses players without chips, the first such seat first. -/
def checkBankrolls (s : Setup) : Except Fault Unit :=
  match s.players.findIdx? fun p => p.bankroll ≤ 0 with
  | none => .ok ()
  | some seat => .error (.brokePlayer seat ((s.players[seat]?.map Entry.bankroll).getD 0))

/-- Refuses a setup that cannot be played. -/
def check (s : Setup) : Except Fault Unit := do
  let t := s.terms
  let needed := t.cardsNeeded s.players.length
  if s.players.length < 2 then throw (.tooFewPlayers s.players.length)
  s.checkDealer
  if t.holeCount = 0 then throw (.badTerms .noHoleCards)
  if t.requiredHole > t.holeCount then throw (.badTerms .requiredExceedsHole)
  if t.ante < 0 ∨ t.blinds.dealer < 0 ∨ t.blinds.small < 0 ∨ t.blinds.big < 0 then
    throw (.badTerms .negativeStake)
  if t.deck.isEmpty then throw .emptyDeck
  if t.deck.length < needed then throw (.tooFewCards needed t.deck.length)
  if ¬ t.deck.Nodup then throw (.badTerms .duplicateCards)
  s.checkBankrolls

end Setup

end PokerHand
