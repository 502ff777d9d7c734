import PokerHand.Chips.Counting
import PokerHand.Ranking.MadeHand
import PokerHand.Seat.Role

/-!
# A player's seat

A seat's bankroll is what the player owned before the hand. Its chips lie in the stack, in the
wager of the current round, or in the pot.
-/
namespace PokerHand

structure Seat where
  number : Nat
  positions : List Position
  bankroll : Int
  /-- The stack at the start of the current round. -/
  initialStack : Int
  stack : Int
  /-- Chips committed in earlier rounds, and antes. -/
  pot : Int
  /-- Chips committed in the current round. -/
  wager : Int
  folded : Bool
  /-- Whether the seat acted since the last bet or raise. -/
  acted : Bool
  /-- The last action of the seat in this round. -/
  did : Option Action
  allowed : List Action
  hole : List Card
  made : Option MadeHand
  deriving DecidableEq

/-- The last action that was applied to a hand. -/
structure LastAction where
  seat : Nat
  action : Action
  value : Int
  deriving DecidableEq

namespace Seat

open Counting

/-- A seat before the first deal. -/
def fresh (number : Nat) (bankroll : Int) (positions : List Position) : Seat where
  number := number
  positions := positions
  bankroll := bankroll
  initialStack := bankroll
  stack := bankroll
  pot := 0
  wager := 0
  folded := false
  acted := false
  did := none
  allowed := []
  hole := []
  made := none

def holds (s : Seat) (p : Position) : Bool := s.positions.contains p

def mayDo (s : Seat) (a : Action) : Bool := s.allowed.contains a

/-- Not folded and with chips behind. -/
def isMovable (s : Seat) : Bool := !s.folded && s.stack > 0

/-- Not folded and with nothing behind. -/
def isAllIn (s : Seat) : Bool := !s.folded && s.stack == 0

/-- Makes the seat ready for a new round. -/
def resetRound (s : Seat) : Seat :=
  { s with initialStack := s.stack, acted := false, did := none, allowed := [] }

/-! What counts the chips of the seat. -/

variable [Counting]

/-- All chips committed in this hand. -/
def committed (s : Seat) : Int := fit (s.pot + s.wager)

/-- Moves chips from the stack to the wager. -/
def putIn (s : Seat) (chips : Int) : Seat :=
  { s with stack := fit (s.stack - chips), wager := fit (s.wager + chips) }

/-- Moves chips from the stack to the pot. -/
def putInPot (s : Seat) (chips : Int) : Seat :=
  { s with stack := fit (s.stack - chips), pot := fit (s.pot + chips) }

/-- Moves the wager to the pot. -/
def collect (s : Seat) : Seat := { s with pot := fit (s.pot + s.wager), wager := 0 }

/-- Whether stack, wager and pot add up to the bankroll. -/
def isBalanced (s : Seat) : Bool := s.bankroll == fit (fit (s.stack + s.wager) + s.pot)

end Seat

end PokerHand
