import PokerHand.Chips.SidePot
import PokerHand.Fault
import PokerHand.Lists

/-!
# Paying out the pots

Each pot goes to the best scores among its contributors, and a pot that nobody live has reached
goes to the best of all. Winners share evenly; the chips that do not divide go one each to the
first winners in seat order.
-/
namespace PokerHand

/-- A seat that takes part in the payout. -/
structure Entrant where
  seat : Nat
  bankroll : Int
  /-- All chips committed in the hand. -/
  committed : Int
  /-- The power of the hand; a folded seat has none. -/
  score : Option Nat
  deriving DecidableEq

/-- What the hand did to one bankroll. -/
structure Balance where
  seat : Nat
  final : Int
  changed : Int
  deriving DecidableEq

structure Winner where
  seat : Nat
  withdraw : Int
  deriving DecidableEq

structure PaidPot where
  level : Int
  total : Int
  winners : List Winner
  deriving DecidableEq

structure Payout where
  balances : List Balance
  pots : List PaidPot
  deriving DecidableEq

namespace Payout

open Counting

/-- The entrant at `seat`; of several the last counts. -/
def entrantAt (entrants : List Entrant) (seat : Nat) : Except Fault Entrant :=
  match entrants.reverse.find? fun e => e.seat == seat with
  | some e => .ok e
  | none => .error (.inconsistent (.strangerInPot seat))

/-- The entrants that may win `pot`. -/
def eligible (entrants : List Entrant) (pot : SidePot) : Except Fault (List Entrant) :=
  if pot.contributors.isEmpty then .ok (entrants.filter fun e => e.score.isSome)
  else pot.contributors.mapM (entrantAt entrants)

/-- The seats with the highest score, ascending. -/
def topSeats (eligible : List Entrant) : List Nat :=
  match (eligible.filterMap Entrant.score).max? with
  | none => []
  | some best =>
      Lists.sortBy (fun a b => a ≤ b)
        ((eligible.filter fun e => e.score == some best).map Entrant.seat)

variable [Counting]

/-- What `seat` takes out of all pots. -/
def withdrawnBy (p : Payout) (seat : Nat) : Int :=
  total (((p.pots.flatMap PaidPot.winners).filter fun w => w.seat == seat).map Winner.withdraw)

/-- The chips of each of `seats` when they share `total`. Division goes toward zero, and a
negative rest gives every winner a chip more. -/
def share (total : Int) (seats : List Nat) : List Winner :=
  let each := total.tdiv seats.length
  let rest := total.tmod seats.length
  seats.mapIdx fun i seat => ⟨seat, fit (each + if rest < 0 ∨ i < rest then 1 else 0)⟩

/-- Pays out one pot. -/
def payPot (entrants : List Entrant) (pot : SidePot) : Except Fault PaidPot := do
  let seats := topSeats (← eligible entrants pot)
  if seats.isEmpty then throw (.inconsistent (.noWinner pot.level))
  return ⟨pot.level, pot.total, share pot.total seats⟩

/-- Adds what a winner is paid to what its seat has drawn so far. -/
def draw (drawn : SeatMap Int) (w : Winner) : SeatMap Int :=
  drawn.insert w.seat (fit ((drawn.find? w.seat).getD 0 + w.withdraw))

/-- What each of the winners draws from all of `pots`. -/
def drawn (pots : List PaidPot) : SeatMap Int := (pots.flatMap PaidPot.winners).foldl draw .empty

/-- The bankroll of an entrant after the pots are paid. -/
def balance (pots : List PaidPot) (e : Entrant) : Balance :=
  let final := fit (fit (e.bankroll - e.committed) + ((drawn pots).find? e.seat).getD 0)
  ⟨e.seat, final, fit (final - e.bankroll)⟩

/-- Pays out every pot. -/
def settle (pots : List SidePot) (entrants : List Entrant) : Except Fault Payout := do
  let paid ← pots.mapM (payPot entrants)
  return ⟨entrants.map (balance paid), paid⟩

end Payout

end PokerHand
