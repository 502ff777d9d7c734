import PokerHand.Chips.Payout
import PokerHand.Gate.Queue
import PokerHand.Hand.Terms

/-!
# The state of a hand

A `Hand` is a snapshot of one hand between two calls. A seat's place is its index in `seats`.
-/
namespace PokerHand

structure Hand where
  id : String
  /-- Seconds since the epoch. -/
  createdAt : Int
  updatedAt : Int
  terms : Terms
  phase : Phase
  street : Option Street
  minBet : Int
  /-- The wager to match in the current round. -/
  wager : Int
  /-- The size of the last full raise of the round. -/
  raiseSize : Int
  /-- The seat after which the betting of the round begins. -/
  raiser : Nat
  /-- The seat that was last given a turn. -/
  turn : Nat
  /-- How many cards of the deck are dealt. -/
  dealt : Nat
  board : List Card
  burned : List Card
  pots : List SidePot
  last : Option LastAction
  tasks : List Task
  seats : List Seat
  result : Option Payout
  deriving DecidableEq

namespace Hand

/-- The seat at a place. -/
def seatAt (h : Hand) (place : Nat) : Except Fault Seat :=
  match h.seats[place]? with
  | some s => .ok s
  | none => .error (.unknownSeat place)

/-- The seat at a place that the hand itself names. -/
def ownSeat (h : Hand) (place : Nat) : Except Fault Seat :=
  match h.seats[place]? with
  | some s => .ok s
  | none => .error (.inconsistent (.vacantPlace place))

/-- The place of the first seat that deals. -/
def dealerSeat (h : Hand) : Except Fault Nat :=
  match h.seats.findIdx? fun s => s.holds .dealer with
  | some place => .ok place
  | none => .error .noDealer

/-- The chips in all pots. -/
def potTotal [Counting] (h : Hand) : Int := Counting.total (h.pots.map SidePot.total)

/-- The seats that are offered an action. -/
def actionable (h : Hand) : List Nat :=
  (h.seats.filter fun s => !s.allowed.isEmpty).map Seat.number

def isClosed (h : Hand) : Bool := h.phase == .gameClosed

/-- What `seat` owes the task that waits for it. -/
def owedBy (h : Hand) (seat : Nat) : Option Int := do
  let i ← Queue.firstFor? h.tasks seat
  let task ← h.tasks[i]?
  task.owedBy seat

/-- What the player to act faces. -/
def stakes (h : Hand) : Stakes := ⟨h.wager, h.raiseSize, h.minBet, h.terms.limit⟩

/-- Applies `f` to every seat. -/
def mapSeats (h : Hand) (f : Seat → Seat) : Hand := { h with seats := h.seats.map f }

/-- Applies `f` to the seat at a place that the hand itself names. A hand that names a place at
which nobody sits contradicts itself. -/
def modifySeat (h : Hand) (place : Nat) (f : Seat → Seat) : Except Fault Hand :=
  if place < h.seats.length then .ok { h with seats := h.seats.modify place f }
  else .error (.inconsistent (.vacantPlace place))

/-- How many seats have not folded. -/
def unfolded (h : Hand) : Nat := h.seats.countP fun s => !s.folded

/-- A fresh hand for a setup, before its start. -/
def create (setup : Setup) (id : String) (now : Int) : Except Fault Hand := do
  setup.check
  return {
    id := id
    createdAt := now
    updatedAt := now
    terms := setup.terms
    phase := .started
    street := none
    minBet := 0
    wager := 0
    raiseSize := 0
    raiser := 0
    turn := 0
    dealt := 0
    board := []
    burned := []
    pots := []
    last := none
    tasks := []
    seats := setup.players.mapIdx fun seat p => Seat.fresh seat p.bankroll p.positions
    result := none }

end Hand

end PokerHand
