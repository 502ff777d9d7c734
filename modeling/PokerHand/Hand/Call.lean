import PokerHand.Hand.Bet
import PokerHand.Hand.Gate

/-!
# Calls on a hand

A `Call` is one thing that somebody asks of the hand. `Hand.step` applies it to a hand and yields
the hand at the next point of rest, or a refusal that leaves the hand as it was. Seats are named by
their place.
-/
namespace PokerHand

inductive Call where
  | start
  | ready (seat : Nat)
  | pay (seat : Nat) (chips : Int)
  | pass (seat : Nat)
  | readyAll
  | payAntes
  | payBlinds
  | fold (seat : Nat)
  | check (seat : Nat)
  | call (seat : Nat)
  | bet (seat : Nat) (chips : Int)
  | raise (seat : Nat) (level : Int)
  | allin (seat : Nat)
  | next
  deriving DecidableEq

namespace Hand

variable [Counting]

/-- Goes from a closed round to the next one. -/
def nextStreet (h : Hand) : Traced Hand :=
  if h.phase = .roundClosed then
    match h.street.bind Street.next? with
    | some street => enterStreet street h
    | none => .refuse .noNextRound
  else if h.isClosed then .refuse .handClosed
  else .refuse (.roundNotClosed h.phase)

/-- What a call does, without the note of a refusal. -/
def attempt (h : Hand) : Call → Traced Hand
  | .start => do
      h.expectPhase .started
      start h
  | .ready place => h.ready place
  | .pay place chips => h.pay place chips
  | .pass place => h.pass place
  | .readyAll => h.clearGate .readyRequested
  | .payAntes => h.clearGate .anteRequested
  | .payBlinds => h.clearGate .blindsRequested
  | .fold place => do
      let _ ← h.allowedSeat place .fold
      h.apply place .fold
  | .check place => do
      let _ ← h.allowedSeat place .check
      h.apply place .check
  | .call place => do
      let s ← h.allowedSeat place .call
      h.apply place (h.stakes.callMove s)
  | .bet place chips => do
      let s ← h.allowedSeat place .bet
      let move ← h.stakes.betMove s chips
      h.apply place move
  | .raise place level => do
      let s ← h.allowedSeat place .raise
      let move ← h.stakes.raiseMove s level
      h.apply place move
  | .allin place => do
      let s ← h.allowedSeat place .allin
      h.apply place (.allin s.stack)
  | .next => h.nextStreet

/-- Applies a call; a refusal is noted. -/
def step (call : Call) (h : Hand) : Traced Hand :=
  let run := h.attempt call
  match run.outcome with
  | .ok _ => run
  | .error fault => { run with notes := run.notes ++ [.refused fault] }

/-- Applies a call at time `now`, which an applied call leaves as the time of the last change. -/
def perform (now : Int) (call : Call) (h : Hand) : Traced Hand := do
  let h ← h.step call
  return { h with updatedAt := now }

/-- A hand that is created and started at once. -/
def deal (setup : Setup) (id : String) (now : Int) : Traced Hand := do
  let h ← create setup id now
  h.perform now .start

end Hand

end PokerHand
