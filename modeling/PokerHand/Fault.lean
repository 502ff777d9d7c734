import PokerHand.Phase
import PokerHand.Seat.Role
import PokerHand.Text.Quoted

/-!
# Why a call is refused

Each refusal is a `Fault`: a cause with what the caller needs to know about it. `Fault.message`
words it, `Fault.severity` says how a caller should treat it, and `Fault.isRetryable` whether a
different call on the same hand can succeed.
-/
namespace PokerHand

/-- What is wrong with the terms of a hand. -/
inductive TermsFault where
  | severalDealers (count : Nat)
  | noHoleCards
  | requiredExceedsHole
  | negativeStake
  | duplicateCards
  | incompleteOrder
  deriving DecidableEq

/-- Why no task can take a call. -/
inductive TaskFault where
  | wrongKind (due : Due)
  | nothingPending (seat : Nat)
  | noGate (phase : Phase)
  deriving DecidableEq

/-- How a hand contradicts itself. -/
inductive Inconsistency where
  | strangerInPot (seat : Nat)
  | noWinner (level : Int)
  | nobodyToClear (phase : Phase)
  | restsBetween (phase : Phase)
  | vacantPlace (place : Nat)
  deriving DecidableEq

inductive Fault where
  | tooFewPlayers (count : Nat)
  | noDealer
  | emptyDeck
  | tooFewCards (needed available : Nat)
  | brokePlayer (seat : Nat) (bankroll : Int)
  | badTerms (cause : TermsFault)
  | badCard (text : String)
  | unknownSeat (seat : Nat)
  | notAllowed (seat : Nat) (action : Action)
  | badRaise (level wager : Int)
  | badBet (amount minimum : Int)
  | badPayment (expected actual : Int)
  | roundNotClosed (phase : Phase)
  | wrongPhase (expected actual : Phase)
  | handClosed
  | noSuchTask (cause : TaskFault)
  | noNextRound
  | inconsistent (cause : Inconsistency)
  deriving DecidableEq

/-- How a caller should treat a refusal. -/
inductive Severity where
  /-- The terms are bad and the hand never became playable. -/
  | fatal
  /-- The action is not legal now; ask again. -/
  | illegalAction
  /-- The call came in the wrong phase. -/
  | outOfPhase
  /-- The hand is corrupted. -/
  | corrupt
  deriving DecidableEq

def TermsFault.message : TermsFault → String
  | severalDealers count => s!"{count} seats hold the dealer position"
  | noHoleCards => "hole_cards_count must be at least 1"
  | requiredExceedsHole => "required_hole_cards_count exceeds hole_cards_count"
  | negativeStake => "ante and blinds must be non-negative"
  | duplicateCards => "deck contains duplicate cards"
  | incompleteOrder => "combination powers must list every category exactly once"

def TaskFault.message : TaskFault → String
  | wrongKind due => due.name
  | nothingPending seat => s!"no pending task for seat {seat}"
  | noGate phase => s!"no tasks expected at {phase.name}"

def Inconsistency.message : Inconsistency → String
  | strangerInPot seat => s!"pot contributor {seat} has no entrant"
  | noWinner level => s!"pot at level {level} has no eligible winner"
  | nobodyToClear phase => s!"{phase.name} has no seat left to act"
  | restsBetween phase => s!"snapshot rests at {phase.name}, which is not a waiting point"
  | vacantPlace place => s!"nobody sits at place {place}"

namespace Fault

def message : Fault → String
  | tooFewPlayers count => s!"at least two players are required, got {count}"
  | noDealer => "no seat holds the dealer position"
  | emptyDeck => "deck is empty"
  | tooFewCards needed available => s!"deck has {available} cards, hand needs {needed}"
  | brokePlayer seat bankroll => s!"player {seat} has a non-positive bankroll: {bankroll}"
  | badTerms cause => s!"invalid options: {cause.message}"
  | badCard text => s!"invalid card symbol: {Text.Quoted.quote text}"
  | unknownSeat seat => s!"no player at seat {seat}"
  | notAllowed seat action => s!"action {action.name} is not allowed for player {seat}"
  | badRaise level wager => s!"invalid raise to {level}, current wager is {wager}"
  | badBet amount minimum => s!"invalid bet amount: {amount}, minimum: {minimum}"
  | badPayment expected actual => s!"invalid payment: {actual}, expected {expected}"
  | roundNotClosed phase => s!"round is not closed (current event {phase.name})"
  | wrongPhase expected actual =>
      s!"operation expects {expected.name}, hand is at {actual.name}"
  | handClosed => "hand is closed"
  | noSuchTask cause => s!"unknown task: {cause.message}"
  | noNextRound => "unknown round"
  | inconsistent cause => s!"inconsistent state: {cause.message}"

def severity : Fault → Severity
  | tooFewPlayers _ | noDealer | emptyDeck | tooFewCards _ _ | brokePlayer _ _ | badTerms _
  | badCard _ => .fatal
  | unknownSeat _ | notAllowed _ _ | badRaise _ _ | badBet _ _ | badPayment _ _ => .illegalAction
  | roundNotClosed _ | wrongPhase _ _ | handClosed => .outOfPhase
  | noSuchTask _ | noNextRound | inconsistent _ => .corrupt

/-- A closed hand takes no further call, and a fatal or corrupt one never recovers. -/
def isRetryable (fault : Fault) : Bool :=
  fault != handClosed &&
    (fault.severity == .illegalAction || fault.severity == .outOfPhase)

end Fault

end PokerHand
