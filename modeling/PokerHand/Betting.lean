import PokerHand.Fault
import PokerHand.Seat

/-!
# Betting rules

`offers` lists the actions that a player may choose at its turn. A chosen amount is then settled
into a `Move`: a call that the stack does not cover is an all-in, and so is a bet or raise that it
does not exceed. Under the pot limit no wager goes above the last wager plus the last raise. `Turn`
says whose turn it is and when a round is over.
-/
namespace PokerHand

/-- How high bets and raises may go. -/
inductive Limit where
  | no
  | pot
  deriving DecidableEq

namespace Limit

def all : List Limit := [no, pot]

/-- The written form of a limit. -/
def name : Limit → String
  | no => "no"
  | pot => "pot"

def ofName? (s : String) : Option Limit := all.find? fun l => l.name == s

end Limit

/-- What the player to act faces. -/
structure Stakes where
  /-- The wager to match. -/
  wager : Int
  /-- The size of the last raise. -/
  raiseSize : Int
  minBet : Int
  limit : Limit

/-- A legal action with the chips that it takes from the stack. -/
inductive Move where
  | fold
  | check
  | call (chips : Int)
  | bet (chips : Int)
  | raise (chips : Int)
  | allin (chips : Int)
  deriving DecidableEq

namespace Move

def action : Move → Action
  | fold => .fold
  | check => .check
  | call _ => .call
  | bet _ => .bet
  | raise _ => .raise
  | allin _ => .allin

def chips : Move → Int
  | fold | check => 0
  | call c | bet c | raise c | allin c => c

end Move

namespace Stakes

open Counting

variable [Counting]

/-- The highest wager that the limit permits for a request of `level`. -/
def capped (s : Stakes) (level : Int) : Int :=
  match s.limit with
  | .no => level
  | .pot => min level (fit (s.wager + s.raiseSize))

/-- The actions offered to `p` at its turn. -/
def offers (s : Stakes) (p : Seat) : List Action :=
  if p.folded || p.isAllIn then [.pass]
  else if p.wager < s.wager then
    [.allin, .fold, .call] ++
      (if fit (p.stack + p.wager) > fit (s.wager + s.raiseSize) then [.raise] else [])
  else
    [.allin, .check] ++
      (if s.wager = 0 then if p.stack ≥ s.minBet then [.bet] else []
      else if p.stack > s.raiseSize then [.raise] else [])

/-- Matching the wager, as far as the stack goes. -/
def callMove (s : Stakes) (p : Seat) : Move :=
  let toCall := max (fit (s.wager - p.wager)) 0
  if p.stack ≤ toCall then .allin p.stack else .call toCall

/-- Opening the betting with `chips`. -/
def betMove (s : Stakes) (p : Seat) (chips : Int) : Except Fault Move :=
  if chips ≤ 0 then .error (.badBet chips s.minBet)
  else
    let chips := s.capped chips
    if chips ≥ p.stack then .ok (.allin p.stack)
    else if chips < s.minBet then .error (.badBet chips s.minBet)
    else .ok (.bet chips)

/-- Raising the wager to `level`. A raise by less than the last one cannot stand and becomes an
all-in; a raise to the wager itself is a check or a call. -/
def raiseMove (s : Stakes) (p : Seat) (level : Int) : Except Fault Move :=
  if level ≤ 0 || level < s.wager then .error (.badRaise level s.wager)
  else
    let level := s.capped level
    if level = s.wager then
      .ok (if p.wager ≥ s.wager then .check else s.callMove p)
    else if level ≥ fit (p.stack + p.wager) || fit (level - s.wager) < s.raiseSize then
      .ok (.allin p.stack)
    else .ok (.raise (fit (level - p.wager)))

end Stakes

namespace Turn

/-- The place of the first seat after `start` that can still act; `start` itself comes last. -/
def nextMovable (seats : List Seat) (start : Nat) : Option Nat :=
  ((List.range seats.length).map fun k => (start + (k + 1)) % seats.length).find? fun i =>
    (seats[i]?).any Seat.isMovable

/-- Whether the seat at a place has acted and matched the wager; nobody has nothing to do. -/
def isDone (seats : List Seat) (wager : Int) (place : Option Nat) : Bool :=
  match place with
  | none => true
  | some i => (seats[i]?).all fun p => p.acted && p.wager ≥ wager

/-- Whether the round is over when `candidate` is the next seat that can act. -/
def isClosed (seats : List Seat) (wager : Int) (candidate : Option Nat) : Bool :=
  if seats.countP (fun p => !p.folded) ≤ 1 then true
  else
    match seats.filter Seat.isMovable with
    | [] => true
    | [only] => only.wager ≥ wager || isDone seats wager candidate
    | _ => isDone seats wager candidate

end Turn

end PokerHand
