/-!
# Positions and actions

What a seat is at the table and what it may be asked to do. A seat may hold several positions: of
two players, the dealer also posts the small blind.
-/
namespace PokerHand

inductive Position where
  | dealer
  | smallBlind
  | bigBlind
  | underTheGun
  | middle
  | hijack
  | cutoff
  deriving DecidableEq

namespace Position

def all : List Position :=
  [dealer, smallBlind, bigBlind, underTheGun, middle, hijack, cutoff]

/-- The written form of a position. -/
def name : Position → String
  | dealer => "dealer"
  | smallBlind => "sb"
  | bigBlind => "bb"
  | underTheGun => "ug"
  | middle => "mp"
  | hijack => "hj"
  | cutoff => "co"

def ofName? (s : String) : Option Position := all.find? fun p => p.name == s

/-- The position of the `k`th seat after the big blind; the four names repeat. -/
def afterBlinds (k : Nat) : Position :=
  match k % 4 with
  | 0 => underTheGun
  | 1 => middle
  | 2 => hijack
  | _ => cutoff

/-- The positions of `seat` at a table of `count` players, where seat 0 deals. -/
def customary (count seat : Nat) : List Position :=
  match seat with
  | 0 => if count = 2 then [dealer, smallBlind] else [dealer]
  | 1 => if count = 2 then [bigBlind] else [smallBlind]
  | 2 => [bigBlind]
  | k + 3 => if count = 2 then [bigBlind] else [afterBlinds k]

end Position

inductive Action where
  | pass | ready | pay | check | call | fold | bet | raise | allin
  deriving DecidableEq

namespace Action

def all : List Action := [pass, ready, pay, check, call, fold, bet, raise, allin]

/-- The written form of an action. -/
def name : Action → String
  | pass => "pass"
  | ready => "ready"
  | pay => "pay"
  | check => "check"
  | call => "call"
  | fold => "fold"
  | bet => "bet"
  | raise => "raise"
  | allin => "allin"

def ofName? (s : String) : Option Action := all.find? fun a => a.name == s

end Action

end PokerHand
