import PokerHand.Text.Quoted

/-!
# Phases of a hand and betting rounds

A hand enters phases one after the other and rests only at those where somebody has to call for
the next step. A betting round is a `Street`; entering one is a phase of its own. At a gate a hand
waits for what is `Due`.
-/
namespace PokerHand

/-- A betting round. -/
inductive Street where
  | preflop | flop | turn | river
  deriving DecidableEq

inductive Phase where
  | started
  | initialized
  | prepared
  | anteRequested
  | antePaid
  | blindsRequested
  | blindsPaid
  | readyRequested
  | readiness
  | entered (street : Street)
  | roundInitialized
  | roundPrepared
  | roundStarted
  | roundClosed
  | gameCompleted
  | settlementRequested
  | settlementCompleted
  | gameClosed
  deriving DecidableEq

namespace Street

def all : List Street := [preflop, flop, turn, river]

/-- The written form of a round. -/
def name : Street → String
  | preflop => "preflop"
  | flop => "flop"
  | turn => "turn"
  | river => "river"

/-- The capitalised form of a round. -/
def title : Street → String
  | preflop => "Preflop"
  | flop => "Flop"
  | turn => "Turn"
  | river => "River"

def next? : Street → Option Street
  | preflop => some flop
  | flop => some turn
  | turn => some river
  | river => none

/-- How many board cards a round deals when it is entered. -/
def boardCards : Street → Nat
  | preflop => 0
  | flop => 3
  | turn => 1
  | river => 1

def ofName? (s : String) : Option Street := all.find? fun r => r.name == s

end Street

namespace Phase

def all : List Phase :=
  [started, initialized, prepared, anteRequested, antePaid, blindsRequested, blindsPaid,
   readyRequested, readiness, entered .preflop, entered .flop, entered .turn, entered .river,
   roundInitialized, roundPrepared, roundStarted, roundClosed, gameCompleted,
   settlementRequested, settlementCompleted, gameClosed]

/-- The written form of a phase. -/
def name : Phase → String
  | started => "Started"
  | initialized => "Initialized"
  | prepared => "Prepared"
  | anteRequested => "AnteRequested"
  | antePaid => "AntePaid"
  | blindsRequested => "BlindsRequested"
  | blindsPaid => "BlindsPaid"
  | readyRequested => "ReadyRequested"
  | readiness => "Readiness"
  | entered .preflop => "PreflopRoundEntered"
  | entered .flop => "FlopRoundEntered"
  | entered .turn => "TurnRoundEntered"
  | entered .river => "RiverRoundEntered"
  | roundInitialized => "RoundInitialized"
  | roundPrepared => "RoundPrepared"
  | roundStarted => "RoundStarted"
  | roundClosed => "RoundClosed"
  | gameCompleted => "GameCompleted"
  | settlementRequested => "SettlementRequested"
  | settlementCompleted => "SettlementCompleted"
  | gameClosed => "GameClosed"

def ofName? (s : String) : Option Phase := all.find? fun p => p.name == s

/-- What is said of a text that names no phase. -/
def unknownMessage (s : String) : String := s!"unknown event {Text.Quoted.quote s}"

/-- Whether the hand rests at this phase until somebody calls for the next step. -/
def isResting : Phase → Bool
  | readyRequested | anteRequested | blindsRequested | roundStarted | roundClosed
  | gameClosed => true
  | _ => false

theorem mem_all (p : Phase) : p ∈ all := by
  cases p with
  | entered s => cases s <;> decide
  | _ => decide

end Phase

/-- The reason for which a gate waits: the players' readiness or one kind of forced payment. -/
inductive Due where
  | ready | ante | dealerBlind | smallBlind | bigBlind
  deriving DecidableEq

namespace Due

def all : List Due := [ready, ante, dealerBlind, smallBlind, bigBlind]

/-- The written form of a due. -/
def name : Due → String
  | ready => "ready"
  | ante => "ante"
  | dealerBlind => "dealer_blind"
  | smallBlind => "small_blind"
  | bigBlind => "big_blind"

def ofName? (s : String) : Option Due := all.find? fun d => d.name == s

end Due

end PokerHand
