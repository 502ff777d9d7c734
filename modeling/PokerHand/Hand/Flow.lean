import PokerHand.Hand.Dealing
import PokerHand.Hand.Note

/-!
# The flow of phases

Each definition enters one phase, does what belongs to it and goes on to the next, up to a phase
at which the hand rests. They are listed from the last phase to the first, since a phase only ever
leads to phases above it in this file.
-/
namespace PokerHand.Hand

variable [Counting]

/-- Notes that the hand enters a phase. -/
def enter (phase : Phase) (h : Hand) : Traced Hand := do
  Traced.note (.entered phase h.street)
  return { h with phase := phase }

/-- Takes back everything offered. -/
def withdrawOffers (h : Hand) : Hand := h.mapSeats fun s => { s with allowed := [] }

def closeHand (h : Hand) : Traced Hand := do
  let h ← h.enter .gameClosed
  return h.withdrawOffers

def completeSettlement (h : Hand) : Traced Hand := do
  let h ← h.enter .settlementCompleted
  closeHand h

/-- The note of a paid pot. -/
def paidNote (p : PaidPot) : Note := .paid p.level p.total (p.winners.map Winner.seat)

/-- Scores the hands a last time and pays out the pots. -/
def settle (h : Hand) : Traced Hand := do
  let h ← h.enter .settlementRequested
  let h := h.refreshMade.refreshPots
  let result ← Payout.settle h.pots h.entrants
  Traced.noteAll (result.pots.map paidNote)
  completeSettlement { h with result := some result }

def complete (h : Hand) : Traced Hand := do
  let h ← h.enter .gameCompleted
  settle h

/-- The wagers of a round move into the pot. -/
def collectWagers (h : Hand) : Hand :=
  { h.mapSeats fun s => { s.collect with allowed := [] } with wager := 0 }

/-- Ends a betting round, and the hand too when nobody is left to bet against or no street
follows. -/
def closeRound (h : Hand) : Traced Hand := do
  let h ← h.enter .roundClosed
  let h := h.collectWagers.refreshPots
  if h.unfolded ≤ 1 ∨ h.street = some .river then complete h else return h

/-- Offers the seat numbered `seat` its actions and nobody else any. -/
def giveTurn (h : Hand) (seat : Nat) : Hand :=
  { h.mapSeats fun s =>
      { s with allowed := if s.number = seat then h.stakes.offers s else [] } with
    turn := seat }

/-- Gives the turn to the next seat after `start` that has something to decide, or closes the
round when no seat has. -/
def passTurn (h : Hand) (start : Nat) : Traced Hand :=
  match Turn.nextMovable h.seats start with
  | some seat =>
      if Turn.isClosed h.seats h.wager (some seat) then closeRound h else return h.giveTurn seat
  | none => closeRound h

def startRound (h : Hand) : Traced Hand := do
  let h ← h.enter .roundStarted
  passTurn { h with tasks := [] } h.raiser

def prepareRound (h : Hand) : Traced Hand := do
  let h ← h.enter .roundPrepared
  startRound h.refreshMade

/-- What a gate offers a seat: what the first task that waits for it needs. -/
def gateOffer (tasks : List Task) (s : Seat) : List Action :=
  match Queue.firstFor? tasks s.number with
  | none => []
  | some i =>
      if s.folded || s.isAllIn then [.pass]
      else
        match tasks[i]? with
        | none => []
        | some t => if t.isPayment then [.pay] else [.ready]

/-- Offers every seat what the gate waits for. -/
def refreshGate (h : Hand) : Hand :=
  h.mapSeats fun s => { s with allowed := gateOffer h.tasks s }

/-- Opens a gate that waits for `tasks`. -/
def openGate (h : Hand) (tasks : List Task) : Hand := { h with tasks := tasks }.refreshGate

/-- The chips that `amount` makes each of the chosen seats owe, as far as their stacks go. -/
def dues (h : Hand) (chosen : Seat → Bool) (amount : Int) : SeatMap Int :=
  SeatMap.ofList ((h.seats.filter chosen).map fun s => (s.number, min amount s.stack))

def requestReadiness (h : Hand) : Traced Hand := do
  let h ← h.enter .readyRequested
  return h.openGate [.forReadiness (h.seats.map Seat.number)]

/-- Once the blinds lie on the table the highest of them is the wager to match, and the betting
begins after the big blind, or after the dealer when nobody posted one. -/
def acceptBlinds (h : Hand) : Traced Hand := do
  let h ← h.enter .blindsPaid
  let dealer ← h.dealerSeat
  let poster := h.seats.find? fun s => s.holds .bigBlind && s.wager > 0
  requestReadiness { h with
    wager := ((h.seats.map Seat.wager).max?).getD 0
    raiser := (poster.map Seat.number).getD dealer }

/-- The task for a blind that a position has to post, if the blind is positive and somebody holds
the position. -/
def blindTask (h : Hand) (due : Due) (position : Position) (amount : Int) : Option Task :=
  let owed := h.dues (fun s => s.holds position) amount
  if amount ≤ 0 ∨ owed.entries.isEmpty then none else some (.forPayment due owed)

/-- The tasks for all blinds. -/
def blindTasks (h : Hand) : List Task :=
  [h.blindTask .dealerBlind .dealer h.terms.blinds.dealer,
   h.blindTask .smallBlind .smallBlind h.terms.blinds.small,
   h.blindTask .bigBlind .bigBlind h.terms.blinds.big].filterMap fun task => task

def requestBlinds (h : Hand) : Traced Hand := do
  let h ← h.enter .blindsRequested
  if h.blindTasks.isEmpty then acceptBlinds h else return h.openGate h.blindTasks

/-- Posts the big blind for its holders, as far as their stacks go. -/
def postBigBlind (h : Hand) : Hand :=
  h.mapSeats fun s =>
    if s.holds .bigBlind then s.putIn (min h.terms.blinds.big s.stack) else s

/-- Prepares the seats for a round. Before the first round the blinds are due: a lone big blind
is posted at once, other blinds are asked for. -/
def openRound (h : Hand) : Traced Hand := do
  let h ← h.enter .roundInitialized
  let dealer ← h.dealerSeat
  let h := { h.mapSeats Seat.resetRound with wager := 0, raiseSize := h.minBet, raiser := dealer }
  if h.street ≠ some .preflop then prepareRound h
  else if !h.terms.blinds.anyPositive then requestReadiness h
  else if h.terms.blinds.dealer = 0 ∧ h.terms.blinds.small = 0 then acceptBlinds h.postBigBlind
  else requestBlinds h

/-- Enters a betting round; every round but the first deals board cards. -/
def enterStreet (street : Street) (h : Hand) : Traced Hand := do
  let h ← h.enter (.entered street)
  let h := { h with street := some street }
  if street = .preflop then openRound h
  else
    let h ← h.dealBoard street
    openRound h

def acceptAntes (h : Hand) : Traced Hand := do
  let h ← h.enter .antePaid
  enterStreet .preflop h.refreshPots

def requestAntes (h : Hand) : Traced Hand := do
  let h ← h.enter .anteRequested
  return h.openGate [.forPayment .ante (h.dues (fun _ => true) h.terms.ante)]

/-- Deals the hole cards and collects the antes. -/
def prepare (h : Hand) : Traced Hand := do
  let h ← h.enter .prepared
  let h ← h.dealHole
  if h.terms.ante > 0 then requestAntes h else enterStreet .preflop h

/-- Everybody is ready: for the deal, or for the first betting round. -/
def acceptReadiness (h : Hand) : Traced Hand := do
  let h ← h.enter .readiness
  match h.street with
  | none => prepare h
  | some _ => prepareRound h

/-- Fixes the least bet and asks the players whether they are ready. -/
def setStakes (h : Hand) : Traced Hand := do
  let h ← h.enter .initialized
  let dealer ← h.dealerSeat
  let minBet := h.terms.minBet
  requestReadiness { h with minBet := minBet, raiseSize := minBet, raiser := dealer }

/-- Runs the hand from its creation to the first gate. -/
def start (h : Hand) : Traced Hand := do
  let h ← h.enter .started
  setStakes h

end PokerHand.Hand
