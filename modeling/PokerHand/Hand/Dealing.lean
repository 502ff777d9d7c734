import PokerHand.Hand.State
import PokerHand.Ranking.Selection

/-!
# Dealing cards and refreshing what hangs on them

Cards are drawn from the deck one at a time, in order. Hole cards go round the table, from the seat
after the dealer; board cards come after the burned ones.
-/
namespace PokerHand.Hand

/-- Draws the next card. When the deck has come to its end the missing card is named. -/
def draw (h : Hand) : Except Fault (Card × Hand) :=
  match h.terms.deck[h.dealt]? with
  | some card => .ok (card, { h with dealt := h.dealt + 1 })
  | none => .error (.tooFewCards (h.dealt + 1) h.terms.deck.length)

/-- Draws a card for the seat at each of `places` in turn. -/
def dealAround : List Nat → Hand → Except Fault Hand
  | [], h => .ok h
  | place :: rest, h => do
      let (card, h) ← h.draw
      let h ← h.modifySeat place fun s => { s with hole := s.hole ++ [card] }
      dealAround rest h

/-- The places at a table of `count` in the order of the deal, from the one after the dealer round
to the dealer. -/
def dealOrder (count dealer : Nat) : List Nat :=
  (List.range count).map fun k => (dealer + (k + 1)) % count

/-- Deals every seat a card, and that so many times. -/
def dealRounds (dealer : Nat) : Nat → Hand → Except Fault Hand
  | 0, h => .ok h
  | n + 1, h => do
      let h ← dealAround (dealOrder h.seats.length dealer) h
      dealRounds dealer n h

/-- Deals every seat its hole cards. -/
def dealHole (h : Hand) : Except Fault Hand := do
  let dealer ← h.dealerSeat
  dealRounds dealer h.terms.holeCount h

/-- Draws so many cards and puts away each as it comes. -/
def drawEach (put : Card → Hand → Hand) : Nat → Hand → Except Fault Hand
  | 0, h => .ok h
  | n + 1, h => do
      let (card, h) ← h.draw
      drawEach put n (put card h)

def burn (card : Card) (h : Hand) : Hand := { h with burned := h.burned ++ [card] }

def turnUp (card : Card) (h : Hand) : Hand := { h with board := h.board ++ [card] }

/-- Burns and then deals the board cards of a street. -/
def dealBoard (h : Hand) (street : Street) : Except Fault Hand := do
  let h ← drawEach burn h.terms.burnCount h
  drawEach turnUp street.boardCards h

/-- What the seat can show now; a folded seat shows nothing. -/
def madeBy (h : Hand) (s : Seat) : Option MadeHand :=
  if s.folded then none
  else some (MadeHand.best s.hole h.board h.terms.requiredHole h.terms.order)

/-- Scores every seat's hand afresh. -/
def refreshMade (h : Hand) : Hand := h.mapSeats fun s => { s with made := h.madeBy s }

/-- What the seats have in the pot. -/
def contributions (h : Hand) : Contributions :=
  h.seats.foldl (fun c s => c.contribute s.number s.pot s.folded) .empty

variable [Counting]

/-- Splits the chips in the pot into layers afresh. -/
def refreshPots (h : Hand) : Hand := { h with pots := h.contributions.pots }

/-- The seats as the payout sees them. -/
def entrants (h : Hand) : List Entrant :=
  h.seats.map fun s => ⟨s.number, s.bankroll, s.committed, s.made.map MadeHand.power⟩

end PokerHand.Hand
