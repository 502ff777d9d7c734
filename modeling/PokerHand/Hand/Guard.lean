import PokerHand.Hand.Note
import PokerHand.Hand.State

/-!
# What every call does

A call is refused unless the hand rests at the right phase or the seat is offered the action; an
applied action is noted and becomes the last one of its seat and of the hand. Seats are named by
their place.
-/
namespace PokerHand.Hand

/-- Refuses unless the hand rests at `expected`. -/
def expectPhase (h : Hand) (expected : Phase) : Except Fault Unit :=
  if h.phase = expected then .ok ()
  else if h.isClosed then .error .handClosed
  else .error (.wrongPhase expected h.phase)

/-- The seat at a place, refused unless it is offered `action`. -/
def allowedSeat (h : Hand) (place : Nat) (action : Action) : Except Fault Seat := do
  if h.isClosed then throw .handClosed
  let s ← h.seatAt place
  if s.mayDo action then return s else throw (.notAllowed place action)

/-- Notes an applied action. -/
def record (h : Hand) (place : Nat) (action : Action) (value : Int) : Traced Hand := do
  Traced.note (.applied place action value)
  let h ← h.modifySeat place fun s => { s with did := some action }
  return { h with last := some ⟨place, action, value⟩ }

end PokerHand.Hand
