import PokerHand.Hand.Flow
import PokerHand.Hand.Guard

/-!
# Moves in a betting round

`apply` moves the chips of a legal move, takes account of what it does to the wager to match and
passes the turn on. A bet or a full raise makes every other seat act again; an all-in by less than
the last raise does not.
-/
namespace PokerHand.Hand

open Counting

variable [Counting]

/-- The wager of the seat at a place. -/
def wagerAt (h : Hand) (place : Nat) : Int := (h.seats[place]?.map Seat.wager).getD 0

/-- Everyone else who can still act has to act again. -/
def reopen (h : Hand) (seat : Nat) : Hand :=
  h.mapSeats fun s => if s.number != seat && s.isMovable then { s with acted := false } else s

/-- Makes the wager at a place the one to match, as a full bet or raise. -/
def raiseTo (h : Hand) (place : Nat) : Hand :=
  let level := h.wagerAt place
  { h.reopen place with raiseSize := fit (level - h.wager), wager := level, raiser := place }

/-- Takes account of an all-in: it is a full raise, a short one that does not reopen the betting,
or no raise at all. -/
def afterAllin (h : Hand) (place : Nat) : Hand :=
  let increment := fit (h.wagerAt place - h.wager)
  if increment ≤ 0 then h
  else if increment ≥ h.raiseSize then h.raiseTo place
  else { h with wager := h.wagerAt place }

/-- Moves the chips of a move and takes account of them. -/
def moveChips (h : Hand) (place : Nat) (move : Move) : Except Fault Hand := do
  match move with
  | .fold => h.modifySeat place fun s => { s with folded := true }
  | .check => return h
  | .call chips => h.modifySeat place fun s => s.putIn chips
  | .bet chips | .raise chips =>
      let h ← h.modifySeat place fun s => s.putIn chips
      return h.raiseTo place
  | .allin chips =>
      let h ← h.modifySeat place fun s => s.putIn chips
      return h.afterAllin place

/-- Applies a legal move and passes the turn on. A raise is noted with the wager that it reached,
other moves with their chips. -/
def apply (h : Hand) (place : Nat) (move : Move) : Traced Hand := do
  let h ← h.moveChips place move
  let h ← h.modifySeat place fun s => { s with acted := true }
  let value := match move with
    | .raise _ => h.wagerAt place
    | move => move.chips
  let h ← h.record place move.action value
  passTurn h place

end PokerHand.Hand
