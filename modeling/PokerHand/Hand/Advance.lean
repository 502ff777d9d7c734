import PokerHand.Hand.Call

/-!
# Going on to the next decision

`advance` clears the gates and enters the rounds at which no player has anything to decide.
-/
namespace PokerHand.Hand

variable [Counting]

/-- The call that takes a hand past a phase at which no player has to decide anything. -/
def advancing? : Phase → Option Call
  | .readyRequested => some .readyAll
  | .anteRequested => some .payAntes
  | .blindsRequested => some .payBlinds
  | .roundClosed => some .next
  | _ => none

/-- Takes a hand to where a player has to act or the hand is over, in at most `n` calls. -/
def advanceWithin (now : Int) : Nat → Hand → Except Fault Hand
  | 0, h => .error (.inconsistent (.restsBetween h.phase))
  | n + 1, h =>
      match advancing? h.phase with
      | some call => do
          let h ← (h.perform now call).outcome
          advanceWithin now n h
      | none =>
          if h.phase.isResting then .ok h else .error (.inconsistent (.restsBetween h.phase))

/-- Takes a hand to where a player has to act or the hand is over. A hand has at most two gates
of readiness, one for antes, one for blinds, and three closed rounds before the last. -/
def advance (h : Hand) (now : Int) : Except Fault Hand := advanceWithin now 8 h

end PokerHand.Hand
