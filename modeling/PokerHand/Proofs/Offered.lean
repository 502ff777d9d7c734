import PokerHand.Hand.Guard
import PokerHand.Proofs.Betting.Moves
import PokerHand.Proofs.Stage

/-!
# Where an action can be offered

A seat is offered what satisfies a task only at a gate, and a move only at its turn. A call for an
action that is not offered is refused mildly.
-/
namespace PokerHand

namespace Hand

variable {setup : Setup} {h : Hand} {s : Seat} {a : Action}

theorem expectPhase_fair (h : Hand) (expected : Phase) :
    Outcome.Fair (fun _ => h.phase = expected) (h.expectPhase expected) := by
  unfold expectPhase
  split
  · assumption
  · split
    · exact .inr rfl
    · exact .inr rfl

theorem allowedSeat_fair (h : Hand) (place : Nat) (action : Action) :
    Outcome.Fair (fun s => h.seats[place]? = some s ∧ s.mayDo action = true)
      (h.allowedSeat place action) := by
  unfold allowedSeat seatAt
  cases h.isClosed with
  | true => exact .inr rfl
  | false =>
      cases hs : h.seats[place]? with
      | none => exact .inl rfl
      | some s =>
          by_cases hmay : s.mayDo action = true
          · simp [hmay]
          · simp [hmay, Fault.IsMild, Fault.severity]

theorem offered_of_allowedSeat {place : Nat} (hallowed : h.allowedSeat place a = .ok s) :
    h.seats[place]? = some s ∧ s.mayDo a = true := by
  have hfair := allowedSeat_fair h place a
  rwa [hallowed] at hfair

variable [Counting]

/-- A gate or a turn is where the hand rests when somebody is offered something. -/
theorem Resting.atGate_or_atTurn (hr : h.Resting setup) (hs : s ∈ h.seats)
    (hmay : s.mayDo a = true) : h.AtGate setup ∨ h.phase = .roundStarted ∧ h.AtTurn setup := by
  have hoffered : s.allowed ≠ [] := by
    intro hnil
    simp [Seat.mayDo, hnil] at hmay
  unfold Resting at hr
  split at hr
  · exact absurd (hr.2 s hs) hoffered
  · exact .inl hr
  · exact .inl hr
  · exact .inl hr
  · next hp => exact .inr ⟨hp, hr⟩
  · exact absurd (hr.2 s hs) hoffered
  · exact absurd (hr.2 s hs) hoffered
  · exact hr.elim

theorem AtTurn.eq_turn (ht : h.AtTurn setup) (hs : s ∈ h.seats) (hmay : s.mayDo a = true) :
    s.number = h.turn ∧ a ∈ h.stakes.offers s := by
  have hallowed := ht.offers s hs
  by_cases hturn : s.number = h.turn
  · rw [if_pos hturn] at hallowed
    exact ⟨hturn, by simpa [Seat.mayDo, hallowed] using hmay⟩
  · rw [if_neg hturn] at hallowed
    simp [Seat.mayDo, hallowed] at hmay

/-- A task is satisfied at a gate. -/
theorem Resting.atGate (hr : h.Resting setup) (hs : s ∈ h.seats) (hmay : s.mayDo a = true)
    (ha : a = .ready ∨ a = .pay ∨ a = .pass) : h.AtGate setup := by
  rcases hr.atGate_or_atTurn hs hmay with hg | ⟨-, ht⟩
  · exact hg
  · obtain ⟨hturn, hoffer⟩ := ht.eq_turn hs hmay
    have hgrant := (Stakes.mem_offers_iff (ht.movable s hs hturn)).1 hoffer
    rcases ha with rfl | rfl | rfl <;> exact False.elim hgrant

theorem Resting.table (hr : h.Resting setup) : Table setup h := by
  unfold Resting at hr
  split at hr
  · exact hr.1.table
  · exact hr.gated.collecting.table
  · exact hr.gated.collecting.table
  · exact hr.gated.collecting.table
  · exact hr.inRound.table
  · obtain ⟨⟨street, -, hb⟩, -⟩ := hr
    exact hb.onStreet.scene.table
  · exact hr.1.table
  · exact hr.elim

end Hand

end PokerHand
