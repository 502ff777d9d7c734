import PokerHand.Proofs.Launch
import PokerHand.Proofs.Offered
import PokerHand.Proofs.Tally

/-!
# What a call on a hand in order comes to

`Launched` is what every call that is not refused makes of a hand in order, before any phase is
entered: the hand stays where it rests with less left to happen there, or goes on with a phase that
may follow. It is the one description of a step on which whole runs rest.
-/
namespace PokerHand

/-- What a hand that rests at a phase with `street` open may enter next. -/
def Phase.exits (street : Option Street) : Phase → List Phase
  | started => [started]
  | readyRequested => [readiness]
  | anteRequested => [antePaid]
  | blindsRequested => [blindsPaid]
  | roundStarted => [roundClosed]
  | roundClosed => (street.bind Street.next?).toList.map entered
  | _ => []

namespace Hand

variable [Counting] {setup : Setup} {h : Hand} {s : Seat} {a : Action}

/-- What a call makes of the hand `h` before the first phase. -/
structure Launched (setup : Setup) (h : Hand) (r : Hand × Option Phase) : Prop where
  carries : Carries (Entering setup) (Resting setup) r
  street : r.1.street = h.street
  goes : ∀ phase, r.2 = some phase → phase ∈ h.phase.exits h.street
  stays : r.2 = none → r.1.phase = h.phase ∧ ([setup.Counted] → r.1.tally < h.tally)

theorem launched_goes {g : Hand} {phase : Phase} (he : { g with phase := phase }.Entering setup)
    (hstreet : g.street = h.street) (hexit : phase ∈ h.phase.exits h.street) :
    h.Launched setup (g, some phase) where
  carries := he
  street := hstreet
  goes := fun _ hsome => Option.some.inj hsome ▸ hexit
  stays := nofun

theorem launched_stays {g : Hand} (hr : g.Resting setup) (hphase : g.phase = h.phase)
    (hstreet : g.street = h.street) (hlt : [setup.Counted] → g.tally < h.tally) :
    h.Launched setup (g, none) where
  carries := hr
  street := hstreet
  goes := nofun
  stays := fun _ => ⟨hphase, hlt⟩

/-- What comes of the hand once it has stayed where it rests. -/
theorem Launched.trans {g : Hand} {r : Hand × Option Phase} (hfirst : h.Launched setup (g, none))
    (hrest : g.Launched setup r) : h.Launched setup r := by
  have hphase := (hfirst.stays rfl).1
  have hlt : [setup.Counted] → g.tally < h.tally := (hfirst.stays rfl).2
  have hstreet : g.street = h.street := hfirst.street
  refine ⟨hrest.carries, hrest.street.trans hstreet, ?_, fun hnone => ?_⟩
  · rw [← hphase, ← hstreet]
    exact hrest.goes
  · refine ⟨(hrest.stays hnone).1.trans hphase, ?_⟩
    intro _
    exact lt_trans (hrest.stays hnone).2 hlt

/-- A seat that is offered an action can be called on for it. -/
theorem Resting.allowedSeat_eq_ok (hr : h.Resting setup) (hs : s ∈ h.seats)
    (hmay : s.mayDo a = true) : h.allowedSeat s.number a = .ok s := by
  have hopen : h.isClosed = false := by
    refine Bool.eq_false_iff.2 fun hclosed => ?_
    have hp : h.phase = .gameClosed := by simpa [isClosed] using hclosed
    rw [Resting, hp] at hr
    simp [Seat.mayDo, hr.2 s hs] at hmay
  have hfind : h.seatAt s.number = .ok s := by
    rw [seatAt, hr.table.numbered.getElem?_number hs]
  simp [allowedSeat, hopen, hfind, hmay]

/-- A call on a seat that is not offered the action is refused mildly. -/
theorem Resting.offered_or_mild (hr : h.Resting setup) (place : Nat) (a : Action) :
    (∃ s ∈ h.seats, s.number = place ∧ s.mayDo a = true) ∨
      ∃ fault : Fault, h.allowedSeat place a = .error fault ∧ fault.IsMild := by
  have hfair := allowedSeat_fair h place a
  cases hallowed : h.allowedSeat place a with
  | error fault => exact .inr ⟨fault, rfl, by rwa [hallowed] at hfair⟩
  | ok s =>
      rw [hallowed] at hfair
      obtain ⟨hfind, hmay⟩ := hfair
      exact .inl ⟨s, List.mem_of_getElem? hfind, hr.table.numbered.number_of_getElem? hfind, hmay⟩

end Hand

end PokerHand
