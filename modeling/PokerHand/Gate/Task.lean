import PokerHand.Fault
import PokerHand.SeatMap

/-!
# Tasks that hold a gate shut

A task names a condition over some seats: each of them says that it is ready, or each pays what it
owes. A seat that has nothing to give is waived. A task is satisfied once every participant is,
and completes when its turn in the queue comes.
-/
namespace PokerHand

/-- What the participants have done so far. -/
inductive Progress where
  | ready (flags : SeatMap Bool)
  | pay (paid : SeatMap Int)
  deriving DecidableEq

structure Task where
  due : Due
  progress : Progress
  /-- The chips that each participant owes; empty when readiness is asked. -/
  owed : SeatMap Int
  completed : Bool
  deriving DecidableEq

namespace Task

/-- Waits until every one of `seats` is ready. -/
def forReadiness (seats : List Nat) : Task :=
  ⟨.ready, .ready (SeatMap.ofList (seats.map fun s => (s, false))), .empty, false⟩

/-- Waits until every seat of `owed` has paid. -/
def forPayment (due : Due) (owed : SeatMap Int) : Task := ⟨due, .pay .empty, owed, false⟩

/-- The seats that the task asks. -/
def participants (t : Task) : List Nat :=
  match t.progress with
  | .ready flags => flags.seats
  | .pay _ => t.owed.seats

def isParticipant (t : Task) (seat : Nat) : Bool :=
  match t.progress with
  | .ready flags => flags.contains seat
  | .pay _ => t.owed.contains seat

/-- Whether `seat` owes the task nothing more. -/
def isSatisfiedBy (t : Task) (seat : Nat) : Bool :=
  match t.progress with
  | .ready flags => (flags.find? seat).getD true
  | .pay paid => !t.owed.contains seat || paid.contains seat

def isSatisfied (t : Task) : Bool := t.participants.all t.isSatisfiedBy

def isPayment (t : Task) : Bool :=
  match t.progress with
  | .ready _ => false
  | .pay _ => true

def owedBy (t : Task) (seat : Nat) : Option Int := t.owed.find? seat

/-- Whether the task still waits for `seat`. -/
def awaits (t : Task) (seat : Nat) : Bool :=
  !t.completed && t.isParticipant seat && !t.isSatisfiedBy seat

/-- Notes that `seat` is ready. -/
def markReady (t : Task) (seat : Nat) : Except Fault Task :=
  match t.progress with
  | .ready flags =>
      if flags.contains seat then .ok { t with progress := .ready (flags.insert seat true) }
      else .error (.unknownSeat seat)
  | .pay _ => .error (.noSuchTask (.wrongKind t.due))

/-- Notes a payment, which must be what the seat owes. -/
def recordPayment (t : Task) (seat : Nat) (chips : Int) : Except Fault Task :=
  match t.owedBy seat with
  | none => .error (.unknownSeat seat)
  | some expected =>
      match t.progress with
      | .ready _ => .error (.noSuchTask (.wrongKind t.due))
      | .pay paid =>
          if chips = expected then .ok { t with progress := .pay (paid.insert seat chips) }
          else .error (.badPayment expected chips)

/-- Satisfies the entry of `seat` without chips. A payment already made stays. -/
def waive (t : Task) (seat : Nat) : Task :=
  match t.progress with
  | .ready flags =>
      if flags.contains seat then { t with progress := .ready (flags.insert seat true) } else t
  | .pay paid =>
      if t.owed.contains seat && !paid.contains seat then
        { t with progress := .pay (paid.insert seat 0) }
      else t

/-- Completes the task if it is satisfied; says whether it completed just now. -/
def complete (t : Task) : Task × Bool :=
  if !t.completed && t.isSatisfied then ({ t with completed := true }, true) else (t, false)

end Task

end PokerHand
