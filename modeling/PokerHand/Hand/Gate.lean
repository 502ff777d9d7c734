import PokerHand.Hand.Flow
import PokerHand.Hand.Guard

/-!
# Calls at a gate

At a gate each seat says that it is ready, pays what it owes, or passes because it has nothing to
give. Once the queue of tasks drains the hand moves on. `clearGate` does all of it on behalf of the
seats.
-/
namespace PokerHand.Hand

variable [Counting]

/-- The first task that waits for `seat`, with its place in the queue. -/
def taskFor (h : Hand) (seat : Nat) : Except Fault (Nat × Task) :=
  match Queue.firstFor? h.tasks seat with
  | none => .error (.noSuchTask (.nothingPending seat))
  | some i =>
      match h.tasks[i]? with
      | none => .error (.noSuchTask (.nothingPending seat))
      | some t => .ok (i, t)

/-- Leaves a gate whose queue has drained. -/
def leaveGate (h : Hand) : Traced Hand :=
  let h := { h with tasks := [] }
  match h.phase with
  | .readyRequested => acceptReadiness h
  | .anteRequested => acceptAntes h
  | .blindsRequested => acceptBlinds h
  | phase => .refuse (.noSuchTask (.noGate phase))

/-- Completes what it can of the queue and leaves the gate once it drains; says whether it did. -/
def runGate (h : Hand) : Traced (Hand × Bool) := do
  let r := Queue.run h.tasks
  Traced.noteAll (r.finished.map .completed)
  let h := { h with tasks := r.tasks }
  if r.drained then
    let h ← h.leaveGate
    return (h, true)
  else return (h.refreshGate, false)

/-- Moves the chips of a payment to where they belong: antes to the pot, blinds to the wager. -/
def takePayment (h : Hand) (place : Nat) (due : Due) (chips : Int) : Except Fault Hand :=
  h.modifySeat place fun s => if due = .ante then s.putInPot chips else s.putIn chips

/-- Puts a changed task back in its place. -/
def setTask (h : Hand) (i : Nat) (t : Task) : Hand := { h with tasks := h.tasks.set i t }

def ready (h : Hand) (place : Nat) : Traced Hand := do
  let _ ← h.allowedSeat place .ready
  let (i, t) ← h.taskFor place
  let t ← t.markReady place
  let h ← (h.setTask i t).record place .ready 0
  let (h, _) ← h.runGate
  return h

def pay (h : Hand) (place : Nat) (chips : Int) : Traced Hand := do
  let _ ← h.allowedSeat place .pay
  let (i, t) ← h.taskFor place
  let t ← t.recordPayment place chips
  if t.due = .ready then Traced.refuse (.noSuchTask (.wrongKind t.due))
  else
    let h ← (h.setTask i t).takePayment place t.due chips
    let h ← h.record place .pay chips
    let (h, _) ← h.runGate
    return h

def pass (h : Hand) (place : Nat) : Traced Hand := do
  let _ ← h.allowedSeat place .pass
  let (i, t) ← h.taskFor place
  let h ← (h.setTask i (t.waive place)).record place .pass 0
  let (h, _) ← h.runGate
  return h

/-- Satisfies the first entry of the first seat that the gate still waits for. -/
def clearEntry (h : Hand) (phase : Phase) : Traced Hand := do
  match h.actionable with
  | [] => Traced.refuse (.inconsistent (.nobodyToClear phase))
  | seat :: _ =>
      let (i, t) ← h.taskFor seat
      let s ← h.ownSeat seat
      if s.mayDo .pass then (h.setTask i (t.waive seat)).record seat .pass 0
      else if s.mayDo .ready then
        let t ← t.markReady seat
        (h.setTask i t).record seat .ready 0
      else
        match t.owedBy seat with
        | none => Traced.refuse (.unknownSeat seat)
        | some chips =>
            let t ← t.recordPayment seat chips
            let h ← (h.setTask i t).takePayment seat t.due chips
            h.record seat .pay chips

/-- Satisfies entry after entry until the queue drains, at most `n` of them. -/
def clearEntries : Nat → Phase → Hand → Traced Hand
  | 0, phase, _ => .refuse (.inconsistent (.nobodyToClear phase))
  | n + 1, phase, h => do
      let h ← h.clearEntry phase
      let (h, drained) ← h.runGate
      if drained then return h else clearEntries n phase h

/-- Satisfies the whole gate on behalf of its seats. Every step satisfies one open entry, so the
bound on the steps is never reached before the queue drains or nobody is left to act. -/
def clearGate (h : Hand) (phase : Phase) : Traced Hand := do
  h.expectPhase phase
  clearEntries (Queue.openEntries h.tasks + 1) phase h

end PokerHand.Hand
