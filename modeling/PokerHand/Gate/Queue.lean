import PokerHand.Gate.Task

/-!
# The queue of tasks

Tasks complete in the order in which they were registered: a satisfied task waits for the tasks in
front of it. `run` completes what it can, from the front.
-/
namespace PokerHand.Queue

/-- What running the queue did. -/
structure Run where
  tasks : List Task
  /-- The tasks that completed now, in order. -/
  finished : List Due
  /-- Whether every task has completed. -/
  drained : Bool

/-- Completes tasks from the front up to the first that still waits. -/
def run : List Task → Run
  | [] => ⟨[], [], true⟩
  | t :: rest =>
      if t.completed then
        let r := run rest
        { r with tasks := t :: r.tasks }
      else if t.isSatisfied then
        let r := run rest
        { r with tasks := { t with completed := true } :: r.tasks, finished := t.due :: r.finished }
      else ⟨t :: rest, [], false⟩

/-- The first task that has not completed. -/
def pending? (tasks : List Task) : Option Task := tasks.find? fun t => !t.completed

/-- The place of the first task that still waits for `seat`. -/
def firstFor? (tasks : List Task) (seat : Nat) : Option Nat :=
  tasks.findIdx? fun t => t.awaits seat

def isComplete (tasks : List Task) : Bool := tasks.all fun t => t.completed

/-- How many entries of waiting tasks are still unsatisfied. -/
def openEntries : List Task → Nat
  | [] => 0
  | t :: rest => t.participants.countP t.awaits + openEntries rest

end PokerHand.Queue
