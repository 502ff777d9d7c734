import PokerHand.Fault

/-!
# What a call leaves in the trace

While a call runs it notes what happens: phases entered, actions applied, tasks completed, pots
paid, and at last its refusal. `Traced α` is a computation that may be refused and keeps its notes
either way.
-/
namespace PokerHand

inductive Note where
  /-- A phase was entered; the street is the one before any change that the phase makes. -/
  | entered (phase : Phase) (street : Option Street)
  | applied (seat : Nat) (action : Action) (value : Int)
  | completed (due : Due)
  | paid (level total : Int) (winners : List Nat)
  | refused (fault : Fault)
  deriving DecidableEq

/-- How much a note matters. -/
inductive Weight where
  | trace | debug | info
  deriving DecidableEq

def Weight.name : Weight → String
  | trace => "TRACE"
  | debug => "DEBUG"
  | info => "INFO"

namespace Note

def weight : Note → Weight
  | completed _ => .trace
  | paid _ _ _ => .info
  | _ => .debug

def message : Note → String
  | entered _ _ => "transition"
  | applied _ _ _ => "action applied"
  | completed _ => "task completed"
  | paid _ _ _ => "pot settled"
  | refused _ => "call rejected, state restored"

/-- The written form of a street that may be missing. -/
def streetText : Option Street → String
  | none => "None"
  | some s => s!"Some({s.title})"

/-- The details of a note by name. -/
def fields : Note → List (String × String)
  | entered phase street => [("event", phase.name), ("round", streetText street)]
  | applied seat action value =>
      [("seat", toString seat), ("action", action.name), ("value", toString value)]
  | completed due => [("task", Text.Quoted.quote due.name)]
  | paid level total winners =>
      [("level", toString level), ("total", toString total),
       ("winners", "[" ++ ", ".intercalate (winners.map toString) ++ "]")]
  | refused fault => [("error", fault.message)]

end Note

/-- A result that may be refused, with the notes made on the way. -/
structure Traced (α : Type) where
  notes : List Note
  outcome : Except Fault α

namespace Traced

variable {α β : Type}

protected def pure (a : α) : Traced α := ⟨[], .ok a⟩

protected def bind (x : Traced α) (f : α → Traced β) : Traced β :=
  match x.outcome with
  | .error fault => ⟨x.notes, .error fault⟩
  | .ok a => ⟨x.notes ++ (f a).notes, (f a).outcome⟩

instance : Monad Traced where
  pure := Traced.pure
  bind := Traced.bind

/-- A refusal without notes. -/
def refuse (fault : Fault) : Traced α := ⟨[], .error fault⟩

/-- A result without notes. -/
def ofExcept (x : Except Fault α) : Traced α := ⟨[], x⟩

instance : MonadLift (Except Fault) Traced := ⟨ofExcept⟩

/-- Makes one note. -/
def note (n : Note) : Traced Unit := ⟨[n], .ok ()⟩

/-- Makes several notes. -/
def noteAll (ns : List Note) : Traced Unit := ⟨ns, .ok ()⟩

@[simp] theorem outcome_pure (a : α) : (pure a : Traced α).outcome = .ok a := rfl

@[simp] theorem outcome_bind (x : Traced α) (f : α → Traced β) :
    (x >>= f).outcome = x.outcome >>= fun a => (f a).outcome := by
  show (Traced.bind x f).outcome = _
  unfold Traced.bind
  cases x.outcome <;> rfl

@[simp] theorem outcome_refuse (fault : Fault) :
    (refuse fault : Traced α).outcome = .error fault := rfl

@[simp] theorem outcome_note (n : Note) : (note n).outcome = .ok () := rfl

@[simp] theorem outcome_noteAll (ns : List Note) : (noteAll ns).outcome = .ok () := rfl

end Traced

end PokerHand
