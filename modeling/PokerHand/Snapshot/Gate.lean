import PokerHand.Gate.Task
import PokerHand.Json.Decode

/-!
# Tasks as JSON

A map from seats is an object whose keys are the seats in decimal digits, without leading zeros.
-/
namespace PokerHand

namespace SeatMap

variable {α : Type}

/-- The key of a seat. -/
def key (seat : Nat) : String := toString seat

/-- The seat of a key. -/
def ofKey? (key : String) : Option Nat := do
  let digits := key.toList
  if digits.head? = some '0' ∧ digits ≠ ['0'] then none
  let seat ← Text.Numeral.nat? digits
  if seat < Text.Numeral.countBound then return seat else none

def toJson (f : α → Json) (m : SeatMap α) : Json :=
  .obj (m.entries.map fun e => (key e.1, f e.2))

def ofJson? (f : Json → Option α) : Json → Option (SeatMap α)
  | .obj fields => do
      let entries ← fields.mapM fun e => do
        let seat ← ofKey? e.1
        let value ← f e.2
        return (seat, value)
      return ofList entries
  | _ => none

end SeatMap

def Due.toJson (d : Due) : Json := .str d.name

def Due.ofJson? (j : Json) : Option Due := j.name?.bind Due.ofName?

def Progress.toJson : Progress → Json
  | ready flags => .obj [("ready", flags.toJson .bool)]
  | pay paid => .obj [("pay", paid.toJson .int)]

def Progress.ofJson? : Json → Option Progress
  | .obj [("ready", flags)] => (SeatMap.ofJson? Json.bool? flags).map ready
  | .obj [("pay", paid)] => (SeatMap.ofJson? Json.amount? paid).map pay
  | _ => none

def Task.toJson (t : Task) : Json :=
  .obj [("name", t.due.toJson), ("payload", t.progress.toJson), ("owed", t.owed.toJson .int),
    ("completed", .bool t.completed)]

def Task.ofJson? (j : Json) : Option Task := do
  match ← j.columns ["name", "payload", "owed", "completed"] 0 with
  | [due, progress, owed, completed] =>
      return {
        due := ← Json.need Due.ofJson? due
        progress := ← Json.need Progress.ofJson? progress
        owed := ← Json.orElse (SeatMap.ofJson? Json.amount?) .empty owed
        completed := ← Json.need Json.bool? completed }
  | _ => none

end PokerHand
