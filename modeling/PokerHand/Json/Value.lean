/-!
# JSON values

An object keeps its fields in the order in which they are written. Numbers with a decimal point
are kept apart from integers, since a count is never written with one.
-/
namespace PokerHand

inductive Json where
  | null
  | bool (b : Bool)
  | int (n : Int)
  /-- The number `digits` over ten to the power `places`. -/
  | decimal (digits : Int) (places : Nat)
  | str (s : String)
  | arr (items : List Json)
  | obj (fields : List (String × Json))

instance : Inhabited Json := ⟨.null⟩

namespace Json

/-- A field of an object. -/
def field? : Json → String → Option Json
  | obj fields, name => fields.lookup name
  | _, _ => none

/-- An optional value; `null` when there is none. -/
def ofOption {α : Type} (f : α → Json) : Option α → Json
  | none => null
  | some a => f a

/-- The values of a list. -/
def ofList {α : Type} (f : α → Json) (xs : List α) : Json := arr (xs.map f)

def nat (n : Nat) : Json := int n

end Json

end PokerHand
