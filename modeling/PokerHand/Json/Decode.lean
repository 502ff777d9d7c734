import PokerHand.Json.Value
import PokerHand.Text.Numeral

/-!
# Reading typed values

A record is read from an object, where unknown fields do not matter, or from a list of its fields
in order. `columns` yields the field values in order in both cases, `none` for one that is left
out.
-/
namespace PokerHand.Json

variable {α : Type}

def bool? : Json → Option Bool
  | bool b => some b
  | _ => none

def text? : Json → Option String
  | str s => some s
  | _ => none

/-- An amount of chips or a time. -/
def amount? : Json → Option Int
  | int n => if Text.Numeral.isAmount n then some n else none
  | _ => none

/-- A natural number below `bound`. -/
def below? (bound : Nat) : Json → Option Nat
  | int n => if 0 ≤ n ∧ n < bound then some n.toNat else none
  | _ => none

/-- A seat or a count. -/
def count? : Json → Option Nat := below? Text.Numeral.countBound

/-- Every item of a list. -/
def list? (f : Json → Option α) : Json → Option (List α)
  | arr items => items.mapM f
  | _ => none

/-- A value that may be `null`. -/
def nullable? (f : Json → Option α) : Json → Option (Option α)
  | null => some none
  | j => (f j).map some

/-- The name of a plain alternative: the name itself, or an object that maps it to `null`. -/
def name? : Json → Option String
  | str s => some s
  | obj [(s, null)] => some s
  | _ => none

/-- The values of the named fields, in order. A list may leave out up to `spare` fields at its
end. -/
def columns (names : List String) (spare : Nat) : Json → Option (List (Option Json))
  | obj fields => some (names.map fun n => fields.lookup n)
  | arr items =>
      if items.length ≤ names.length ∧ names.length ≤ items.length + spare then
        some (items.map some ++ List.replicate (names.length - items.length) none)
      else none
  | _ => none

/-- A field that has to be there. -/
def need (f : Json → Option α) (j : Option Json) : Option α := j.bind f

/-- A field that may be left out or `null`. -/
def may (f : Json → Option α) (j : Option Json) : Option (Option α) :=
  match j with
  | none => some none
  | some j => nullable? f j

/-- A field with a value for when it is left out. -/
def orElse (f : Json → Option α) (value : α) (j : Option Json) : Option α :=
  match j with
  | none => some value
  | some j => f j

end PokerHand.Json
