import PokerHand.LogFilter.Pattern
import PokerHand.Text.Floating

/-!
# Fields of a log filter

A directive may ask for a field by its name, with or without a value. A value is a truth value, a
number, or else a pattern for the field's text.
-/
namespace PokerHand.LogFilter

/-- What the value of a field is matched with. -/
inductive FieldValue where
  | truth (b : Bool)
  | real (x : Text.Floating)
  /-- What is no number though it is counted as one. -/
  | undefined
  | count (n : Nat)
  | amount (n : Int)
  | pattern (text : List Char)
  deriving DecidableEq

/-- The order of two lists by the first place where they differ. -/
def orderLists {α : Type} (order : α → α → Ordering) : List α → List α → Ordering
  | [], [] => .eq
  | [], _ :: _ => .lt
  | _ :: _, [] => .gt
  | a :: as, b :: bs => (order a b).then (orderLists order as bs)

/-- The order of texts by code points. -/
def orderTexts : List Char → List Char → Ordering :=
  orderLists fun a b => compare a.toNat b.toNat

/-- The order in which what may be missing comes first. -/
def orderOptions {α : Type} (order : α → α → Ordering) : Option α → Option α → Ordering
  | none, none => .eq
  | none, some _ => .lt
  | some _, none => .gt
  | some a, some b => order a b

namespace FieldValue

/-- Reads a value; what is neither a truth value nor a number has to be a pattern. -/
def ofText? (cs : List Char) : Option FieldValue :=
  if cs = "true".toList then some (.truth true)
  else if cs = "false".toList then some (.truth false)
  else
    match Text.Numeral.count? cs, Text.Numeral.amount? cs, Text.Floating.ofText? cs with
    | some n, _, _ => some (.count n)
    | none, some n, _ => some (.amount n)
    | none, none, some x => some (.real x)
    | none, none, none =>
        if Text.Floating.isNotANumber cs then some .undefined
        else if isPattern cs then some (.pattern cs)
        else none

def text : FieldValue → List Char
  | truth b => (toString b).toList
  | real x => x.text
  | undefined => "NaN".toList
  | count n => (toString n).toList
  | amount n => (toString n).toList
  | pattern cs => cs

/-- The place of a kind of value among all kinds. -/
def rank : FieldValue → Nat
  | truth _ => 0
  | real _ => 1
  | undefined => 2
  | count _ => 3
  | amount _ => 4
  | pattern _ => 5

/-- The order of values, kind by kind. -/
def order : FieldValue → FieldValue → Ordering
  | truth a, truth b => compare a.toNat b.toNat
  | real x, real y => x.order y
  | count a, count b => compare a b
  | amount a, amount b => compare a b
  | pattern a, pattern b => orderTexts a b
  | a, b => compare a.rank b.rank

end FieldValue

structure Field where
  name : List Char
  value : Option FieldValue
  deriving DecidableEq

namespace Field

/-- Reads a field: its name, and a value after an equals sign, which a further one ends. -/
def ofText? (cs : List Char) : Option Field :=
  let name := cs.takeWhile fun c => c != '='
  match cs.dropWhile fun c => c != '=' with
  | [] => some ⟨name, none⟩
  | _ :: rest => do return ⟨name, some (← FieldValue.ofText? (rest.takeWhile fun c => c != '='))⟩

def text (f : Field) : List Char :=
  f.name ++
    match f.value with
    | none => []
    | some v => '=' :: v.text

/-- The order of fields: first those without a value, then by name and by value. -/
def order (f g : Field) : Ordering :=
  (compare f.value.isSome.toNat g.value.isSome.toNat).then <|
    (orderTexts f.name g.name).then (orderOptions FieldValue.order f.value g.value)

end Field

end PokerHand.LogFilter
