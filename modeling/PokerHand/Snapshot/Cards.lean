import PokerHand.Card.Symbol
import PokerHand.Json.Decode
import PokerHand.Json.Value
import PokerHand.Ranking.MadeHand

/-!
# Cards and scores as JSON

A card is its symbol, a category its name, an order the list of its categories.
-/
namespace PokerHand

def Card.toJson (c : Card) : Json := .str c.symbol

def Card.ofJson? (j : Json) : Option Card := j.text?.bind Card.ofText?

/-- A list of cards. -/
def Card.listToJson (cards : List Card) : Json := .ofList Card.toJson cards

def Card.listOfJson? (j : Json) : Option (List Card) := j.list? Card.ofJson?

def Category.toJson (c : Category) : Json := .str c.name

def Category.ofJson? (j : Json) : Option Category := j.name?.bind Category.ofName?

def Order.toJson (order : Order) : Json := .ofList Category.toJson order.ranking

def Order.ofJson? (j : Json) : Option Order := do
  let ranking ← j.list? Category.ofJson?
  (Order.ofList ranking).toOption

def MadeHand.toJson (m : MadeHand) : Json :=
  .obj [("type", m.category.toJson), ("cards", Card.listToJson m.cards), ("power", .nat m.power)]

def MadeHand.ofJson? (j : Json) : Option MadeHand := do
  match ← j.columns ["type", "cards", "power"] 0 with
  | [category, cards, power] =>
      return {
        category := ← Json.need Category.ofJson? category
        cards := ← Json.need Card.listOfJson? cards
        power := ← Json.need Json.count? power }
  | _ => none

end PokerHand
