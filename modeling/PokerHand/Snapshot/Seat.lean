import PokerHand.Seat
import PokerHand.Snapshot.Cards

/-!
# Seats as JSON
-/
namespace PokerHand

def Position.toJson (p : Position) : Json := .str p.name

def Position.ofJson? (j : Json) : Option Position := j.name?.bind Position.ofName?

def Action.toJson (a : Action) : Json := .str a.name

def Action.ofJson? (j : Json) : Option Action := j.name?.bind Action.ofName?

def LastAction.toJson (l : LastAction) : Json :=
  .obj [("source", .nat l.seat), ("type", l.action.toJson), ("value", .int l.value)]

def LastAction.ofJson? (j : Json) : Option LastAction := do
  match ← j.columns ["source", "type", "value"] 0 with
  | [seat, action, value] =>
      return {
        seat := ← Json.need Json.count? seat
        action := ← Json.need Action.ofJson? action
        value := ← Json.need Json.amount? value }
  | _ => none

def Seat.toJson (s : Seat) : Json :=
  .obj [("idx", .nat s.number),
    ("positions", .ofList Position.toJson s.positions),
    ("bankroll", .int s.bankroll),
    ("initial_stack_size", .int s.initialStack),
    ("stack_size", .int s.stack),
    ("pot", .int s.pot),
    ("wager", .int s.wager),
    ("fold", .bool s.folded),
    ("acted", .bool s.acted),
    ("did_action", .ofOption Action.toJson s.did),
    ("allowed_actions", .ofList Action.toJson s.allowed),
    ("hole_cards", Card.listToJson s.hole),
    ("combination", .ofOption MadeHand.toJson s.made)]

def Seat.ofJson? (j : Json) : Option Seat := do
  match ← j.columns ["idx", "positions", "bankroll", "initial_stack_size", "stack_size", "pot",
      "wager", "fold", "acted", "did_action", "allowed_actions", "hole_cards", "combination"] 0
    with
  | [number, positions, bankroll, initialStack, stack, pot, wager, folded, acted, did, allowed,
      hole, made] =>
      return {
        number := ← Json.need Json.count? number
        positions := ← Json.need (Json.list? Position.ofJson?) positions
        bankroll := ← Json.need Json.amount? bankroll
        initialStack := ← Json.need Json.amount? initialStack
        stack := ← Json.need Json.amount? stack
        pot := ← Json.need Json.amount? pot
        wager := ← Json.need Json.amount? wager
        folded := ← Json.need Json.bool? folded
        acted := ← Json.need Json.bool? acted
        did := ← Json.may Action.ofJson? did
        allowed := ← Json.need (Json.list? Action.ofJson?) allowed
        hole := ← Json.need Card.listOfJson? hole
        made := ← Json.may MadeHand.ofJson? made }
  | _ => none

end PokerHand
