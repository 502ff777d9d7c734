import PokerHand.Host
import PokerHand.Snapshot.Cards
import PokerHand.Ranking.Selection

/-!
# Scoring cards on request

Any command may fail with a `CommandFault`; here it is the cards that are not fit to be scored.
-/
namespace PokerHand

/-- Why a command fails. -/
inductive CommandFault where
  | file (cause : FileFault)
  | input (text : String)
  | settings (text : String)
  | hand (cause : Fault)
  deriving DecidableEq

def CommandFault.message : CommandFault → String
  | file cause => s!"I/O error: {cause.message}"
  | input text => s!"Invalid input: {text}"
  | settings text => s!"Configuration error: {text}"
  | hand cause => s!"Engine error: {cause.message}"

namespace Command

/-- The most cards that one player sees. -/
def maxCards : Nat := 7

/-- Scores a set of distinct cards. -/
def evaluateCards (cards : List Card) (shortDeck : Bool) : Except CommandFault MadeHand :=
  if cards.isEmpty ∨ cards.length > maxCards then
    .error (.input s!"expected 1 to {maxCards} cards, got {cards.length}")
  else if ¬ cards.Nodup then .error (.input "duplicate card")
  else if shortDeck then
    match cards.find? fun c => c.rank.value < Rank.six.value with
    | some c => .error (.input s!"{c.symbol} is not in the short deck")
    | none => .ok (MadeHand.best [] cards 0 .shortDeck)
  else .ok (MadeHand.best [] cards 0 .standard)

/-- What the scored cards make, by name. -/
def scoreJson (m : MadeHand) : Json :=
  .obj [("cards", Card.listToJson m.cards), ("category", m.category.toJson),
    ("power", .nat m.power)]

end Command

end PokerHand
