import PokerHand.Hand.State
import PokerHand.Snapshot.Chips
import PokerHand.Snapshot.Gate
import PokerHand.Snapshot.Seat

/-!
# Setups and hands as JSON

A hand is written in four parts: its own fields, the terms under `meta`, the state of play under
`status`, and the seats.
-/
namespace PokerHand

def Street.toJson (s : Street) : Json := .str s.name

def Street.ofJson? (j : Json) : Option Street := j.name?.bind Street.ofName?

def Phase.toJson (p : Phase) : Json := .str p.name

def Phase.ofJson? (j : Json) : Option Phase := j.text?.bind Phase.ofName?

def Limit.toJson (l : Limit) : Json := .str l.name

def Limit.ofJson? (j : Json) : Option Limit := j.name?.bind Limit.ofName?

def Blinds.toJson (b : Blinds) : Json :=
  .obj [("dealer", .int b.dealer), ("sb", .int b.small), ("bb", .int b.big)]

def Blinds.ofJson? (j : Json) : Option Blinds := do
  match ← j.columns ["dealer", "sb", "bb"] 0 with
  | [dealer, small, big] =>
      return {
        dealer := ← Json.need Json.amount? dealer
        small := ← Json.need Json.amount? small
        big := ← Json.need Json.amount? big }
  | _ => none

namespace Terms

/-- The fields of written terms. -/
def fields (t : Terms) : List (String × Json) :=
  [("ante", .int t.ante),
   ("blind", t.blinds.toJson),
   ("limit", t.limit.toJson),
   ("hole_cards_count", .nat t.holeCount),
   ("required_hole_cards_count", .nat t.requiredHole),
   ("combination_powers", t.order.toJson),
   ("deck", Card.listToJson t.deck),
   ("burn_count", .nat t.burnCount)]

/-- The names of those fields. -/
def fieldNames : List String :=
  ["ante", "blind", "limit", "hole_cards_count", "required_hole_cards_count",
   "combination_powers", "deck", "burn_count"]

def toJson (t : Terms) : Json := .obj t.fields

/-- Reads the terms and hands on the values that follow theirs. -/
def ofColumns? : List (Option Json) → Option (Terms × List (Option Json))
  | ante :: blinds :: limit :: holeCount :: requiredHole :: order :: deck :: burnCount ::
      rest => do
      let t : Terms := {
        ante := ← Json.need Json.amount? ante
        blinds := ← Json.need Blinds.ofJson? blinds
        limit := ← Json.need Limit.ofJson? limit
        holeCount := ← Json.need Json.count? holeCount
        requiredHole := ← Json.need Json.count? requiredHole
        order := ← Json.need Order.ofJson? order
        deck := ← Json.need Card.listOfJson? deck
        burnCount := ← Json.need Json.count? burnCount }
      return (t, rest)
  | _ => none

def ofJson? (j : Json) : Option Terms := do
  match ← ofColumns? (← j.columns fieldNames 0) with
  | (t, []) => return t
  | _ => none

end Terms

def Entry.toJson (e : Entry) : Json :=
  .obj [("bankroll", .int e.bankroll), ("positions", .ofList Position.toJson e.positions)]

def Entry.ofJson? (j : Json) : Option Entry := do
  match ← j.columns ["bankroll", "positions"] 1 with
  | [bankroll, positions] =>
      return {
        bankroll := ← Json.need Json.amount? bankroll
        positions := ← Json.orElse (Json.list? Position.ofJson?) [] positions }
  | _ => none

def Setup.toJson (s : Setup) : Json :=
  .obj (s.terms.fields ++ [("players", .ofList Entry.toJson s.players)])

def Setup.ofJson? (j : Json) : Option Setup := do
  match ← Terms.ofColumns? (← j.columns (Terms.fieldNames ++ ["players"]) 0) with
  | (terms, [players]) =>
      return { terms := terms, players := ← Json.need (Json.list? Entry.ofJson?) players }
  | _ => none

namespace Hand

/-- The state of play, apart from the seats. -/
def statusToJson (h : Hand) : Json :=
  .obj [("current_event", h.phase.toJson),
    ("current_round", .ofOption Street.toJson h.street),
    ("mini_bet", .int h.minBet),
    ("current_wager", .int h.wager),
    ("previous_raise_size", .int h.raiseSize),
    ("current_raiser", .nat h.raiser),
    ("current_player", .nat h.turn),
    ("current_deck_position", .nat h.dealt),
    ("board", Card.listToJson h.board),
    ("burned", Card.listToJson h.burned),
    ("pots", .ofList SidePot.toJson h.pots),
    ("last_action", .ofOption LastAction.toJson h.last),
    ("tasks", .ofList Task.toJson h.tasks)]

def toJson (h : Hand) : Json :=
  .obj [("game_id", .str h.id),
    ("created_at", .int h.createdAt),
    ("updated_at", .int h.updatedAt),
    ("meta", h.terms.toJson),
    ("status", h.statusToJson),
    ("players", .ofList Seat.toJson h.seats),
    ("result", .ofOption Payout.toJson h.result)]

/-- Reads a state of play into a hand that has everything else. -/
def withStatus? (h : Hand) (j : Json) : Option Hand := do
  match ← j.columns ["current_event", "current_round", "mini_bet", "current_wager",
      "previous_raise_size", "current_raiser", "current_player", "current_deck_position", "board",
      "burned", "pots", "last_action", "tasks"] 0 with
  | [phase, street, minBet, wager, raiseSize, raiser, turn, dealt, board, burned, pots, last,
      tasks] =>
      return { h with
        phase := ← Json.need Phase.ofJson? phase
        street := ← Json.may Street.ofJson? street
        minBet := ← Json.need Json.amount? minBet
        wager := ← Json.need Json.amount? wager
        raiseSize := ← Json.need Json.amount? raiseSize
        raiser := ← Json.need Json.count? raiser
        turn := ← Json.need Json.count? turn
        dealt := ← Json.need Json.count? dealt
        board := ← Json.need Card.listOfJson? board
        burned := ← Json.need Card.listOfJson? burned
        pots := ← Json.need (Json.list? SidePot.ofJson?) pots
        last := ← Json.may LastAction.ofJson? last
        tasks := ← Json.need (Json.list? Task.ofJson?) tasks }
  | _ => none

def ofJson? (j : Json) : Option Hand := do
  match ← j.columns ["game_id", "created_at", "updated_at", "meta", "status", "players",
      "result"] 0 with
  | [id, createdAt, updatedAt, terms, status, seats, result] =>
      let bare : Hand := {
        id := ← Json.need Json.text? id
        createdAt := ← Json.need Json.amount? createdAt
        updatedAt := ← Json.need Json.amount? updatedAt
        terms := ← Json.need Terms.ofJson? terms
        phase := .started
        street := none
        minBet := 0
        wager := 0
        raiseSize := 0
        raiser := 0
        turn := 0
        dealt := 0
        board := []
        burned := []
        pots := []
        last := none
        tasks := []
        seats := ← Json.need (Json.list? Seat.ofJson?) seats
        result := ← Json.may Payout.ofJson? result }
      Json.need bare.withStatus? status
  | _ => none

end Hand

end PokerHand
