import PokerHand.Json.Text
import PokerHand.Snapshot.Hand

/-!
# The journal of a hand

The journal holds one record per line: the hand as it stood after a call. A record that has no
time of its own gets the time at which it is written.
-/
namespace PokerHand

structure Record where
  handId : String
  /-- The place of the record in the journal, from one. -/
  number : Nat
  phase : Phase
  street : Option Street
  last : Option LastAction
  board : List Card
  pots : List SidePot
  result : Option Payout
  time : Option String
  deriving DecidableEq

namespace Record

/-- The least number that a record cannot have. -/
def numberBound : Nat := 4294967296

/-- The record of a hand, without a time. -/
def ofHand (h : Hand) (number : Nat) : Record where
  handId := h.id
  number := number
  phase := h.phase
  street := h.street
  last := h.last
  board := h.board
  pots := h.pots
  result := h.result
  time := none

def toJson (r : Record) : Json :=
  .obj [("game_id", .str r.handId),
    ("seq", .nat r.number),
    ("event", r.phase.toJson),
    ("round", .ofOption Street.toJson r.street),
    ("last_action", .ofOption LastAction.toJson r.last),
    ("board", Card.listToJson r.board),
    ("pots", .ofList SidePot.toJson r.pots),
    ("result", .ofOption Payout.toJson r.result),
    ("ts", .ofOption .str r.time)]

def ofJson? (j : Json) : Option Record := do
  match ← j.columns ["game_id", "seq", "event", "round", "last_action", "board", "pots", "result",
      "ts"] 2 with
  | [handId, number, phase, street, last, board, pots, result, time] =>
      return {
        handId := ← Json.need Json.text? handId
        number := ← Json.need (Json.below? numberBound) number
        phase := ← Json.need Phase.ofJson? phase
        street := ← Json.may Street.ofJson? street
        last := ← Json.may LastAction.ofJson? last
        board := ← Json.need Card.listOfJson? board
        pots := ← Json.need (Json.list? SidePot.ofJson?) pots
        result := ← Json.may Payout.ofJson? result
        time := ← Json.may Json.text? time }
  | _ => none

/-- The line that stands for a record written at `now`. -/
def line (r : Record) (now : String) : String :=
  { r with time := some (r.time.getD now) }.toJson.compact

end Record

end PokerHand
