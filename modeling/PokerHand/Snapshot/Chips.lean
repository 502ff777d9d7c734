import PokerHand.Chips.Payout
import PokerHand.Json.Decode

/-!
# Pots and payouts as JSON
-/
namespace PokerHand

def SidePot.toJson (p : SidePot) : Json :=
  .obj [("level", .int p.level), ("wager", .int p.wager), ("total", .int p.total),
    ("contributors", .ofList .nat p.contributors)]

def SidePot.ofJson? (j : Json) : Option SidePot := do
  match ← j.columns ["level", "wager", "total", "contributors"] 0 with
  | [level, wager, total, contributors] =>
      return {
        level := ← Json.need Json.amount? level
        wager := ← Json.need Json.amount? wager
        total := ← Json.need Json.amount? total
        contributors := ← Json.need (Json.list? Json.count?) contributors }
  | _ => none

def Balance.toJson (b : Balance) : Json :=
  .obj [("idx", .nat b.seat), ("final", .int b.final), ("changed", .int b.changed)]

def Balance.ofJson? (j : Json) : Option Balance := do
  match ← j.columns ["idx", "final", "changed"] 0 with
  | [seat, final, changed] =>
      return {
        seat := ← Json.need Json.count? seat
        final := ← Json.need Json.amount? final
        changed := ← Json.need Json.amount? changed }
  | _ => none

def Winner.toJson (w : Winner) : Json :=
  .obj [("idx", .nat w.seat), ("withdraw", .int w.withdraw)]

def Winner.ofJson? (j : Json) : Option Winner := do
  match ← j.columns ["idx", "withdraw"] 0 with
  | [seat, withdraw] =>
      return {
        seat := ← Json.need Json.count? seat
        withdraw := ← Json.need Json.amount? withdraw }
  | _ => none

def PaidPot.toJson (p : PaidPot) : Json :=
  .obj [("level", .int p.level), ("total", .int p.total),
    ("winners", .ofList Winner.toJson p.winners)]

def PaidPot.ofJson? (j : Json) : Option PaidPot := do
  match ← j.columns ["level", "total", "winners"] 0 with
  | [level, total, winners] =>
      return {
        level := ← Json.need Json.amount? level
        total := ← Json.need Json.amount? total
        winners := ← Json.need (Json.list? Winner.ofJson?) winners }
  | _ => none

def Payout.toJson (p : Payout) : Json :=
  .obj [("players", .ofList Balance.toJson p.balances), ("pots", .ofList PaidPot.toJson p.pots)]

def Payout.ofJson? (j : Json) : Option Payout := do
  match ← j.columns ["players", "pots"] 0 with
  | [balances, pots] =>
      return {
        balances := ← Json.need (Json.list? Balance.ofJson?) balances
        pots := ← Json.need (Json.list? PaidPot.ofJson?) pots }
  | _ => none

end PokerHand
