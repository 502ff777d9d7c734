import PokerHand.Chips.Counting
import PokerHand.SeatMap

/-!
# Side pots

The chips that the seats have committed are split into layers, one for each distinct amount: a
layer takes from every seat what lies between the amount below it and its own. Only unfolded seats
that reach a layer can win it. Adjacent layers that the same seats have reached, folded ones
included, would be one pot.
-/
namespace PokerHand

open Counting

structure SidePot where
  /-- The whole stake of a seat that reaches the top of the layer. -/
  level : Int
  /-- The stake that the layer adds to the one below. -/
  wager : Int
  total : Int
  /-- The unfolded seats that reached `level`. -/
  contributors : List Nat
  deriving DecidableEq

/-- One pot in place of `p` and the layer `q` above it. -/
def SidePot.join [Counting] (p q : SidePot) : SidePot :=
  { p with level := q.level, wager := fit (p.wager + q.wager), total := fit (p.total + q.total) }

/-- What one seat has committed. -/
structure Contribution where
  amount : Int
  folded : Bool
  deriving DecidableEq

/-- What the seats have committed; every amount is positive. -/
abbrev Contributions := SeatMap Contribution

namespace Contributions

/-- Notes the stake of `seat`, in place of an earlier one; a stake that is not positive is none. -/
def contribute (c : Contributions) (seat : Nat) (amount : Int) (folded : Bool) : Contributions :=
  if amount ≤ 0 then c.erase seat else c.insert seat ⟨amount, folded⟩

/-- Puts a level into strictly ascending levels, unless it is there. -/
def insertLevel (level : Int) : List Int → List Int
  | [] => [level]
  | l :: rest =>
      if level < l then level :: l :: rest
      else if level = l then l :: rest
      else l :: insertLevel level rest

/-- The distinct amounts, ascending. -/
def levels (c : Contributions) : List Int :=
  (c.entries.map fun e => e.2.amount).foldr insertLevel []

/-- What the seats that reach `level` have committed. -/
def reaching (c : Contributions) (level : Int) : List (Nat × Contribution) :=
  c.entries.filter fun e => e.2.amount ≥ level

/-- The seats that reach `level`. -/
def reachedBy (c : Contributions) (level : Int) : List Nat := (c.reaching level).map Prod.fst

variable [Counting]

/-- All that the seats have committed. -/
def total (c : Contributions) : Int := Counting.total (c.entries.map fun e => e.2.amount)

/-- The layer between `floor` and `level`. -/
def layer (c : Contributions) (floor level : Int) : SidePot :=
  { level := level
    wager := fit (level - floor)
    total := fit (fit (level - floor) * (c.reaching level).length)
    contributors := ((c.reaching level).filter fun e => !e.2.folded).map Prod.fst }

/-- The pots from `top` on, which goes up to `floor`: a layer that the same seats have reached joins
it, and any other one is a pot of its own. -/
def potsFrom (c : Contributions) (top : SidePot) (floor : Int) : List Int → List SidePot
  | [] => [top]
  | level :: rest =>
      if c.reachedBy level = c.reachedBy floor then
        c.potsFrom (top.join (c.layer floor level)) level rest
      else top :: c.potsFrom (c.layer floor level) level rest

/-- The pots, from the lowest. -/
def pots (c : Contributions) : List SidePot :=
  match c.levels with
  | [] => []
  | level :: rest => c.potsFrom (c.layer 0 level) level rest

end Contributions

end PokerHand
