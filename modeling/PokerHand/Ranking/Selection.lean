import PokerHand.Ranking.MadeHand

/-!
# The best hand within hole and board cards

`selections k xs` lists the ways to take `k` positions of `xs`, in lexicographic order of the
positions: the first `k` positions are the first choice, and each choice leads to the next one. A
player makes the best hand of all legal selections; of equal ones the first counts.
-/
namespace PokerHand

variable {α : Type}

/-- The choice after a choice of positions below `n`: the last position that is not yet as far back
as it can be moves on by one, and those behind it follow it directly. -/
def nextChoice? (n : Nat) : List Nat → Option (List Nat)
  | [] => none
  | i :: rest =>
      match nextChoice? n rest with
      | some rest => some (i :: rest)
      | none =>
          if i + rest.length + 1 = n then none
          else some (List.range' (i + 1) (rest.length + 1))

/-- A choice of positions below `n` and those that come after it, at most `bound` in all. -/
def choicesFrom (n : Nat) : (bound : Nat) → List Nat → List (List Nat)
  | 0, _ => []
  | bound + 1, choice =>
      choice ::
        match nextChoice? n choice with
        | none => []
        | some next => choicesFrom n bound next

/-- The choices of `k` positions below `n`, of which there are at most `2 ^ n`. -/
def choices (k n : Nat) : List (List Nat) :=
  if n < k then [] else choicesFrom n (Nat.pow 2 n) (List.range k)

/-- The entries at each choice of `k` positions. -/
def selections (k : Nat) (xs : List α) : List (List α) :=
  (choices k xs.length).map fun choice => choice.filterMap fun i => xs[i]?

namespace MadeHand

/-- The sets of cards that a player may show. With nothing required, any five of all cards, or
all when there are no more than five; else the required number of hole cards (or all of them) and
board cards up to five. -/
def candidates (hole board : List Card) (required : Nat) : List (List Card) :=
  if required = 0 then
    let pool := hole ++ board
    if pool.length ≤ 5 then [pool] else selections 5 pool
  else
    let fromHole := min required hole.length
    let fromBoard := 5 - fromHole
    let boards := if board.length ≤ fromBoard then [board] else selections fromBoard board
    (selections fromHole hole).flatMap fun h => boards.map fun b => h ++ b

/-- The stronger of two hands; the first on a tie. -/
def better (a b : MadeHand) : MadeHand := if b.power ≤ a.power then a else b

/-- The first of the strongest hands among `sets`, and the empty hand if there are no sets. -/
def strongest (sets : List (List Card)) (order : Order) : MadeHand :=
  match sets with
  | [] => evaluate [] order
  | first :: rest =>
      rest.foldl (fun best set => better best (evaluate set order)) (evaluate first order)

/-- The best hand that a player can show. -/
def best (hole board : List Card) (required : Nat) (order : Order) : MadeHand :=
  strongest (candidates hole board required) order

end MadeHand

end PokerHand
