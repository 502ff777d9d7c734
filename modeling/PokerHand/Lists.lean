/-!
# Sorting and gathering lists

`sortBy le xs` arranges `xs` ascending in `le` and leaves entries that tie in their given order.
`gather key xs` puts entries with the same key together, in the order in which keys first appear.
-/
namespace PokerHand.Lists

variable {α κ : Type}

/-- Puts `a` in front of the first entry that it may precede. -/
def insertBy (le : α → α → Bool) (a : α) : List α → List α
  | [] => [a]
  | b :: rest => if le a b then a :: b :: rest else b :: insertBy le a rest

/-- Sorts ascending in `le`; entries that tie keep their order. -/
def sortBy (le : α → α → Bool) : List α → List α
  | [] => []
  | a :: rest => insertBy le a (sortBy le rest)

/-- Puts `a` at the end of the group of its key, or into a group of its own after the others. -/
def join [DecidableEq κ] (key : α → κ) (groups : List (κ × List α)) (a : α) : List (κ × List α) :=
  match groups with
  | [] => [(key a, [a])]
  | g :: rest => if g.1 = key a then (g.1, g.2 ++ [a]) :: rest else g :: join key rest a

/-- The entries of each key, by the first appearance of the keys. -/
def gather [DecidableEq κ] (key : α → κ) (xs : List α) : List (κ × List α) :=
  xs.foldl (join key) []

end PokerHand.Lists
