/-!
# Counting chips

Chips are counted in words of sixty-four bits with a sign. Whatever is added, subtracted or
multiplied is brought back into a word, and what a word does not hold wraps round. How an amount is
brought back is a parameter of all definitions that count, so that what holds of a hand however its
chips are counted can be told from what needs their exact number.
-/
namespace PokerHand

/-- A way of counting: what stands for the exact result of an operation. -/
class Counting where
  fit : Int → Int

namespace Counting

/-- Counts in words: an amount goes round by two to the sixty-fourth until a word holds it. -/
instance words : Counting := ⟨fun x => x.bmod 18446744073709551616⟩

variable [Counting]

/-- All of the given chips together, counted from the first on. -/
def total (xs : List Int) : Int := xs.foldl (fun sum x => fit (sum + x)) 0

end Counting

end PokerHand
