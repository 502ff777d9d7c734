/-!
# Numerals

A numeral is a run of ASCII digits. `number?` reads one in a base up to sixteen, `nat?` a decimal
one, and `int?` also takes one sign in front of it; `amount?` and `count?` keep a number that
sixty-four bits can hold.
-/
namespace PokerHand.Text.Numeral

/-- The value of a digit in a base up to sixteen. -/
def digit? (base : Nat) (c : Char) : Option Nat :=
  let n :=
    if c.isDigit then c.toNat - '0'.toNat
    else if 'a' ≤ c ∧ c ≤ 'f' then c.toNat - 'a'.toNat + 10
    else if 'A' ≤ c ∧ c ≤ 'F' then c.toNat - 'A'.toNat + 10
    else base
  if n < base then some n else none

/-- The number that digits of a base stand for. -/
def number? (base : Nat) (cs : List Char) : Option Nat :=
  if cs.isEmpty then none
  else cs.foldlM (fun n c => (digit? base c).map fun d => n * base + d) 0

/-- The number that a non-empty run of digits stands for. -/
def nat? (cs : List Char) : Option Nat :=
  if !cs.isEmpty && cs.all Char.isDigit then some (Nat.ofDigitChars 10 cs 0) else none

/-- Reads digits after at most one plus sign. -/
def unsigned? : List Char → Option Nat
  | '+' :: cs => nat? cs
  | cs => nat? cs

/-- Reads digits after at most one sign. -/
def int? : List Char → Option Int
  | '-' :: cs => (nat? cs).map fun n => -(n : Int)
  | '+' :: cs => (nat? cs).map fun n => (n : Int)
  | cs => (nat? cs).map fun n => (n : Int)

/-- The least amount that sixty-four signed bits hold. -/
def leastAmount : Int := -9223372036854775808

/-- The greatest amount that sixty-four signed bits hold. -/
def greatestAmount : Int := 9223372036854775807

/-- Whether an amount of chips fits sixty-four signed bits. -/
def isAmount (n : Int) : Bool := leastAmount ≤ n && n ≤ greatestAmount

/-- The least count that sixty-four unsigned bits do not hold. -/
def countBound : Nat := 18446744073709551616

/-- Whether a count fits sixty-four unsigned bits. -/
def isCount (n : Int) : Bool := 0 ≤ n && n < countBound

/-- Reads an amount of chips. -/
def amount? (cs : List Char) : Option Int := (int? cs).filter isAmount

/-- Reads a count or a seed. -/
def count? (cs : List Char) : Option Nat := (unsigned? cs).filter fun n => isCount n

end PokerHand.Text.Numeral
