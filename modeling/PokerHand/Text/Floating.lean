import PokerHand.Text.Numeral

/-!
# Numbers in floating form

A decimal is read to the nearest number with fifty-three binary digits, an even last digit deciding
between two that are equally near, and is written with the fewest decimal digits that read back.
All arithmetic is exact: a number is a whole number times a power of two.
-/
namespace PokerHand.Text

/-- A number without its sign. -/
inductive Magnitude where
  /-- The number `significand * 2 ^ exponent`. -/
  | finite (significand : Nat) (exponent : Int)
  | infinite
  deriving DecidableEq

/-- A number in floating form; zero has a sign too. -/
structure Floating where
  negative : Bool
  magnitude : Magnitude
  deriving DecidableEq

namespace Magnitude

/-- How `a * 10 ^ i` compares with `n * 2 ^ j`. -/
def compareScaled (a : Nat) (i : Int) (n : Nat) (j : Int) : Ordering :=
  compare (a * Nat.pow 10 i.toNat * Nat.pow 2 (-j).toNat)
    (n * Nat.pow 2 j.toNat * Nat.pow 10 (-i).toNat)

/-- The nearest whole number to a quotient; of two the even one. -/
def roundQuotient (numerator denominator : Nat) : Nat :=
  let q := numerator / denominator
  match compare (2 * (numerator % denominator)) denominator with
  | .lt => q
  | .gt => q + 1
  | .eq => if q % 2 = 0 then q else q + 1

/-- The least exponent, which is that of the numbers next to zero. -/
def leastExponent : Int := -1074

/-- The greatest exponent of a finite number. -/
def greatestExponent : Int := 971

/-- One more than the greatest significand. -/
def significandBound : Nat := 9007199254740992

/-- The number nearest to a positive quotient. -/
def ofQuotient (numerator denominator : Nat) : Magnitude :=
  let scaled (e : Int) :=
    (numerator * Nat.pow 2 (-e).toNat, denominator * Nat.pow 2 e.toNat)
  let guess := (Nat.log2 numerator : Int) - Nat.log2 denominator - 52
  let isShort := (scaled guess).1 < (scaled guess).2 * (significandBound / 2)
  let e := max leastExponent (if isShort then guess - 1 else guess)
  let n := roundQuotient (scaled e).1 (scaled e).2
  let (n, e) := if n = significandBound then (significandBound / 2, e + 1) else (n, e)
  if greatestExponent < e then .infinite else .finite n e

/-- The number nearest to `digits * 10 ^ scale`. What has more than 310 digits in front of its
point is beyond every finite number, and what has more than 330 zeros behind it is next to none. -/
def ofDecimal (digits : Nat) (scale : Int) : Magnitude :=
  let places := ((Nat.toDigits 10 digits).length : Int) + scale
  if digits = 0 ∨ places < -330 then .finite 0 leastExponent
  else if 310 < places then .infinite
  else ofQuotient (digits * Nat.pow 10 scale.toNat) (Nat.pow 10 (-scale).toNat)

/-- Whether `digits * 10 ^ scale` is read as `n * 2 ^ e`: it lies between the middles of the gaps
to the two neighbours, or on a middle when `n` is even. Below a power of two the gap is half as
wide. -/
def readsBack (n : Nat) (e : Int) (digits : Nat) (scale : Int) : Bool :=
  let isEven := n % 2 = 0
  let low := if n = significandBound / 2 ∧ leastExponent < e then 4 * n - 1 else 4 * n - 2
  let atLow := compareScaled digits scale low (e - 2)
  let atHigh := compareScaled digits scale (4 * n + 2) (e - 2)
  (atLow == .gt || (isEven && atLow == .eq)) && (atHigh == .lt || (isEven && atHigh == .eq))

/-- The neighbour of `n * 2 ^ e` among the multiples of `10 ^ scale` that reads back and is the
nearer one, the greater one of two that are equally near. -/
def onGrid (n : Nat) (e scale : Int) : Option Nat :=
  let numerator := n * Nat.pow 2 e.toNat * Nat.pow 10 (-scale).toNat
  let denominator := Nat.pow 2 (-e).toNat * Nat.pow 10 scale.toNat
  let below := numerator / denominator
  let isUpperNearer := denominator ≤ 2 * (numerator % denominator)
  let candidates := if isUpperNearer then [below + 1, below] else [below, below + 1]
  candidates.find? fun digits => readsBack n e digits scale

/-- The first hit on the grids below the place `top`, the coarsest one first. -/
def shortestFrom (n : Nat) (e : Int) (top : Int) : List Nat → Option (Nat × Int)
  | [] => none
  | count :: more =>
      match onGrid n e (top - count) with
      | some digits => some (digits, top - count)
      | none => shortestFrom n e top more

/-- The shortest decimal `digits * 10 ^ scale` that reads back, or the exact one. -/
def shortest (n : Nat) (e : Int) : Nat × Int :=
  let top := ((Nat.log2 n : Int) + e) * 30103 / 100000 + 2
  match shortestFrom n e top (List.range 20) with
  | some d => d
  | none => (n * Nat.pow 2 e.toNat * Nat.pow 5 (-e).toNat, min e 0)

/-- A decimal with its digits on both sides of the point, which needs digits behind it. -/
def layOut (digits : Nat) (scale : Int) : List Char :=
  let ds := Nat.toDigits 10 digits
  if 0 ≤ scale then ds ++ List.replicate scale.toNat '0'
  else
    let behind := (-scale).toNat
    let ds := List.replicate (behind + 1 - ds.length) '0' ++ ds
    let fraction := (ds.drop (ds.length - behind)).reverse.dropWhile (fun c => c == '0')
    ds.take (ds.length - behind) ++
      (if fraction.isEmpty then [] else '.' :: fraction.reverse)

def text : Magnitude → List Char
  | .infinite => ['i', 'n', 'f']
  | .finite 0 _ => ['0']
  | .finite n e =>
      let d := shortest n e
      layOut d.1 d.2

/-- The order of magnitudes. -/
def order : Magnitude → Magnitude → Ordering
  | .infinite, .infinite => .eq
  | .infinite, .finite _ _ => .gt
  | .finite _ _, .infinite => .lt
  | .finite n e, .finite k f =>
      compare (n * Nat.pow 2 (e - f).toNat) (k * Nat.pow 2 (f - e).toNat)

def isZero : Magnitude → Bool
  | .finite 0 _ => true
  | _ => false

end Magnitude

namespace Floating

/-- The written form: a sign where it is negative, and no power of ten. -/
def text (x : Floating) : List Char := (if x.negative then ['-'] else []) ++ x.magnitude.text

/-- The order of numbers; the two zeros are equal. -/
def order (x y : Floating) : Ordering :=
  if x.magnitude.isZero && y.magnitude.isZero then .eq
  else
    match x.negative, y.negative with
    | false, false => x.magnitude.order y.magnitude
    | true, true => y.magnitude.order x.magnitude
    | true, false => .lt
    | false, true => .gt

/-- Reads digits with a point among, before or behind them and a power of ten after `e`. -/
def decimal? (cs : List Char) : Option Magnitude := do
  let whole := cs.takeWhile Char.isDigit
  let rest := cs.dropWhile Char.isDigit
  let (fraction, rest) := match rest with
    | '.' :: rest => (rest.takeWhile Char.isDigit, rest.dropWhile Char.isDigit)
    | rest => ([], rest)
  let digits ← Numeral.nat? (whole ++ fraction)
  let power ← match rest with
    | [] => some 0
    | c :: rest => if c = 'e' ∨ c = 'E' then Numeral.int? rest else none
  return Magnitude.ofDecimal digits (power - fraction.length)

/-- Takes one sign off a text. -/
def takeSign : List Char → Bool × List Char
  | '-' :: cs => (true, cs)
  | '+' :: cs => (false, cs)
  | cs => (false, cs)

/-- Reads a number in floating form, which can be infinite. -/
def ofText? (cs : List Char) : Option Floating :=
  let (negative, cs) := takeSign cs
  let word := String.ofList (cs.map Char.toLower)
  if word = "inf" ∨ word = "infinity" then some ⟨negative, .infinite⟩
  else (decimal? cs).map fun m => ⟨negative, m⟩

/-- Whether a text stands for no number at all, with a sign or without. -/
def isNotANumber (cs : List Char) : Bool :=
  String.ofList ((takeSign cs).2.map Char.toLower) == "nan"

end Floating

end PokerHand.Text
