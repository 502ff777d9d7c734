/-!
# Moments as texts

A moment is a number of seconds since the start of 1970. Its text gives the date in the Gregorian
calendar and the time of day in Greenwich. Years are counted from March here, so that a leap day
is the last day of its year.
-/
namespace PokerHand.Moment

/-- How many days lie between the first of March of the year zero and the start of 1970. -/
def daysToEpoch : Int := 719468

/-- How many days four hundred years have. -/
def daysPerCycle : Int := 146097

structure Date where
  year : Int
  month : Nat
  day : Nat
  deriving DecidableEq

/-- How many days of a cycle come before its `year`th year. -/
def daysBefore (year : Nat) : Nat := 365 * year + year / 4 - year / 100

/-- The date of a day, counted from the start of 1970. -/
def date (day : Int) : Date :=
  let count := day + daysToEpoch
  let cycle := Int.fdiv count daysPerCycle
  let dayOfCycle := (Int.fmod count daysPerCycle).toNat
  let year := (dayOfCycle - dayOfCycle / 1460 + dayOfCycle / 36524 - dayOfCycle / 146096) / 365
  let dayOfYear := dayOfCycle - daysBefore year
  let month := (5 * dayOfYear + 2) / 153
  { year := cycle * 400 + year + if month < 10 then 0 else 1
    month := if month < 10 then month + 3 else month - 9
    day := dayOfYear - (153 * month + 2) / 5 + 1 }

/-- A number with zeros in front up to `width` digits. -/
def padded (width n : Nat) : String :=
  let digits := toString n
  String.ofList (List.replicate (width - digits.length) '0') ++ digits

/-- The text of a moment in a year that is not negative. -/
def text (seconds : Int) : String :=
  let d := date (Int.fdiv seconds 86400)
  let time := (Int.fmod seconds 86400).toNat
  padded 4 d.year.toNat ++ "-" ++ padded 2 d.month ++ "-" ++ padded 2 d.day ++ "T" ++
    padded 2 (time / 3600) ++ ":" ++ padded 2 (time / 60 % 60) ++ ":" ++ padded 2 (time % 60) ++
    "Z"

end PokerHand.Moment
