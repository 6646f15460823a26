import GraphClient.Binary64

/-!
# Dates and times

`Moment.ofSeconds` is the date and the time of day of a count of seconds since the start of 1970,
in the calendar with a leap year in every fourth year but three out of four centuries.
`Moment.iso` writes a moment with its parts from large to small.
-/

namespace GraphClient

/-- A date and a time of day. Days of the year count from zero, days of the week from zero for
Sunday. -/
structure Moment where
  year : Int
  month : Nat
  day : Nat
  hour : Nat
  minute : Nat
  second : Nat
  weekday : Nat
  yearDay : Nat
  seconds : Int
deriving DecidableEq, Inhabited

namespace Moment

def secondsPerDay : Int := 86400

/-- The days of four hundred years. -/
def daysPerEra : Int := 146097

/-- The days from the first of March of year zero to the start of 1970. -/
def marchOffset : Int := 719468

/-- A day of an era as a year of it and a day of that year, years starting in March. -/
def yearOfEra (day : Nat) : Nat × Nat :=
  let year := (day - day / 1460 + day / 36524 - day / 146096) / 365
  (year, day - (365 * year + year / 4 - year / 100))

/-- Year, month and day of a count of days since the start of 1970. -/
def dateOf (days : Int) : Int × Nat × Nat :=
  let shifted := days + marchOffset
  let (year, day) := yearOfEra (shifted % daysPerEra).toNat
  let month := (5 * day + 2) / 153
  let year : Int := year + 400 * (shifted / daysPerEra)
  (if month < 10 then year else year + 1, if month < 10 then month + 3 else month - 9,
    day - (153 * month + 2) / 5 + 1)

/-- Whether a year has the 29th of February. -/
def isLeap (year : Int) : Bool := year % 4 = 0 && (year % 100 ≠ 0 || year % 400 = 0)

/-- The days of a year before each of its months. -/
def daysBefore (year : Int) (month : Nat) : Nat :=
  let plain := [0, 31, 59, 90, 120, 151, 181, 212, 243, 273, 304, 334].getD (month - 1) 0
  if 2 < month && isLeap year then plain + 1 else plain

/-- The moment of a count of seconds since the start of 1970. -/
def ofSeconds (seconds : Int) : Moment :=
  let days := seconds / secondsPerDay
  let rest := (seconds % secondsPerDay).toNat
  let (year, month, day) := dateOf days
  { year, month, day, seconds
    hour := rest / 3600
    minute := rest / 60 % 60
    second := rest % 60
    weekday := ((days + 4) % 7).toNat
    yearDay := daysBefore year month + day - 1 }

/-- A natural with at least so many digits. -/
def padded (width n : Nat) (fill : Char) : String :=
  let digits := toString n
  String.ofList (List.replicate (width - digits.length) fill) ++ digits

/-- Two digits. -/
def two (n : Nat) : String := padded 2 n '0'

/-- Date and time of day, then the millionths of a second if there are any. -/
def iso (m : Moment) (millionths : Nat) : String :=
  padded 4 m.year.toNat '0' ++ "-" ++ two m.month ++ "-" ++ two m.day ++ "T" ++ two m.hour ++ ":"
    ++ two m.minute ++ ":" ++ two m.second
    ++ (if millionths = 0 then "" else "." ++ padded 6 millionths '0')

end Moment

namespace Timestamp

/-- The greatest whole number of seconds up to a finite time. -/
def floor? (t : Binary64) : Option Int := t.toRat?.map Rat.floor

/-- A rational rounded to the nearest integer, a tie to the even one. -/
def roundEven (q : Rat) : Int :=
  let n : Int := roundDiv q.num.natAbs q.den
  if q.num < 0 then -n else n

/-- A finite time in whole seconds and millionths, rounded to the nearest millionth. -/
def split? (t : Binary64) : Option (Int × Nat) := do
  let whole ← t.truncate?
  let q ← t.toRat?
  let fraction ← ((Binary64.ofRat (q - whole)).mul (Binary64.ofInt 1000000)).toRat?
  let millionths := whole * 1000000 + roundEven fraction
  return (millionths / 1000000, (millionths % 1000000).toNat)

/-- The thousandths of a second of a finite time behind its whole seconds, cut off. -/
def thousandths (t : Binary64) : Int :=
  (do
    let whole ← t.truncate?
    let q ← t.toRat?
    ((Binary64.ofRat (q - whole)).mul (Binary64.ofInt 1000)).truncate?).getD 0

end Timestamp

end GraphClient
