import GraphClient.Time.Calendar

/-!
# Moments in a pattern

`Moment.format` writes a moment in place of the directives of a pattern: a percent sign, flags
and a letter. Names are English, the time zone is that of Greenwich. What is no directive stays.
-/

namespace GraphClient.Moment

def weekdayNames : List String :=
  ["Sunday", "Monday", "Tuesday", "Wednesday", "Thursday", "Friday", "Saturday"]

def monthNames : List String :=
  ["January", "February", "March", "April", "May", "June", "July", "August", "September",
   "October", "November", "December"]

/-- The number of days of a year. -/
def daysInYear (year : Int) : Nat := if isLeap year then 366 else 365

/-- The day of the week from zero for Monday. -/
def mondayWeekday (m : Moment) : Nat := (m.weekday + 6) % 7

/-- The number of the week within the year, the first one being that with the year's first day of
the given place in the week. -/
def weekFrom (m : Moment) (weekday : Nat) : Nat := (m.yearDay + 7 - weekday) / 7

/-- Year and week where a week belongs to the year that has its Thursday. -/
def thursdayWeek (m : Moment) : Int × Nat :=
  let thursday : Int := m.yearDay + 3 - m.mondayWeekday
  if thursday < 0 then
    (m.year - 1, ((thursday + daysInYear (m.year - 1)) / 7 + 1).toNat)
  else if daysInYear m.year ≤ thursday then
    (m.year + 1, ((thursday - daysInYear m.year) / 7 + 1).toNat)
  else (m.year, (thursday / 7 + 1).toNat)

/-- The hour on a clock with twelve hours. -/
def clockHour (m : Moment) : Nat := (m.hour + 11) % 12 + 1

/-- Hour and minute. -/
def hourMinute (m : Moment) : String := two m.hour ++ ":" ++ two m.minute

/-- The time of day. -/
def clock (m : Moment) : String := m.hourMinute ++ ":" ++ two m.second

/-- Half of the day. -/
def half (m : Moment) : String := if m.hour < 12 then "AM" else "PM"

/-- Month, day and year, the latter by its last two digits. -/
def shortDate (m : Moment) : String :=
  two m.month ++ "/" ++ two m.day ++ "/" ++ two (m.year % 100).toNat

def weekdayName (m : Moment) : String := weekdayNames.getD m.weekday ""

def monthName (m : Moment) : String := monthNames.getD (m.month - 1) ""

/-- The first three letters of a name. -/
def short (name : String) : String := String.ofList (name.toList.take 3)

/-- Day of the week, date and time of day. -/
def full (m : Moment) : String :=
  short m.weekdayName ++ " " ++ short m.monthName ++ " " ++ padded 2 m.day ' ' ++ " " ++ m.clock
    ++ " " ++ toString m.year

/-- What a letter stands for: a number with its width and what fills it up, or a text. -/
inductive Part where
  | number (n : Int) (width : Nat) (fill : Char)
  | text (s : String)

/-- The part of a moment for a letter. -/
def part? (m : Moment) : Char → Option Part
  | 'Y' => some (.number m.year 1 '0')
  | 'C' => some (.number (m.year / 100) 1 '0')
  | 'y' => some (.number (m.year % 100) 2 '0')
  | 'm' => some (.number m.month 2 '0')
  | 'd' => some (.number m.day 2 '0')
  | 'e' => some (.number m.day 2 ' ')
  | 'H' => some (.number m.hour 2 '0')
  | 'k' => some (.number m.hour 2 ' ')
  | 'I' => some (.number m.clockHour 2 '0')
  | 'l' => some (.number m.clockHour 2 ' ')
  | 'M' => some (.number m.minute 2 '0')
  | 'S' => some (.number m.second 2 '0')
  | 'j' => some (.number (m.yearDay + 1) 3 '0')
  | 'w' => some (.number m.weekday 1 '0')
  | 'u' => some (.number (m.mondayWeekday + 1) 1 '0')
  | 'U' => some (.number (m.weekFrom m.weekday) 2 '0')
  | 'W' => some (.number (m.weekFrom m.mondayWeekday) 2 '0')
  | 'V' => some (.number m.thursdayWeek.2 2 '0')
  | 'G' => some (.number m.thursdayWeek.1 1 '0')
  | 'g' => some (.number (m.thursdayWeek.1 % 100) 2 '0')
  | 's' => some (.number m.seconds 1 '0')
  | 'A' => some (.text m.weekdayName)
  | 'a' => some (.text (short m.weekdayName))
  | 'B' => some (.text m.monthName)
  | 'b' | 'h' => some (.text (short m.monthName))
  | 'p' => some (.text m.half)
  | 'P' => some (.text m.half.toLower)
  | 'Z' => some (.text "UTC")
  | 'z' => some (.text "+0000")
  | 'n' => some (.text "\n")
  | 't' => some (.text "\t")
  | '%' => some (.text "%")
  | 'D' | 'x' => some (.text m.shortDate)
  | 'F' => some (.text (toString m.year ++ "-" ++ two m.month ++ "-" ++ two m.day))
  | 'T' | 'X' => some (.text m.clock)
  | 'R' => some (.text m.hourMinute)
  | 'r' =>
    some (.text (two m.clockHour ++ ":" ++ two m.minute ++ ":" ++ two m.second ++ " " ++ m.half))
  | 'c' => some (.text m.full)
  | _ => none

/-- A number of a width, filled up as the last of the flags says. -/
def writeNumber (flags : List Char) (n : Int) (width : Nat) (fill : Char) : String :=
  let digits := toString n.natAbs
  let fill? := match flags.getLast? with
    | some '-' => none
    | some '_' => some ' '
    | some '0' => some '0'
    | _ => some fill
  let sign := if n < 0 then "-" else ""
  match fill? with
  | none => sign ++ digits
  | some c => sign ++ String.ofList (List.replicate (width - digits.length) c) ++ digits

/-- What follows a percent sign: flags, a letter that may choose another form, and a letter. -/
def readLetter (cs : List Char) : List Char × Option Char × List Char :=
  let flags := cs.takeWhile "_-0^#".toList.contains
  let rest := cs.dropWhile "_-0^#".toList.contains
  match rest with
  | 'E' :: c :: more | 'O' :: c :: more => (flags, some c, more)
  | c :: more => (flags, some c, more)
  | [] => (flags, none, [])

/-- A part with flags. -/
def Part.write (flags : List Char) : Part → String
  | .number n width fill => writeNumber flags n width fill
  | .text s => if flags.contains '^' then s.toUpper else s

/-- Writes a pattern whose first `skip` characters belong to a directive already. -/
def formatFrom (m : Moment) : Nat → List Char → String
  | _, [] => ""
  | skip + 1, _ :: cs => formatFrom m skip cs
  | 0, c :: cs =>
    if c = '%' then
      let (flags, letter?, rest) := readLetter cs
      let length := cs.length - rest.length
      let written := match letter?.bind m.part? with
        | some part => part.write flags
        | none => String.ofList (c :: cs.take length)
      written ++ formatFrom m length cs
    else String.singleton c ++ formatFrom m 0 cs

/-- A moment in a pattern. -/
def format (m : Moment) (pattern : String) : String := formatFrom m 0 pattern.toList

end GraphClient.Moment
