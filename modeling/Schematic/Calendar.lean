/-!
# Points in time

A point in time is a number of seconds since the start of 1970. It is written in universal time,
the way mail headers are dated.
-/

namespace Schematic.Calendar

structure Date where
  year : Nat
  /-- January is 1. -/
  month : Nat
  day : Nat
deriving DecidableEq, Inhabited

/-- Days from the first of March of year 0 to the start of 1970. -/
def epochDays : Nat := 719468

/-- The date of a day, counted from the start of 1970. Years are counted from March here, so
that the day a leap year adds is the last one. -/
def dateOf (days : Nat) : Date :=
  let n := days + epochDays
  let era := n / 146097
  let dayOfEra := n % 146097
  let yearOfEra := (dayOfEra - dayOfEra / 1460 + dayOfEra / 36524 - dayOfEra / 146096) / 365
  let dayOfYear := dayOfEra - (365 * yearOfEra + yearOfEra / 4 - yearOfEra / 100)
  let fromMarch := (5 * dayOfYear + 2) / 153
  let month := if fromMarch < 10 then fromMarch + 3 else fromMarch - 9
  { year := yearOfEra + era * 400 + (if month ≤ 2 then 1 else 0)
    month := month
    day := dayOfYear - (153 * fromMarch + 2) / 5 + 1 }

def monthName (month : Nat) : String :=
  let names :=
    ["Jan", "Feb", "Mar", "Apr", "May", "Jun", "Jul", "Aug", "Sep", "Oct", "Nov", "Dec"]
  (names[month - 1]?).getD ""

/-- The day of the week; 1970 started on a Thursday. -/
def weekdayName (days : Nat) : String :=
  (["Thu", "Fri", "Sat", "Sun", "Mon", "Tue", "Wed"][days % 7]?).getD ""

/-- At least two digits. -/
def twoDigits (n : Nat) : String := if n < 10 then "0" ++ toString n else toString n

/-- A point in time as text. -/
def text (seconds : Nat) : String :=
  let days := seconds / 86400
  let inDay := seconds % 86400
  let date := dateOf days
  weekdayName days ++ ", " ++ toString date.day ++ " " ++ monthName date.month ++ " " ++
    toString date.year ++ " " ++ twoDigits (inDay / 3600) ++ ":" ++ twoDigits (inDay / 60 % 60) ++
    ":" ++ twoDigits (inDay % 60) ++ " +0000"

end Schematic.Calendar
