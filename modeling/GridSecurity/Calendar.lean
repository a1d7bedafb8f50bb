/-!
# Calendar dates and times of day

Dates of the Gregorian calendar are counted as days since the first of January
1970.  Years run in both directions without end, so the rule of leap years is
applied to the past as well.
-/

namespace GridSecurity

def isLeapYear (year : Int) : Bool :=
  year % 4 == 0 && (year % 100 != 0 || year % 400 == 0)

/-- The length of a month, counted from one. -/
def daysInMonth (year : Int) (month : Nat) : Nat :=
  match month with
  | 1 | 3 | 5 | 7 | 8 | 10 | 12 => 31
  | 4 | 6 | 9 | 11 => 30
  | 2 => if isLeapYear year then 29 else 28
  | _ => 0

/-- The days of a year before its given month. -/
def daysBeforeMonth (year : Int) : Nat → Nat
  | 0 => 0
  | month + 1 => daysBeforeMonth year month + daysInMonth year month

/-- The days before a year, counted from the first day of the year zero. -/
def daysBeforeYear (year : Int) : Int :=
  365 * year + (year + 3) / 4 - (year + 99) / 100 + (year + 399) / 400

structure CalendarDate where
  year : Int
  month : Nat
  day : Nat
  isDay : 1 ≤ day ∧ day ≤ daysInMonth year month
  deriving DecidableEq, Repr

namespace CalendarDate

/-- The date with the given year, month and day, if the calendar has it. -/
def ofParts? (year : Int) (month day : Nat) : Option CalendarDate :=
  if isDay : 1 ≤ day ∧ day ≤ daysInMonth year month then
    some { year, month, day, isDay }
  else none

/-- The days from the first of January 1970 to a date. -/
def toDays (date : CalendarDate) : Int :=
  daysBeforeYear date.year + daysBeforeMonth date.year date.month
    + (date.day : Int) - 1 - daysBeforeYear 1970

end CalendarDate

/-- A second of a day of the calendar. -/
structure DateTime where
  date : CalendarDate
  hour : Nat
  minute : Nat
  second : Nat
  isTime : hour < 24 ∧ minute < 60 ∧ second < 60
  deriving DecidableEq, Repr

namespace DateTime

/-- The second with the given parts, if the calendar and the clock have it. -/
def ofParts? (year : Int) (month day hour minute second : Nat) :
    Option DateTime := do
  let date ← CalendarDate.ofParts? year month day
  if isTime : hour < 24 ∧ minute < 60 ∧ second < 60 then
    some { date, hour, minute, second, isTime }
  else none

/-- The seconds from the beginning of 1970. -/
def toUnix (time : DateTime) : Int :=
  time.date.toDays * 86400 + (time.hour : Int) * 3600
    + (time.minute : Int) * 60 + (time.second : Int)

end DateTime

/-- The year, month and day that begin the given number of days after the
first of January 1970. -/
def civilOfDays (days : Int) : Int × Nat × Nat :=
  let shifted := days + 719468
  let era := shifted / 146097
  let dayOfEra := (shifted % 146097).toNat
  let yearOfEra :=
    (dayOfEra - dayOfEra / 1460 + dayOfEra / 36524 - dayOfEra / 146096) / 365
  let dayOfYear :=
    dayOfEra - (365 * yearOfEra + yearOfEra / 4 - yearOfEra / 100)
  let shiftedMonth := (5 * dayOfYear + 2) / 153
  let day := dayOfYear - (153 * shiftedMonth + 2) / 5 + 1
  let month := if shiftedMonth < 10 then shiftedMonth + 3 else shiftedMonth - 9
  let year := era * 400 + (yearOfEra : Int)
  (if month ≤ 2 then year + 1 else year, month, day)

end GridSecurity
