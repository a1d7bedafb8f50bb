import GridSecurity.Calendar

/-!
# Instants

An instant is a point of time inside the range of years that every consumer of
attributes can represent.  It is counted in seconds from the beginning of 1970
and in nanoseconds inside its second.
-/

namespace GridSecurity

structure Instant where
  seconds : Int
  nanoseconds : Nat
  deriving DecidableEq, Repr

namespace Instant

/-- The first representable second, the beginning of the year -262143. -/
def firstSecond : Int := (daysBeforeYear (-262143) - daysBeforeYear 1970) * 86400

/-- The last representable second, the end of the year 262142. -/
def lastSecond : Int := (daysBeforeYear 262143 - daysBeforeYear 1970) * 86400 - 1

def earliest : Instant := ⟨firstSecond, 0⟩

def latest : Instant := ⟨lastSecond, 999999999⟩

/-- The beginning of a second counted from 1970, if it is in the range. -/
def ofUnix? (seconds : Int) : Option Instant :=
  if firstSecond ≤ seconds ∧ seconds ≤ lastSecond then some ⟨seconds, 0⟩ else none

/-- The decimal digits of a number, filled up with zeros on the left. -/
def padded (width value : Nat) : String :=
  let digits := Nat.repr value
  String.ofList (List.replicate (width - digits.length) '0') ++ digits

/-- A year has at least four digits, and a sign outside 0 to 9999. -/
def yearText (year : Int) : String :=
  if year < 0 then "-" ++ padded 4 (-year).toNat
  else if 9999 < year then "+" ++ padded 4 year.toNat
  else padded 4 year.toNat

/-- The fraction of a second in as few groups of three digits as hold it. -/
def fractionText (nanoseconds : Nat) : String :=
  if nanoseconds = 0 then ""
  else if nanoseconds % 1000000 = 0 then "." ++ padded 3 (nanoseconds / 1000000)
  else if nanoseconds % 1000 = 0 then "." ++ padded 6 (nanoseconds / 1000)
  else "." ++ padded 9 nanoseconds

/-- The date and time of day in universal time, as `2025-06-01T00:00:00Z`. -/
def text (instant : Instant) : String :=
  let (year, month, day) := civilOfDays (instant.seconds / 86400)
  let secondOfDay := (instant.seconds % 86400).toNat
  yearText year ++ "-" ++ padded 2 month ++ "-" ++ padded 2 day
    ++ "T" ++ padded 2 (secondOfDay / 3600)
    ++ ":" ++ padded 2 (secondOfDay / 60 % 60)
    ++ ":" ++ padded 2 (secondOfDay % 60)
    ++ fractionText instant.nanoseconds ++ "Z"

end Instant

end GridSecurity
