import GridSecurity.Ber
import GridSecurity.Calendar

/-!
# Times in certificates

The validity of a certificate is bounded by two times.  A short form has years
of two digits and may give its distance from universal time; a long form has
years of four digits and may give fractions of a second, which are dropped.
Both may leave the seconds out directly before the letter that ends them.
-/

namespace GridSecurity.CertificateTime

def digit? (octet : UInt8) : Option Nat :=
  if 48 ≤ octet.toNat ∧ octet.toNat ≤ 57 then some (octet.toNat - 48) else none

def readTwoDigits : Octets → Option (Nat × Octets)
  | tens :: units :: rest => do
      let high ← digit? tens
      let low ← digit? units
      return (high * 10 + low, rest)
  | _ => none

/-- The seconds at the front; they may be missing where at most one octet
follows. -/
def readSeconds : Octets → Option (Nat × Octets)
  | input@(_ :: _ :: _) => readTwoDigits input
  | [ending] => some (0, [ending])
  | [] => none

/-- The octet that ends a time in universal time. -/
def universal : UInt8 := 90

/-- The octets that may stand in a time. -/
def isVisible (octet : UInt8) : Bool :=
  32 ≤ octet.toNat && octet.toNat ≤ 127

/-- The seconds that a local time is ahead of universal time.  The sign
applies to hours and minutes, but hours of zero have none to give. -/
def readOffset : Octets → Option Int
  | [ending] => if ending == universal then some 0 else none
  | sign :: hoursAndMinutes => do
      let (hours, afterHours) ← readTwoDigits hoursAndMinutes
      let (minutes, rest) ← readTwoDigits afterHours
      if rest ≠ [] ∨ 25 < hours ∨ 59 < minutes then none
      else
        let distance : Int := (hours * 3600 + minutes * 60 : Nat)
        if sign = 43 then some distance
        else if sign = 45 then some (if hours = 0 then distance else -distance)
        else none
  | [] => none

/-- The five parts of two digits from the month to the minute. -/
structure Fields where
  month : Nat
  day : Nat
  hour : Nat
  minute : Nat
  second : Nat

def readFields (input : Octets) : Option (Fields × Octets) := do
  let (month, afterMonth) ← readTwoDigits input
  let (day, afterDay) ← readTwoDigits afterMonth
  let (hour, afterHour) ← readTwoDigits afterDay
  let (minute, afterMinute) ← readTwoDigits afterHour
  let (second, rest) ← readSeconds afterMinute
  return (⟨month, day, hour, minute, second⟩, rest)

/-- The seconds from 1970 to a calendar time. -/
def unix? (year : Nat) (fields : Fields) : Option Int := do
  let time ← DateTime.ofParts? year fields.month fields.day fields.hour
    fields.minute fields.second
  return time.toUnix

/-- The short form; years from 50 on belong to the twentieth century. -/
def unixOfShort? (content : Octets) : Option Int := do
  if content.all isVisible then
    let (shortYear, afterYear) ← readTwoDigits content
    let (fields, zone) ← readFields afterYear
    let ahead ← readOffset zone
    let year := if 50 ≤ shortYear then 1900 + shortYear else 2000 + shortYear
    let unix ← unix? year fields
    return unix - ahead
  else none

/-- A fraction of at most three digits and the octet that ends the time. -/
def isFractionEnd (digitsLeft : Nat) : Octets → Bool
  | [] => false
  | [ending] => ending == universal
  | octet :: rest =>
      match digitsLeft with
      | 0 => false
      | left + 1 => (digit? octet).isSome && isFractionEnd left rest

/-- What may follow the seconds of the long form. -/
def isLongEnd : Octets → Bool
  | [ending] => ending == universal
  | point :: rest => point == 46 && isFractionEnd 3 rest
  | [] => false

def unixOfLong? (content : Octets) : Option Int := do
  if content.all isVisible then
    let (century, afterCentury) ← readTwoDigits content
    let (yearOfCentury, afterYear) ← readTwoDigits afterCentury
    let (fields, ending) ← readFields afterYear
    if isLongEnd ending then unix? (century * 100 + yearOfCentury) fields
    else none
  else none

/-- The time at the front in seconds from 1970. -/
def read (input : Octets) : Option (Int × Octets) := do
  let (element, rest) ← Ber.readElement input
  let unix ←
    if element.tag.number = Ber.utcTimeNumber then unixOfShort? element.content
    else if element.tag.number = Ber.generalizedTimeNumber then
      unixOfLong? element.content
    else none
  return (unix, rest)

end GridSecurity.CertificateTime
