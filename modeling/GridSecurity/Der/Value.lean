import GridSecurity.Calendar
import GridSecurity.Der.Element

/-!
# Primitive values of the distinguished encoding

Each type holds what its content may be, so that writing a value and reading
it again never fails.
-/

namespace GridSecurity.Der

/-- Whether octets are arcs of an identifier, of which `pending` octets of an
unfinished arc have been read.  An arc has at most four octets, or five of
which the last has no high bits. -/
def areArcs (pending : Nat) : Octets → Bool
  | [] => pending == 0
  | octet :: rest =>
      if pending = 4 then octet.toNat < 16 && areArcs 0 rest
      else if octet.toNat < 128 then areArcs 0 rest
      else areArcs (pending + 1) rest

/-- The contents of identifiers: from 3 to 39 octets, of which the first holds
two arcs. -/
def isIdentifierContent (content : Octets) : Bool :=
  match content with
  | [] => false
  | first :: rest =>
      3 ≤ content.length && content.length ≤ 39 && first.toNat < 120
        && areArcs 0 rest

structure Identifier where
  content : Octets
  valid : isIdentifierContent content = true
  deriving DecidableEq, Repr

namespace Identifier

/-- The values of arcs, of which the low 32 bits count. -/
def arcs (value : Nat) : Octets → List Nat
  | [] => []
  | octet :: rest =>
      let extended := (value * 128 + octet.toNat % 128) % 4294967296
      if octet.toNat < 128 then extended :: arcs 0 rest else arcs extended rest

/-- The arcs with points between them. -/
def dotted (identifier : Identifier) : String :=
  match identifier.content with
  | [] => ""
  | first :: rest =>
      ".".intercalate
        ((first.toNat / 40 :: first.toNat % 40 :: arcs 0 rest).map Nat.repr)

def ofContent? (content : Octets) : Option Identifier :=
  if valid : isIdentifierContent content = true then some ⟨content, valid⟩ else none

def ofElement? (element : Element) : Option Identifier :=
  (element.content? identifierTag).bind ofContent?

def toElement (identifier : Identifier) : Element :=
  ⟨identifierTag, identifier.content, rfl⟩

end Identifier

/-- The contents that write a signed number in as few octets as possible. -/
def isShortestInteger : Octets → Bool
  | [] => false
  | [_] => true
  | first :: second :: _ =>
      !(first == 0 && second.toNat < 128) && !(first == 255 && 128 ≤ second.toNat)

/-- A serial number, at most 21 octets of a signed number. -/
structure SerialContent where
  content : Octets
  valid : isShortestInteger content = true ∧ content.length ≤ 21
  deriving DecidableEq, Repr

namespace SerialContent

def ofElement? (element : Element) : Option SerialContent := do
  let content ← element.content? integerTag
  if valid : isShortestInteger content = true ∧ content.length ≤ 21 then
    some ⟨content, valid⟩
  else none

def toElement (serial : SerialContent) : Element :=
  ⟨integerTag, serial.content, rfl⟩

end SerialContent

def smallNumber? (element : Element) : Option UInt8 := do
  match ← element.content? integerTag with
  | [low] => if low.toNat < 128 then some low else none
  | [high, low] => if high = 0 ∧ 128 ≤ low.toNat then some low else none
  | _ => none

def smallNumber (number : UInt8) : Element :=
  ⟨integerTag, if number.toNat < 128 then [number] else [0, number], rfl⟩

def boolean? (element : Element) : Option Bool := do
  match ← element.content? booleanTag with
  | [octet] => if octet = 0 then some false else if octet = 255 then some true else none
  | _ => none

def boolean (value : Bool) : Element :=
  ⟨booleanTag, [if value then 255 else 0], rfl⟩

def octetString? (element : Element) : Option Octets :=
  element.content? octetStringTag

def octetString (octets : Octets) : Element :=
  ⟨octetStringTag, octets, rfl⟩

/-- A string of bits, of which the last octet leaves some unused. -/
structure BitString where
  unused : UInt8
  octets : Octets
  valid : unused.toNat ≤ 7 ∧ (octets = [] → unused = 0)
  deriving DecidableEq, Repr

namespace BitString

def ofElement? (element : Element) : Option BitString := do
  match ← element.content? bitStringTag with
  | [] => none
  | unused :: octets =>
      if valid : unused.toNat ≤ 7 ∧ (octets = [] → unused = 0) then
        some ⟨unused, octets, valid⟩
      else none

def toElement (bits : BitString) : Element :=
  ⟨bitStringTag, bits.unused :: bits.octets, rfl⟩

end BitString

structure AsciiText where
  octets : Octets
  valid : octets.all (fun octet => octet.toNat < 128) = true
  deriving DecidableEq, Repr

namespace AsciiText

def ofOctets? (octets : Octets) : Option AsciiText :=
  if valid : octets.all (fun octet => octet.toNat < 128) = true then
    some ⟨octets, valid⟩
  else none

def characters (text : AsciiText) : List Char :=
  text.octets.map fun octet => Char.ofNat octet.toNat

end AsciiText

/-- The years that a time of the distinguished encoding may lie in. -/
def isTimeYear (year : Int) : Prop := 1970 ≤ year ∧ year ≤ 9999

instance (year : Int) : Decidable (isTimeYear year) :=
  inferInstanceAs (Decidable (_ ∧ _))

/-- A time in whole seconds of universal time. -/
structure Time where
  dateTime : DateTime
  valid : isTimeYear dateTime.date.year
  deriving DecidableEq, Repr

namespace Time

/-- The decimal digits of a number at the given number of places. -/
def digits : (places value : Nat) → Octets
  | 0, _ => []
  | places + 1, value => digits places (value / 10) ++ [UInt8.ofNat (48 + value % 10)]

/-- The number that decimal digits write. -/
def numberOfDigits? (octets : Octets) : Option Nat :=
  octets.foldlM (fun value octet =>
    if 48 ≤ octet.toNat ∧ octet.toNat ≤ 57 then some (value * 10 + (octet.toNat - 48))
    else none) 0

/-- The decimal number at the front with the given number of places. -/
def readDigits (places : Nat) (input : Octets) : Option (Nat × Octets) := do
  let (octets, rest) ← Octets.take? places input
  let value ← numberOfDigits? octets
  return (value, rest)

/-- The time in an element: year, month, day, hour, minute and second in
decimal digits and a final letter. -/
def ofElement? (element : Element) : Option Time := do
  let content ← element.content? timeTag
  let (year, afterYear) ← readDigits 4 content
  let (month, afterMonth) ← readDigits 2 afterYear
  let (day, afterDay) ← readDigits 2 afterMonth
  let (hour, afterHour) ← readDigits 2 afterDay
  let (minute, afterMinute) ← readDigits 2 afterHour
  let (second, ending) ← readDigits 2 afterMinute
  let dateTime ← DateTime.ofParts? year month day hour minute second
  if valid : isTimeYear dateTime.date.year then
    if ending = [90] then some ⟨dateTime, valid⟩ else none
  else none

def toElement (time : Time) : Element :=
  let date := time.dateTime.date
  ⟨timeTag, digits 4 date.year.toNat ++ digits 2 date.month ++ digits 2 date.day
    ++ digits 2 time.dateTime.hour ++ digits 2 time.dateTime.minute
    ++ digits 2 time.dateTime.second ++ [90], rfl⟩

/-- The seconds from the beginning of 1970. -/
def toUnix (time : Time) : Int := time.dateTime.toUnix

end Time

end GridSecurity.Der
