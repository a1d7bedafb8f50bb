import GridSecurity.Text.Digits

/-!
# Addresses of peers

An address is one of four octets or of eight groups of sixteen bits, with a
port.  Every address has one text; reading accepts all usual texts of it.
-/

namespace GridSecurity

inductive SocketAddress
  | v4 (octets : List Nat) (port : Nat)
  | v6 (groups : List Nat) (zone port : Nat)
  deriving DecidableEq, Repr

namespace SocketAddress

/-- Octets in decimal with points between them. -/
def octetsText (octets : List Nat) : String :=
  ".".intercalate (octets.map Nat.repr)

/-- A group in hexadecimal digits without leading zeros. -/
def groupText (group : Nat) : String :=
  String.ofList (Nat.toDigits 16 group)

def groupsText (groups : List Nat) : String :=
  ":".intercalate (groups.map groupText)

def leadingZeros (groups : List Nat) : Nat :=
  (groups.takeWhile (· == 0)).length

/-- The position and the length of the first of the longest runs of zero
groups, the groups being those from a position on. -/
def longestZeroRun (position : Nat) : List Nat → Nat × Nat
  | [] => (position, 0)
  | group :: rest =>
      let here := leadingZeros (group :: rest)
      let later := longestZeroRun (position + 1) rest
      if later.2 ≤ here then (position, here) else later

/-- The text of eight groups: addresses of four octets that are mapped into
them keep their form, and the first longest run of at least two zero groups is
left out. -/
def v6Text (groups : List Nat) : String :=
  match groups with
  | [0, 0, 0, 0, 0, 0xffff, high, low] =>
      "::ffff:" ++ octetsText [high / 256, high % 256, low / 256, low % 256]
  | _ =>
      let (position, length) := longestZeroRun 0 groups
      if 2 ≤ length then
        groupsText (groups.take position) ++ "::"
          ++ groupsText (groups.drop (position + length))
      else groupsText groups

def text : SocketAddress → String
  | v4 octets port => octetsText octets ++ ":" ++ Nat.repr port
  | v6 groups zone port =>
      let zoneText := if zone = 0 then "" else "%" ++ Nat.repr zone
      "[" ++ v6Text groups ++ zoneText ++ "]:" ++ Nat.repr port

/-- The value that digits to a base extend, and what follows the digits. -/
def readDigitsFrom (base value : Nat) : List Char → Nat × List Char
  | [] => (value, [])
  | character :: rest =>
      match Text.digitValue? base character with
      | some digit => readDigitsFrom base (value * base + digit) rest
      | none => (value, character :: rest)

/-- The number at the front, of at least one digit, below a bound.  At most
the given number of digits is read where one is given. -/
def readNumber (base bound : Nat) (most : Option Nat) (input : List Char) :
    Option (Nat × List Char) :=
  let (value, rest) := readDigitsFrom base 0 input
  let count := input.length - rest.length
  if count = 0 ∨ bound ≤ value ∨ most.any (fun limit => decide (limit < count)) then none
  else some (value, rest)

def readChar (expected : Char) : List Char → Option (List Char)
  | [] => none
  | character :: rest => if character = expected then some rest else none

/-- One of four octets: no leading zero before another digit. -/
def readOctet (input : List Char) : Option (Nat × List Char) := do
  let (value, rest) ← readNumber 10 256 (some 3) input
  if input.head? = some '0' ∧ 1 < input.length - rest.length then none
  else some (value, rest)

def readOctets (input : List Char) : Option (List Nat × List Char) := do
  let (a, afterA) ← readOctet input
  let (b, afterB) ← readOctet (← readChar '.' afterA)
  let (c, afterC) ← readOctet (← readChar '.' afterB)
  let (d, rest) ← readOctet (← readChar '.' afterC)
  return ([a, b, c, d], rest)

/-- What follows a separator, which stands before all parts but the first. -/
def skipSeparator (isFirst : Bool) (input : List Char) : Option (List Char) :=
  if isFirst then some input else readChar ':' input

/-- At most the given number of groups.  Four octets may stand for the last two
of them and end the reading; the mark tells whether they did. -/
def readGroups (isFirst : Bool) : (most : Nat) → List Char → List Nat × Bool × List Char
  | 0, input => ([], false, input)
  | most + 1, input =>
      let octets? := do
        if most = 0 then none else readOctets (← skipSeparator isFirst input)
      match octets? with
      | some ([a, b, c, d], rest) => ([a * 256 + b, c * 256 + d], true, rest)
      | _ =>
          let group? := do
            readNumber 16 65536 (some 4) (← skipSeparator isFirst input)
          match group? with
          | none => ([], false, input)
          | some (group, rest) =>
              let (groups, mapped, remaining) := readGroups false most rest
              (group :: groups, mapped, remaining)

/-- Eight groups, of which a run of zeros may be left out. -/
def readV6 (input : List Char) : Option (List Nat × List Char) := do
  let (front, mapped, rest) := readGroups true 8 input
  if front.length = 8 then some (front, rest)
  else if mapped then none
  else
    let afterMark ← readChar ':' (← readChar ':' rest)
    let (back, _, remaining) := readGroups true (7 - front.length) afterMark
    let zeros := List.replicate (8 - front.length - back.length) 0
    return (front ++ zeros ++ back, remaining)

def readPort (input : List Char) : Option (Nat × List Char) := do
  readNumber 10 65536 none (← readChar ':' input)

def ofText? (text : String) : Option SocketAddress :=
  let input := text.toList
  let v4? := do
    let (octets, rest) ← readOctets input
    let (port, ending) ← readPort rest
    if ending.isEmpty then some (v4 octets port) else none
  let v6? := do
    let (groups, afterGroups) ← readV6 (← readChar '[' input)
    let (zone, afterZone) ←
      match readChar '%' afterGroups with
      | some zoned => readNumber 10 4294967296 none zoned
      | none => some (0, afterGroups)
    let (port, ending) ← readPort (← readChar ']' afterZone)
    if ending.isEmpty then some (v6 groups zone port) else none
  v4?.orElse fun _ => v6?

end SocketAddress

end GridSecurity
