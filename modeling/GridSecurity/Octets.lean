/-!
# Octet strings

Encodings, keys, digests and file contents are lists of octets.  This module
reads them as big-endian numbers, with and without sign, orders them, and
writes and reads their hexadecimal form.
-/

namespace GridSecurity

abbrev Octets := List UInt8

namespace Octets

/-- The number whose big-endian digits in base 256 are the given octets. -/
def toNat (octets : Octets) : Nat :=
  octets.foldl (fun value octet => value * 256 + octet.toNat) 0

/-- The number written in two's complement; no octets write zero. -/
def toInt (octets : Octets) : Int :=
  match octets with
  | [] => 0
  | first :: _ =>
      if first.toNat < 128 then toNat octets
      else (toNat octets : Int) - (Nat.pow 256 octets.length : Nat)

/-- The last `width` big-endian digits of a number in base 256. -/
def ofNat : (width value : Nat) → Octets
  | 0, _ => []
  | width + 1, value => ofNat width (value / 256) ++ [UInt8.ofNat (value % 256)]

/-- An octet string without its leading zero octets. -/
def trimLeadingZeros (octets : Octets) : Octets :=
  octets.dropWhile (· == 0)

def hexDigit (digit : Nat) : Char :=
  if digit < 10 then Char.ofNat (48 + digit) else Char.ofNat (87 + digit)

def hexDigitValue? (character : Char) : Option Nat :=
  let code := character.toNat
  if 48 ≤ code ∧ code ≤ 57 then some (code - 48)
  else if 97 ≤ code ∧ code ≤ 102 then some (code - 87)
  else if 65 ≤ code ∧ code ≤ 70 then some (code - 55)
  else none

/-- Two hexadecimal digits for every octet, in lower case. -/
def hexDigits (octets : Octets) : List Char :=
  octets.flatMap fun octet =>
    [hexDigit (octet.toNat / 16), hexDigit (octet.toNat % 16)]

def hex (octets : Octets) : String :=
  String.ofList (hexDigits octets)

/-- The octets whose hexadecimal digits are given in pairs. -/
def ofHexDigits? : List Char → Option Octets
  | [] => some []
  | [_] => none
  | high :: low :: rest => do
      let highValue ← hexDigitValue? high
      let lowValue ← hexDigitValue? low
      let octets ← ofHexDigits? rest
      return UInt8.ofNat (highValue * 16 + lowValue) :: octets

def ofHex? (text : String) : Option Octets :=
  ofHexDigits? text.toList

/-- The first octets of the given number and the rest, if there are enough. -/
def take? (count : Nat) (octets : Octets) : Option (Octets × Octets) :=
  if count ≤ octets.length then some (octets.splitAt count) else none

/-- The order of octet strings by their first difference, a beginning before
what it begins. -/
def precedes : Octets → Octets → Bool
  | [], [] => false
  | [], _ :: _ => true
  | _ :: _, [] => false
  | left :: lefts, right :: rights =>
      if left = right then precedes lefts rights
      else decide (left.toNat < right.toNat)

end Octets

end GridSecurity
