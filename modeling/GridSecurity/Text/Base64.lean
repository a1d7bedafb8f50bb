import GridSecurity.Octets

/-!
# Base 64

Every digit carries six bits, and every four digits three octets.  A last group
of two or three digits carries one or two octets; padding may complete it or be
left out.  The bits that such a group has to spare must be zero.
-/

namespace GridSecurity.Text.Base64

def digitValue? (octet : UInt8) : Option Nat :=
  let code := octet.toNat
  if 65 ≤ code ∧ code ≤ 90 then some (code - 65)
  else if 97 ≤ code ∧ code ≤ 122 then some (code - 71)
  else if 48 ≤ code ∧ code ≤ 57 then some (code + 4)
  else if code = 43 then some 62
  else if code = 47 then some 63
  else none

/-- The octets of groups of digits, which the last group may fall short of. -/
def ofDigits? : List Nat → Option Octets
  | a :: b :: c :: d :: rest => do
      let bits := ((a * 64 + b) * 64 + c) * 64 + d
      return Octets.ofNat 3 bits ++ (← ofDigits? rest)
  | [a, b, c] =>
      let bits := (a * 64 + b) * 64 + c
      if bits % 4 = 0 then some (Octets.ofNat 2 (bits / 4)) else none
  | [a, b] =>
      let bits := a * 64 + b
      if bits % 16 = 0 then some (Octets.ofNat 1 (bits / 16)) else none
  | [_] => none
  | [] => some []

/-- The number of padding octets that may follow digits of the given number. -/
def mostPadding (digits : Nat) : Nat := (4 - digits % 4) % 4

def decode? (text : Octets) : Option Octets :=
  let padding := (text.reverse.takeWhile (· == 61)).length
  let digits := text.take (text.length - padding)
  if mostPadding digits.length < padding then none
  else do ofDigits? (← digits.mapM digitValue?)

end GridSecurity.Text.Base64
