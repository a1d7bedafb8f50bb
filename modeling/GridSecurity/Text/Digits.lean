import GridSecurity.Octets

/-!
# Digits to a base

Digits to a base of at most sixteen; those from ten on are letters of either
case.
-/

namespace GridSecurity.Text

/-- The value of a digit to a base of at most sixteen. -/
def digitValue? (base : Nat) (character : Char) : Option Nat :=
  (Octets.hexDigitValue? character).filter fun value => decide (value < base)

/-- A digit to a base of at most sixteen. -/
def isDigit (base : Nat) (character : Char) : Bool :=
  (digitValue? base character).isSome

/-- The number that digits write; other characters between them say nothing. -/
def numberOfDigits (base : Nat) (characters : List Char) : Nat :=
  (characters.filterMap (digitValue? base)).foldl
    (fun value digit => value * base + digit) 0

end GridSecurity.Text
