import GridSecurity.Der.Value

/-!
# Pairs of positive numbers

Signatures on curves and keys without a curve are written in the same way: as a
sequence of two positive numbers in the distinguished encoding.
-/

namespace GridSecurity.Signature

/-- The positive number in an element, in the shortest form. -/
def positive? (element : Der.Element) : Option Nat := do
  let content ← element.content? Der.integerTag
  let value := Octets.toInt content
  if Der.isShortestInteger content ∧ 0 < value then some value.toNat else none

/-- The two numbers of a pair of positive numbers. -/
def positivePair? (octets : Octets) : Option (Nat × Nat) := do
  match ← Der.sequence? (← Der.Element.ofOctets? octets) with
  | [first, second] => return (← positive? first, ← positive? second)
  | _ => none

end GridSecurity.Signature
