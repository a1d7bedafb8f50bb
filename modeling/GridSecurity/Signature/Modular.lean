/-!
# Powers modulo a number

The powers that signatures are verified with, by repeated squaring.
-/

namespace GridSecurity.Signature

/-- The power of a base, reduced modulo a number at every step. -/
def powMod (modulus base exponent : Nat) : Nat :=
  if exponent = 0 then 1 % modulus
  else
    let root := powMod modulus base (exponent / 2)
    let square := root * root % modulus
    if exponent % 2 = 1 then square * base % modulus else square
termination_by exponent

end GridSecurity.Signature
