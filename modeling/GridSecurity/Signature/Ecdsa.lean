import GridSecurity.Signature.Digest
import GridSecurity.Signature.Modular
import GridSecurity.Signature.NumberPair

/-!
# Signatures on elliptic curves

The two curves have a prime number of points and are given by the equation
`y² = x³ - 3x + b`.  Points have homogeneous coordinates, and one addition law
holds for all pairs of them.
-/

namespace GridSecurity.Signature

/-- A curve over a prime field with a generator of its group of points. -/
structure Curve where
  width : Nat
  prime : Int
  constant : Int
  order : Nat
  generatorX : Int
  generatorY : Int

def curveP256 : Curve where
  width := 32
  prime := 0xffffffff00000001000000000000000000000000ffffffffffffffffffffffff
  constant := 0x5ac635d8aa3a93e7b3ebbd55769886bc651d06b0cc53b0f63bce3c3e27d2604b
  order := 0xffffffff00000000ffffffffffffffffbce6faada7179e84f3b9cac2fc632551
  generatorX := 0x6b17d1f2e12c4247f8bce6e563a440f277037d812deb33a0f4a13945d898c296
  generatorY := 0x4fe342e2fe1a7f9b8ee7eb4a7c0f9e162bce33576b315ececbb6406837bf51f5

def curveP384 : Curve where
  width := 48
  prime :=
    0xfffffffffffffffffffffffffffffffffffffffffffffffffffffffffffffffeffffffff0000000000000000ffffffff
  constant :=
    0xb3312fa7e23ee7e4988e056be3f82d19181d9c6efe8141120314088f5013875ac656398d8a2ed19d2a85c8edd3ec2aef
  order :=
    0xffffffffffffffffffffffffffffffffffffffffffffffffc7634d81f4372ddf581a0db248b0a77aecec196accc52973
  generatorX :=
    0xaa87ca22be8b05378eb1c71ef320ad746e1d3b628ba79b9859f741e082542a385502f25dbf55296c3a545e3872760ab7
  generatorY :=
    0x3617de4a96262c6f5d9e98bf9292dc29f8f41dbd289a147ce9da3113b5f0b8c00a60b1ce1d7e819d7a431d7c90ea0e5f

/-- A point in homogeneous coordinates; the neutral point is the one whose
last coordinate is zero. -/
structure Point where
  x : Int
  y : Int
  z : Int

namespace Curve

/-- The factor of the linear term of the equation. -/
def linear : Int := -3

def neutral : Point := ⟨0, 1, 0⟩

def generator (curve : Curve) : Point := ⟨curve.generatorX, curve.generatorY, 1⟩

/-- The sum of two points by the addition law that has no exceptions. -/
def add (curve : Curve) (p q : Point) : Point :=
  let m := curve.prime
  let xx := p.x * q.x % m
  let yy := p.y * q.y % m
  let zz := p.z * q.z % m
  let xy := (p.x * q.y + q.x * p.y) % m
  let xz := (p.x * q.z + q.x * p.z) % m
  let yz := (p.y * q.z + q.y * p.z) % m
  let triple := 3 * curve.constant
  let offset := (linear * xz + triple * zz) % m
  let upper := (linear * xx + triple * xz - linear * linear * zz) % m
  let lower := (3 * xx + linear * zz) % m
  ⟨(xy * (yy - offset) - yz * upper) % m,
    (lower * upper + (yy + offset) * (yy - offset)) % m,
    (yz * (yy + offset) + xy * lower) % m⟩

/-- The multiple of a point by doubling and adding. -/
def multiply (curve : Curve) (factor : Nat) (point : Point) : Point :=
  if factor = 0 then neutral
  else
    let half := multiply curve (factor / 2) point
    let double := curve.add half half
    if factor % 2 = 1 then curve.add double point else double
termination_by factor

/-- The finite point whose uncompressed form is given, if it is on the
curve. -/
def readPoint? (curve : Curve) (key : Octets) : Option Point :=
  match key with
  | [] => none
  | form :: coordinates =>
      let x : Int := Octets.toNat (coordinates.take curve.width)
      let y : Int := Octets.toNat (coordinates.drop curve.width)
      if form = 4 ∧ coordinates.length = 2 * curve.width
          ∧ x < curve.prime ∧ y < curve.prime
          ∧ (y * y - (x * x * x + linear * x + curve.constant)) % curve.prime = 0 then
        some ⟨x, y, 1⟩
      else none

end Curve

/-- The number that a digest stands for in the group of a curve. -/
def digestNumber (curve : Curve) (digest : Octets) : Nat :=
  Octets.toNat (digest.take curve.width) % curve.order

/-- A finite point has the given first coordinate modulo the order. -/
def hasCoordinate (curve : Curve) (point : Point) (value : Nat) : Bool :=
  let isAt := fun x : Int => (x * point.z - point.x) % curve.prime == 0
  point.z != 0 &&
    (isAt value
      || (((value + curve.order : Nat) : Int) < curve.prime
        && isAt ((value + curve.order : Nat) : Int)))

def verifyEcdsa (curve : Curve) (digest : Digest) (key message signature : Octets) :
    Bool :=
  match curve.readPoint? key, positivePair? signature with
  | some point, some (r, s) =>
      if r < curve.order ∧ s < curve.order then
        let inverse := powMod curve.order s (curve.order - 2)
        let number := digestNumber curve (digest.compute message)
        let left := curve.multiply (number * inverse % curve.order) curve.generator
        let right := curve.multiply (r * inverse % curve.order) point
        hasCoordinate curve (curve.add left right) r
      else false
  | _, _ => false

end GridSecurity.Signature
