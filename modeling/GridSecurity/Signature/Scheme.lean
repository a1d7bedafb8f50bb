import GridSecurity.Signature.Ecdsa
import GridSecurity.Signature.Rsa

/-!
# Signature schemes

A signature names an algorithm, and the key it is verified with names a curve
or none.  Together they select a scheme or are not supported.
-/

namespace GridSecurity

open Signature

/-- The curves that keys may name. -/
inductive NamedCurve
  | p256
  | p384
  deriving DecidableEq, Repr

def NamedCurve.curve : NamedCurve → Curve
  | p256 => curveP256
  | p384 => curveP384

/-- How a signature is verified. -/
inductive SignatureScheme
  | ecdsa (curve : NamedCurve) (digest : Digest)
  | rsa (digest : Digest)
  deriving DecidableEq, Repr

namespace SignatureScheme

/-- The curves by the identifier of a key's parameter. -/
def curves : List (String × NamedCurve) :=
  [("1.2.840.10045.3.1.7", .p256), ("1.3.132.0.34", .p384)]

/-- The digests by the identifier of an algorithm on curves. -/
def curveDigests : List (String × Digest) :=
  [("1.2.840.10045.4.3.2", .sha256), ("1.2.840.10045.4.3.3", .sha384)]

/-- The digests by the identifier of an algorithm without a curve. -/
def plainDigests : List (String × Digest) :=
  [("1.2.840.113549.1.1.5", .sha1), ("1.2.840.113549.1.1.11", .sha256),
    ("1.2.840.113549.1.1.12", .sha384), ("1.2.840.113549.1.1.13", .sha512)]

/-- The scheme for a signature algorithm and the parameter of a key. -/
def select? (algorithm : String) (keyParameter : Option String) :
    Option SignatureScheme :=
  match keyParameter with
  | none => (plainDigests.lookup algorithm).map .rsa
  | some parameter => do
      let curve ← curves.lookup parameter
      let digest ← curveDigests.lookup algorithm
      return .ecdsa curve digest

def verifies (scheme : SignatureScheme) (key message signature : Octets) : Bool :=
  match scheme with
  | ecdsa curve digest => verifyEcdsa curve.curve digest key message signature
  | rsa digest => verifyRsa digest key message signature

end SignatureScheme

end GridSecurity
