import GridSecurity.Signature.Digest
import GridSecurity.Signature.Modular
import GridSecurity.Signature.NumberPair

/-!
# Signatures by powers modulo a composite number

The padded digest of the message has to be a power of the signature.  Keys are
limited in size, and everything but the signature itself is fixed by the key
and the message.
-/

namespace GridSecurity.Signature

/-- The number of octets of a modulus. -/
def octetLength (value : Nat) : Nat := (Nat.log2 value) / 8 + 1

/-- The least number of octets of a modulus for each digest. -/
def leastModulusLength : Digest → Nat
  | .sha1 => 128
  | .sha256 | .sha384 | .sha512 => 256

/-- The keys that are accepted with a digest. -/
def isRsaKey (digest : Digest) (modulus exponent : Nat) : Bool :=
  modulus % 2 == 1 && leastModulusLength digest ≤ octetLength modulus
    && octetLength modulus ≤ 1024
    && exponent % 2 == 1 && 3 ≤ exponent && exponent < 8589934592

/-- The octets that a signature of the given length has to stand for. -/
def paddedDigest (length : Nat) (digest : Digest) (message : Octets) : Octets :=
  let ending := 0 :: (digest.announcement ++ digest.compute message)
  0 :: 1 :: (List.replicate (length - 2 - ending.length) 255 ++ ending)

/-- A signature verifies a message under a key that is a pair of modulus and
exponent. -/
def verifyRsa (digest : Digest) (key message signature : Octets) : Bool :=
  match positivePair? key with
  | none => false
  | some (modulus, exponent) =>
      let length := octetLength modulus
      let base := Octets.toNat signature
      isRsaKey digest modulus exponent && signature.length == length
        && 0 < base && base < modulus
        && Octets.ofNat length (powMod modulus base exponent)
          == paddedDigest length digest message

end GridSecurity.Signature
