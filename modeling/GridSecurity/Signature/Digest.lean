import GridSecurity.Digest.Sha1
import GridSecurity.Digest.Sha2

/-!
# Digests of signed messages

The digests that signature algorithms name, and the octets that stand before a
digest where a signature says which one it is.
-/

namespace GridSecurity.Signature

inductive Digest
  | sha1
  | sha256
  | sha384
  | sha512
  deriving DecidableEq, Repr

namespace Digest

def compute : Digest → Octets → Octets
  | sha1 => Sha1.sha1
  | sha256 => Sha2.sha256
  | sha384 => Sha2.sha384
  | sha512 => Sha2.sha512

/-- The encoding of the algorithm, with an empty parameter, up to the octets
of the digest. -/
def announcement : Digest → Octets
  | sha1 =>
      [0x30, 0x21, 0x30, 0x09, 0x06, 0x05, 0x2b, 0x0e, 0x03, 0x02, 0x1a, 0x05,
        0x00, 0x04, 0x14]
  | sha256 =>
      [0x30, 0x31, 0x30, 0x0d, 0x06, 0x09, 0x60, 0x86, 0x48, 0x01, 0x65, 0x03,
        0x04, 0x02, 0x01, 0x05, 0x00, 0x04, 0x20]
  | sha384 =>
      [0x30, 0x41, 0x30, 0x0d, 0x06, 0x09, 0x60, 0x86, 0x48, 0x01, 0x65, 0x03,
        0x04, 0x02, 0x02, 0x05, 0x00, 0x04, 0x30]
  | sha512 =>
      [0x30, 0x51, 0x30, 0x0d, 0x06, 0x09, 0x60, 0x86, 0x48, 0x01, 0x65, 0x03,
        0x04, 0x02, 0x03, 0x05, 0x00, 0x04, 0x40]

end Digest

end GridSecurity.Signature
