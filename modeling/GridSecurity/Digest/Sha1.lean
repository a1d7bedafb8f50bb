import GridSecurity.Digest.Sha2

/-!
# The SHA-1 digest

SHA-1 pads a message as SHA-256 does and mixes every block into a chaining
value of five words of 32 bits.
-/

namespace GridSecurity.Sha1

/-- A chaining value of five words. -/
structure Chaining where
  a : UInt32
  b : UInt32
  c : UInt32
  d : UInt32
  e : UInt32

/-- The word with its bits turned to the left. -/
def rotateLeft (word amount : UInt32) : UInt32 :=
  (word <<< amount) ||| (word >>> (32 - amount))

/-- The words of a block followed by the words computed from the sixteen
before each of them, newest first. -/
def schedule : (count : Nat) → (newestFirst : List UInt32) → List UInt32
  | 0, newestFirst => newestFirst.reverse
  | count + 1, newestFirst =>
      match newestFirst with
      | _ :: _ :: w3 :: _ :: _ :: _ :: _ :: w8 :: _ :: _ :: _ :: _ :: _ :: w14
          :: _ :: w16 :: _ =>
          schedule count (rotateLeft (w3 ^^^ w8 ^^^ w14 ^^^ w16) 1 :: newestFirst)
      | _ => newestFirst.reverse

/-- The mixing function and the constant of a round. -/
def roundRule (index : Nat) (b c d : UInt32) : UInt32 × UInt32 :=
  if index < 20 then ((b &&& c) ||| ((~~~ b) &&& d), 0x5a827999)
  else if index < 40 then (b ^^^ c ^^^ d, 0x6ed9eba1)
  else if index < 60 then ((b &&& c) ||| (b &&& d) ||| (c &&& d), 0x8f1bbcdc)
  else (b ^^^ c ^^^ d, 0xca62c1d6)

/-- One round with its word of the schedule and its index. -/
def round (v : Chaining) (wordAndIndex : UInt32 × Nat) : Chaining :=
  let (mixed, constant) := roundRule wordAndIndex.2 v.b v.c v.d
  ⟨rotateLeft v.a 5 + mixed + v.e + constant + wordAndIndex.1,
    v.a, rotateLeft v.b 30, v.c, v.d⟩

/-- The chaining value after a block of 64 octets. -/
def mix (value : Chaining) (block : Octets) : Chaining :=
  let words := (Sha2.chunks 4 block).map fun part =>
    UInt32.ofNat (Octets.toNat part)
  let after := (schedule 64 words.reverse).zipIdx.foldl round value
  ⟨value.a + after.a, value.b + after.b, value.c + after.c,
    value.d + after.d, value.e + after.e⟩

def initial : Chaining :=
  ⟨0x67452301, 0xefcdab89, 0x98badcfe, 0x10325476, 0xc3d2e1f0⟩

def sha1 (message : Octets) : Octets :=
  let value := (Sha2.chunks 64 (Sha2.pad 64 8 message)).foldl mix initial
  [value.a, value.b, value.c, value.d, value.e].flatMap
    fun word => Octets.ofNat 4 word.toNat

end GridSecurity.Sha1
