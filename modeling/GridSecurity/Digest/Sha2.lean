import GridSecurity.Octets

/-!
# The SHA-2 digests

A message is padded to whole blocks and every block is mixed into a chaining
value of eight words.  SHA-256 works on words of 32 bits; SHA-384 and SHA-512
share one function on words of 64 bits and differ in the initial value and in
the length of the digest.
-/

namespace GridSecurity.Sha2

/-- The message, one set bit, zeros and the message's length in bits, so that
the whole is a multiple of the block length. -/
def pad (blockLength lengthWidth : Nat) (message : Octets) : Octets :=
  let used := message.length + 1 + lengthWidth
  let zeros := (blockLength - used % blockLength) % blockLength
  message ++ 0x80 :: (List.replicate zeros 0
    ++ Octets.ofNat lengthWidth (message.length * 8))

/-- Parts of the given length, the last one possibly shorter. -/
def chunks (length : Nat) (octets : Octets) : List Octets :=
  match octets with
  | [] => []
  | octet :: rest =>
      (octet :: rest.take (length - 1)) :: chunks length (rest.drop (length - 1))
termination_by octets.length
decreasing_by
  simp only [List.length_drop, List.length_cons]
  omega

def roundConstants32 : List UInt32 := [
  0x428a2f98, 0x71374491, 0xb5c0fbcf, 0xe9b5dba5, 0x3956c25b, 0x59f111f1, 0x923f82a4, 0xab1c5ed5,
  0xd807aa98, 0x12835b01, 0x243185be, 0x550c7dc3, 0x72be5d74, 0x80deb1fe, 0x9bdc06a7, 0xc19bf174,
  0xe49b69c1, 0xefbe4786, 0x0fc19dc6, 0x240ca1cc, 0x2de92c6f, 0x4a7484aa, 0x5cb0a9dc, 0x76f988da,
  0x983e5152, 0xa831c66d, 0xb00327c8, 0xbf597fc7, 0xc6e00bf3, 0xd5a79147, 0x06ca6351, 0x14292967,
  0x27b70a85, 0x2e1b2138, 0x4d2c6dfc, 0x53380d13, 0x650a7354, 0x766a0abb, 0x81c2c92e, 0x92722c85,
  0xa2bfe8a1, 0xa81a664b, 0xc24b8b70, 0xc76c51a3, 0xd192e819, 0xd6990624, 0xf40e3585, 0x106aa070,
  0x19a4c116, 0x1e376c08, 0x2748774c, 0x34b0bcb5, 0x391c0cb3, 0x4ed8aa4a, 0x5b9cca4f, 0x682e6ff3,
  0x748f82ee, 0x78a5636f, 0x84c87814, 0x8cc70208, 0x90befffa, 0xa4506ceb, 0xbef9a3f7, 0xc67178f2]

def roundConstants64 : List UInt64 := [
  0x428a2f98d728ae22, 0x7137449123ef65cd, 0xb5c0fbcfec4d3b2f, 0xe9b5dba58189dbbc,
  0x3956c25bf348b538, 0x59f111f1b605d019, 0x923f82a4af194f9b, 0xab1c5ed5da6d8118,
  0xd807aa98a3030242, 0x12835b0145706fbe, 0x243185be4ee4b28c, 0x550c7dc3d5ffb4e2,
  0x72be5d74f27b896f, 0x80deb1fe3b1696b1, 0x9bdc06a725c71235, 0xc19bf174cf692694,
  0xe49b69c19ef14ad2, 0xefbe4786384f25e3, 0x0fc19dc68b8cd5b5, 0x240ca1cc77ac9c65,
  0x2de92c6f592b0275, 0x4a7484aa6ea6e483, 0x5cb0a9dcbd41fbd4, 0x76f988da831153b5,
  0x983e5152ee66dfab, 0xa831c66d2db43210, 0xb00327c898fb213f, 0xbf597fc7beef0ee4,
  0xc6e00bf33da88fc2, 0xd5a79147930aa725, 0x06ca6351e003826f, 0x142929670a0e6e70,
  0x27b70a8546d22ffc, 0x2e1b21385c26c926, 0x4d2c6dfc5ac42aed, 0x53380d139d95b3df,
  0x650a73548baf63de, 0x766a0abb3c77b2a8, 0x81c2c92e47edaee6, 0x92722c851482353b,
  0xa2bfe8a14cf10364, 0xa81a664bbc423001, 0xc24b8b70d0f89791, 0xc76c51a30654be30,
  0xd192e819d6ef5218, 0xd69906245565a910, 0xf40e35855771202a, 0x106aa07032bbd1b8,
  0x19a4c116b8d2d0c8, 0x1e376c085141ab53, 0x2748774cdf8eeb99, 0x34b0bcb5e19b48a8,
  0x391c0cb3c5c95a63, 0x4ed8aa4ae3418acb, 0x5b9cca4f7763e373, 0x682e6ff3d6b2b8a3,
  0x748f82ee5defb2fc, 0x78a5636f43172f60, 0x84c87814a1f0ab72, 0x8cc702081a6439ec,
  0x90befffa23631e28, 0xa4506cebde82bde9, 0xbef9a3f7b2c67915, 0xc67178f2e372532b,
  0xca273eceea26619c, 0xd186b8c721c0c207, 0xeada7dd6cde0eb1e, 0xf57d4f7fee6ed178,
  0x06f067aa72176fba, 0x0a637dc5a2c898a6, 0x113f9804bef90dae, 0x1b710b35131c471b,
  0x28db77f523047d84, 0x32caab7b40c72493, 0x3c9ebe0a15c9bebc, 0x431d67c49c100d4c,
  0x4cc5d4becb3e42b6, 0x597f299cfc657e2a, 0x5fcb6fab3ad6faec, 0x6c44198c4a475817]

/-- The word with its bits turned to the right. -/
def rotate32 (word amount : UInt32) : UInt32 :=
  (word >>> amount) ||| (word <<< (32 - amount))

/-- The word with its bits turned to the right. -/
def rotate64 (word amount : UInt64) : UInt64 :=
  (word >>> amount) ||| (word <<< (64 - amount))

/-- A chaining value of eight words. -/
structure Chaining (Word : Type) where
  a : Word
  b : Word
  c : Word
  d : Word
  e : Word
  f : Word
  g : Word
  h : Word

/-- The words of a block followed by the words computed from the sixteen
before each of them.  The last sixteen words stand first, newest first. -/
def schedule32 : (count : Nat) → (newestFirst : List UInt32) → List UInt32
  | 0, newestFirst => newestFirst.reverse
  | count + 1, newestFirst =>
      match newestFirst with
      | _ :: w2 :: _ :: _ :: _ :: _ :: w7 :: _ :: _ :: _ :: _ :: _ :: _ :: _
          :: w15 :: w16 :: _ =>
          let s0 := rotate32 w15 7 ^^^ rotate32 w15 18 ^^^ (w15 >>> 3)
          let s1 := rotate32 w2 17 ^^^ rotate32 w2 19 ^^^ (w2 >>> 10)
          schedule32 count ((w16 + s0 + w7 + s1) :: newestFirst)
      | _ => newestFirst.reverse

/-- The words of a block followed by the words computed from the sixteen
before each of them, for words of 64 bits. -/
def schedule64 : (count : Nat) → (newestFirst : List UInt64) → List UInt64
  | 0, newestFirst => newestFirst.reverse
  | count + 1, newestFirst =>
      match newestFirst with
      | _ :: w2 :: _ :: _ :: _ :: _ :: w7 :: _ :: _ :: _ :: _ :: _ :: _ :: _
          :: w15 :: w16 :: _ =>
          let s0 := rotate64 w15 1 ^^^ rotate64 w15 8 ^^^ (w15 >>> 7)
          let s1 := rotate64 w2 19 ^^^ rotate64 w2 61 ^^^ (w2 >>> 6)
          schedule64 count ((w16 + s0 + w7 + s1) :: newestFirst)
      | _ => newestFirst.reverse

/-- One round with its constant and its word of the schedule. -/
def round32 (v : Chaining UInt32) (constantAndWord : UInt32 × UInt32) :
    Chaining UInt32 :=
  let s1 := rotate32 v.e 6 ^^^ rotate32 v.e 11 ^^^ rotate32 v.e 25
  let choice := (v.e &&& v.f) ^^^ ((~~~ v.e) &&& v.g)
  let t1 := v.h + s1 + choice + constantAndWord.1 + constantAndWord.2
  let s0 := rotate32 v.a 2 ^^^ rotate32 v.a 13 ^^^ rotate32 v.a 22
  let majority := (v.a &&& v.b) ^^^ (v.a &&& v.c) ^^^ (v.b &&& v.c)
  ⟨t1 + (s0 + majority), v.a, v.b, v.c, v.d + t1, v.e, v.f, v.g⟩

/-- One round with its constant and its word of the schedule, for words of 64
bits. -/
def round64 (v : Chaining UInt64) (constantAndWord : UInt64 × UInt64) :
    Chaining UInt64 :=
  let s1 := rotate64 v.e 14 ^^^ rotate64 v.e 18 ^^^ rotate64 v.e 41
  let choice := (v.e &&& v.f) ^^^ ((~~~ v.e) &&& v.g)
  let t1 := v.h + s1 + choice + constantAndWord.1 + constantAndWord.2
  let s0 := rotate64 v.a 28 ^^^ rotate64 v.a 34 ^^^ rotate64 v.a 39
  let majority := (v.a &&& v.b) ^^^ (v.a &&& v.c) ^^^ (v.b &&& v.c)
  ⟨t1 + (s0 + majority), v.a, v.b, v.c, v.d + t1, v.e, v.f, v.g⟩

def Chaining.add {Word : Type} [Add Word] (v w : Chaining Word) : Chaining Word :=
  ⟨v.a + w.a, v.b + w.b, v.c + w.c, v.d + w.d,
    v.e + w.e, v.f + w.f, v.g + w.g, v.h + w.h⟩

def Chaining.toList {Word : Type} (v : Chaining Word) : List Word :=
  [v.a, v.b, v.c, v.d, v.e, v.f, v.g, v.h]

/-- The chaining value after a block of 64 octets. -/
def mix32 (value : Chaining UInt32) (block : Octets) : Chaining UInt32 :=
  let words := (chunks 4 block).map fun part => UInt32.ofNat (Octets.toNat part)
  let schedule := schedule32 48 words.reverse
  value.add ((roundConstants32.zip schedule).foldl round32 value)

/-- The chaining value after a block of 128 octets. -/
def mix64 (value : Chaining UInt64) (block : Octets) : Chaining UInt64 :=
  let words := (chunks 8 block).map fun part => UInt64.ofNat (Octets.toNat part)
  let schedule := schedule64 64 words.reverse
  value.add ((roundConstants64.zip schedule).foldl round64 value)

def initial256 : Chaining UInt32 :=
  ⟨0x6a09e667, 0xbb67ae85, 0x3c6ef372, 0xa54ff53a,
    0x510e527f, 0x9b05688c, 0x1f83d9ab, 0x5be0cd19⟩

def initial384 : Chaining UInt64 :=
  ⟨0xcbbb9d5dc1059ed8, 0x629a292a367cd507, 0x9159015a3070dd17, 0x152fecd8f70e5939,
    0x67332667ffc00b31, 0x8eb44a8768581511, 0xdb0c2e0d64f98fa7, 0x47b5481dbefa4fa4⟩

def initial512 : Chaining UInt64 :=
  ⟨0x6a09e667f3bcc908, 0xbb67ae8584caa73b, 0x3c6ef372fe94f82b, 0xa54ff53a5f1d36f1,
    0x510e527fade682d1, 0x9b05688c2b3e6c1f, 0x1f83d9abfb41bd6b, 0x5be0cd19137e2179⟩

/-- The octets of the digest of words of 64 bits, before any is dropped. -/
def digest64 (initial : Chaining UInt64) (message : Octets) : Octets :=
  ((chunks 128 (pad 128 16 message)).foldl mix64 initial).toList.flatMap
    fun word => Octets.ofNat 8 word.toNat

def sha256 (message : Octets) : Octets :=
  ((chunks 64 (pad 64 8 message)).foldl mix32 initial256).toList.flatMap
    fun word => Octets.ofNat 4 word.toNat

def sha384 (message : Octets) : Octets :=
  (digest64 initial384 message).take 48

def sha512 (message : Octets) : Octets :=
  digest64 initial512 message

end GridSecurity.Sha2
