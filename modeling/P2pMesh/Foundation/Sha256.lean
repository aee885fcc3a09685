import P2pMesh.Foundation.BigEndian

/-! # SHA-256

The hash function of FIPS 180-4, executable on byte strings. A block of 64 bytes is
compressed in 64 rounds, each with one of the round constants and the next word of the
message schedule, of which only the last sixteen words are kept.
-/

namespace Foundation.Sha256

/-- The eight working variables, and the hash value between blocks. -/
structure State where
  a : UInt32
  b : UInt32
  c : UInt32
  d : UInt32
  e : UInt32
  f : UInt32
  g : UInt32
  h : UInt32
deriving DecidableEq

/-- The state before the first block. -/
def initial : State :=
  ⟨0x6a09e667, 0xbb67ae85, 0x3c6ef372, 0xa54ff53a, 0x510e527f, 0x9b05688c, 0x1f83d9ab,
    0x5be0cd19⟩

/-- The constants of the 64 rounds. -/
def roundConstants : List UInt32 :=
  [0x428a2f98, 0x71374491, 0xb5c0fbcf, 0xe9b5dba5, 0x3956c25b, 0x59f111f1, 0x923f82a4, 0xab1c5ed5,
    0xd807aa98, 0x12835b01, 0x243185be, 0x550c7dc3, 0x72be5d74, 0x80deb1fe, 0x9bdc06a7, 0xc19bf174,
    0xe49b69c1, 0xefbe4786, 0x0fc19dc6, 0x240ca1cc, 0x2de92c6f, 0x4a7484aa, 0x5cb0a9dc, 0x76f988da,
    0x983e5152, 0xa831c66d, 0xb00327c8, 0xbf597fc7, 0xc6e00bf3, 0xd5a79147, 0x06ca6351, 0x14292967,
    0x27b70a85, 0x2e1b2138, 0x4d2c6dfc, 0x53380d13, 0x650a7354, 0x766a0abb, 0x81c2c92e, 0x92722c85,
    0xa2bfe8a1, 0xa81a664b, 0xc24b8b70, 0xc76c51a3, 0xd192e819, 0xd6990624, 0xf40e3585, 0x106aa070,
    0x19a4c116, 0x1e376c08, 0x2748774c, 0x34b0bcb5, 0x391c0cb3, 0x4ed8aa4a, 0x5b9cca4f, 0x682e6ff3,
    0x748f82ee, 0x78a5636f, 0x84c87814, 0x8cc70208, 0x90befffa, 0xa4506ceb, 0xbef9a3f7, 0xc67178f2]

/-- A rotation to the right. -/
def rotr (x count : UInt32) : UInt32 :=
  (x >>> count) ||| (x <<< (32 - count))

/-- The bits of one word choose between those of two others. -/
def choose (x y z : UInt32) : UInt32 :=
  (x &&& y) ^^^ (~~~x &&& z)

/-- The bits that two of three words have. -/
def majority (x y z : UInt32) : UInt32 :=
  (x &&& y) ^^^ (x &&& z) ^^^ (y &&& z)

/-- The function `Σ₀` of the standard. -/
def bigSigma0 (x : UInt32) : UInt32 :=
  rotr x 2 ^^^ rotr x 13 ^^^ rotr x 22

/-- The function `Σ₁` of the standard. -/
def bigSigma1 (x : UInt32) : UInt32 :=
  rotr x 6 ^^^ rotr x 11 ^^^ rotr x 25

/-- The function `σ₀` of the standard. -/
def smallSigma0 (x : UInt32) : UInt32 :=
  rotr x 7 ^^^ rotr x 18 ^^^ (x >>> 3)

/-- The function `σ₁` of the standard. -/
def smallSigma1 (x : UInt32) : UInt32 :=
  rotr x 17 ^^^ rotr x 19 ^^^ (x >>> 10)

/-- A round of the compression. -/
def round (s : State) (constant word : UInt32) : State :=
  let t1 := s.h + bigSigma1 s.e + choose s.e s.f s.g + constant + word
  let t2 := bigSigma0 s.a + majority s.a s.b s.c
  ⟨t1 + t2, s.a, s.b, s.c, s.d + t1, s.e, s.f, s.g⟩

/-- The words of the schedule that are still needed, after the first of them is used. -/
def nextWords (words : List UInt32) : List UInt32 :=
  words.drop 1 ++ [smallSigma1 (words.getD 14 0) + words.getD 9 0 + smallSigma0 (words.getD 1 0) +
    words.getD 0 0]

/-- The rounds of one block. -/
def rounds : List UInt32 → State → List UInt32 → State
  | [], s, _ => s
  | constant :: constants, s, words =>
      rounds constants (round s constant (words.getD 0 0)) (nextWords words)

/-- The words of a byte string whose length is a multiple of four. -/
def wordsOf : Bytes → List UInt32
  | b0 :: b1 :: b2 :: b3 :: rest => uint32 [b0, b1, b2, b3] :: wordsOf rest
  | _ => []

/-- The hash value after one more block. -/
def compress (s : State) (block : Bytes) : State :=
  let t := rounds roundConstants s (wordsOf block)
  ⟨s.a + t.a, s.b + t.b, s.c + t.c, s.d + t.d, s.e + t.e, s.f + t.f, s.g + t.g, s.h + t.h⟩

/-- The message, a one bit, zeros up to a multiple of the block length, and the length in bits. -/
def pad (message : Bytes) : Bytes :=
  -- 119 is 64 + 64 - 9: the one bit takes a byte and the length takes eight.
  message ++ 0x80 :: List.replicate ((119 - message.length % 64) % 64) 0 ++
    putUint64 (UInt64.ofNat (8 * message.length))

/-- The state after a number of blocks. -/
def blocks : Nat → State → Bytes → State
  | 0, s, _ => s
  | count + 1, s, bytes => blocks count (compress s (bytes.take 64)) (bytes.drop 64)

/-- The digest of a state. -/
def State.bytes (s : State) : Bytes :=
  putUint32 s.a ++ putUint32 s.b ++ putUint32 s.c ++ putUint32 s.d ++ putUint32 s.e ++
    putUint32 s.f ++ putUint32 s.g ++ putUint32 s.h

/-- A hash value of 32 bytes. -/
abbrev Digest := { bytes : Bytes // bytes.length = 32 }

theorem length_bytes (s : State) : s.bytes.length = 32 := by
  simp [State.bytes]

/-- `sha256.Sum256`. -/
def sum256 (message : Bytes) : Digest :=
  ⟨(blocks ((pad message).length / 64) initial (pad message)).bytes, length_bytes _⟩

example : (sum256 (ascii "abc")).1 =
    [0xba, 0x78, 0x16, 0xbf, 0x8f, 0x01, 0xcf, 0xea, 0x41, 0x41, 0x40, 0xde, 0x5d, 0xae, 0x22, 0x23,
      0xb0, 0x03, 0x61, 0xa3, 0x96, 0x17, 0x7a, 0x9c, 0xb4, 0x10, 0xff, 0x61, 0xf2, 0x00, 0x15,
      0xad] := by
  decide +kernel

end Foundation.Sha256
