import Federation.Bytes.Hex

/-
  This file defines the hash function SHA-256 on byte
  strings.

  Key definitions include:
    * `Sha256.padded`
    * `Sha256.State`
    * `Sha256.compress`
    * `Sha256.digest`
    * `Sha256.hexDigest`
-/

namespace Federation

namespace Sha256

------------------------------------------------------------
-- Constants
------------------------------------------------------------

/- The constant that each of the 64 rounds adds. -/
def roundConstants : List UInt32 :=
  [ 0x428a2f98, 0x71374491, 0xb5c0fbcf, 0xe9b5dba5,
    0x3956c25b, 0x59f111f1, 0x923f82a4, 0xab1c5ed5,
    0xd807aa98, 0x12835b01, 0x243185be, 0x550c7dc3,
    0x72be5d74, 0x80deb1fe, 0x9bdc06a7, 0xc19bf174,
    0xe49b69c1, 0xefbe4786, 0x0fc19dc6, 0x240ca1cc,
    0x2de92c6f, 0x4a7484aa, 0x5cb0a9dc, 0x76f988da,
    0x983e5152, 0xa831c66d, 0xb00327c8, 0xbf597fc7,
    0xc6e00bf3, 0xd5a79147, 0x06ca6351, 0x14292967,
    0x27b70a85, 0x2e1b2138, 0x4d2c6dfc, 0x53380d13,
    0x650a7354, 0x766a0abb, 0x81c2c92e, 0x92722c85,
    0xa2bfe8a1, 0xa81a664b, 0xc24b8b70, 0xc76c51a3,
    0xd192e819, 0xd6990624, 0xf40e3585, 0x106aa070,
    0x19a4c116, 0x1e376c08, 0x2748774c, 0x34b0bcb5,
    0x391c0cb3, 0x4ed8aa4a, 0x5b9cca4f, 0x682e6ff3,
    0x748f82ee, 0x78a5636f, 0x84c87814, 0x8cc70208,
    0x90befffa, 0xa4506ceb, 0xbef9a3f7, 0xc67178f2 ]

------------------------------------------------------------
-- Words
------------------------------------------------------------

/- Rotate a word to the right. -/
def rotate
    (w : UInt32)
    (n : UInt32) : UInt32 :=
  (w >>> n) ||| (w <<< (32 - n))

/- The word with the given bytes, the highest first. -/
def wordOf (a b c d : UInt8) : UInt32 :=
  (a.toUInt32 <<< 24) ||| (b.toUInt32 <<< 16) |||
    (c.toUInt32 <<< 8) ||| d.toUInt32

/- The bytes of a word, the highest first. -/
def bytesOf (w : UInt32) : Bytes :=
  [ (w >>> 24).toUInt8, (w >>> 16).toUInt8,
    (w >>> 8).toUInt8, w.toUInt8 ]

/- The words that successive groups of four bytes make. -/
def wordsOf : Bytes → List UInt32
| a :: b :: c :: d :: rest =>
    wordOf a b c d :: wordsOf rest
| _ => []

------------------------------------------------------------
-- Padding
------------------------------------------------------------

/- The length of a message in bits, as eight bytes. -/
def lengthField (bytes : Nat) : Bytes :=
  [56, 48, 40, 32, 24, 16, 8, 0].map fun shift =>
    UInt8.ofNat ((8 * bytes) >>> shift)

/-
  A message followed by a single bit, zeros up to eight
  bytes before a block's end, and its length.
-/
def padded (message : Bytes) : Bytes :=
  let zeros := (119 - message.length % 64) % 64
  message ++ 0x80 :: List.replicate zeros 0 ++
    lengthField message.length

------------------------------------------------------------
-- Compression
------------------------------------------------------------

/- The eight words that a hash carries from block to block. -/
structure State where
  a : UInt32
  b : UInt32
  c : UInt32
  d : UInt32
  e : UInt32
  f : UInt32
  g : UInt32
  h : UInt32
deriving DecidableEq, Repr

/- The state before the first block. -/
def State.start : State :=
  ⟨0x6a09e667, 0xbb67ae85, 0x3c6ef372, 0xa54ff53a,
    0x510e527f, 0x9b05688c, 0x1f83d9ab, 0x5be0cd19⟩

/- The words of two states added one by one. -/
def State.add (s t : State) : State :=
  ⟨s.a + t.a, s.b + t.b, s.c + t.c, s.d + t.d,
    s.e + t.e, s.f + t.f, s.g + t.g, s.h + t.h⟩

/- The bytes of a state in order. -/
def State.toBytes (s : State) : Bytes :=
  [s.a, s.b, s.c, s.d, s.e, s.f, s.g, s.h].flatMap bytesOf

/- One round with its constant and its scheduled word. -/
def round
    (s : State)
    (constant word : UInt32) : State :=
  let high := rotate s.e 6 ^^^ rotate s.e 11 ^^^ rotate s.e 25
  let choice := (s.e &&& s.f) ^^^ (~~~s.e &&& s.g)
  let first := s.h + high + choice + constant + word
  let low := rotate s.a 2 ^^^ rotate s.a 13 ^^^ rotate s.a 22
  let majority :=
    (s.a &&& s.b) ^^^ (s.a &&& s.c) ^^^ (s.b &&& s.c)
  ⟨first + (low + majority), s.a, s.b, s.c,
    s.d + first, s.e, s.f, s.g⟩

/- The word that follows sixteen scheduled words. -/
def nextWord (window : List UInt32) : UInt32 :=
  let w1 := window.getD 1 0
  let w14 := window.getD 14 0
  let s0 := rotate w1 7 ^^^ rotate w1 18 ^^^ (w1 >>> 3)
  let s1 := rotate w14 17 ^^^ rotate w14 19 ^^^ (w14 >>> 10)
  window.getD 0 0 + s0 + window.getD 9 0 + s1

/-
  The rounds of the given constants. The window holds the
  sixteen words scheduled next, and each round uses up one.
-/
def rounds :
    List UInt32 → List UInt32 → State → State
| [], _, s => s
| _, [], s => s
| k :: ks, w :: ws, s =>
    rounds ks (ws ++ [nextWord (w :: ws)]) (round s k w)

/- Fold one block of 64 bytes into the state. -/
def compress
    (s : State)
    (block : Bytes) : State :=
  s.add (rounds roundConstants (wordsOf block) s)

/- Fold a number of successive blocks into the state. -/
def absorb :
    (blocks : Nat) → State → Bytes → State
| 0, s, _ => s
| blocks + 1, s, bytes =>
    absorb blocks (compress s (bytes.take 64))
      (bytes.drop 64)

------------------------------------------------------------
-- Digests
------------------------------------------------------------

/- The 32 bytes of a message's hash. -/
def digest (message : Bytes) : Bytes :=
  let bytes := padded message
  (absorb (bytes.length / 64) State.start bytes).toBytes

/- A message's hash as 64 digits in lower case. -/
def hexDigest (message : Bytes) : String :=
  Hex.encode (digest message)

end Sha256

end Federation
