import Federation.Text.Unicode

/-
  This file defines strict base64: the standard alphabet,
  with padding, and no spare bit set.

  Key definitions include:
    * `Base64.symbol`
    * `Base64.value?`
    * `Base64.encode`
    * `Base64.Fault`
    * `Base64.decode`
-/

namespace Federation

namespace Base64

------------------------------------------------------------
-- Alphabet
------------------------------------------------------------

/- The padding symbol, an equals sign. -/
def pad : UInt8 := 0x3D

/- The symbol of a value below 64. -/
def symbol (value : Nat) : UInt8 :=
  if value < 26 then UInt8.ofNat (0x41 + value)
  else if value < 52 then UInt8.ofNat (0x61 + (value - 26))
  else if value < 62 then UInt8.ofNat (0x30 + (value - 52))
  else if value = 62 then 0x2B
  else 0x2F

/- The value of a symbol of the alphabet. -/
def value? (b : UInt8) : Option Nat :=
  let n := b.toNat
  if 0x41 ≤ n ∧ n ≤ 0x5A then some (n - 0x41)
  else if 0x61 ≤ n ∧ n ≤ 0x7A then some (n - 0x61 + 26)
  else if 0x30 ≤ n ∧ n ≤ 0x39 then some (n - 0x30 + 52)
  else if n = 0x2B then some 62
  else if n = 0x2F then some 63
  else none

------------------------------------------------------------
-- Encoding
------------------------------------------------------------

/- Four symbols for three bytes, the last group padded. -/
def encode : Bytes → Bytes
| [] => []
| [a] =>
    let n := a.toNat * 16
    [symbol (n / 64), symbol (n % 64), pad, pad]
| [a, b] =>
    let n := (a.toNat * 256 + b.toNat) * 4
    [ symbol (n / 4096), symbol (n / 64 % 64),
      symbol (n % 64), pad ]
| a :: b :: c :: rest =>
    let n := (a.toNat * 256 + b.toNat) * 256 + c.toNat
    symbol (n / 262144) :: symbol (n / 4096 % 64) ::
      symbol (n / 64 % 64) :: symbol (n % 64) ::
        encode rest

/- Bytes as base64 text. -/
def encodeText (bytes : Bytes) : String :=
  String.ofList
    ((encode bytes).map fun b => Char.ofNat b.toNat)

------------------------------------------------------------
-- Decoding
------------------------------------------------------------

/- Why a byte string is not base64. -/
inductive Fault where
| symbol (byte : UInt8) (offset : Nat)
| length (symbols : Nat)
| spareBits (byte : UInt8) (offset : Nat)
| padding
deriving DecidableEq, Repr

/- The wording of a fault. -/
def Fault.message : Fault → String
| .symbol byte offset =>
    s!"Invalid symbol {byte.toNat}, offset {offset}."
| .length symbols =>
    s!"Invalid input length: {symbols}"
| .spareBits byte offset =>
    s!"Invalid last symbol {byte.toNat}, offset {offset}."
| .padding => "Invalid padding"

/- The value of the symbol at an offset. -/
def valueAt
    (offset : Nat)
    (byte : UInt8) : Except Fault Nat :=
  match value? byte with
  | some value => .ok value
  | none => .error (.symbol byte offset)

/- The three bytes of four values. -/
def group (a b c d : Nat) : Bytes :=
  let n := ((a * 64 + b) * 64 + c) * 64 + d
  [ UInt8.ofNat (n / 65536), UInt8.ofNat (n / 256),
    UInt8.ofNat n ]

/-
  The values of the last group, up to its padding. Padding
  may stand at its third and fourth places only, and
  nothing but padding may follow padding.
-/
def lastValues
    (offset : Nat) :
    (place : Nat) → Bytes →
      Except Fault (List Nat × Nat)
| _, [] => .ok ([], 0)
| place, b :: rest =>
    if b = pad then
      if place < 2 then
        .error (.symbol pad (offset + place))
      else if rest.all (· = pad) then
        .ok ([], 1 + rest.length)
      else
        .error (.symbol pad (offset + place))
    else do
      let value ← valueAt (offset + place) b
      let (values, pads) ← lastValues offset (place + 1) rest
      return (value :: values, pads)

/- The last symbol of a group that has the given values. -/
def lastSymbol (values : List Nat) : UInt8 :=
  symbol (values.getLast?.getD 0)

/- Decode the last group, of at most four bytes. -/
def decodeLast
    (offset : Nat)
    (bytes : Bytes) : Except Fault Bytes := do
  let (values, pads) ← lastValues offset 0 bytes
  if values.length < 2 then
    throw (.length (offset + values.length))
  if values.length + pads ≠ 4 then
    throw .padding
  let spare :=
    .spareBits (lastSymbol values)
      (offset + values.length - 1)
  match values with
  | [a, b] =>
      if b % 16 ≠ 0 then throw spare
      return (group a b 0 0).take 1
  | [a, b, c] =>
      if c % 4 ≠ 0 then throw spare
      return (group a b c 0).take 2
  | [a, b, c, d] => return group a b c d
  | _ => throw .padding

/- Decode groups of four bytes, the last one apart. -/
def decodeGroups
    (offset : Nat) :
    Bytes → Except Fault Bytes
| a :: b :: c :: d :: e :: rest => do
    let va ← valueAt offset a
    let vb ← valueAt (offset + 1) b
    let vc ← valueAt (offset + 2) c
    let vd ← valueAt (offset + 3) d
    let tail ← decodeGroups (offset + 4) (e :: rest)
    return group va vb vc vd ++ tail
| [] => .ok []
| last => decodeLast offset last

/-
  The bytes that a base64 text stands for. A single byte
  after whole groups is looked at first.
-/
def decode (bytes : Bytes) : Except Fault Bytes :=
  match bytes.getLast? with
  | some b =>
      if bytes.length % 4 = 1 ∧ b ≠ pad ∧ value? b = none then
        .error (.symbol b (bytes.length - 1))
      else
        decodeGroups 0 bytes
  | none => .ok []

end Base64

end Federation
