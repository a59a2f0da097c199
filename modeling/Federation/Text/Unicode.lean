/-
  This file ties texts to their bytes in UTF-8 and to their
  units of 16 bits in UTF-16.

  Key definitions include:
    * `Bytes`
    * `Text.toBytes`
    * `Text.ofBytes?`
    * `Text.unitsOf`
    * `Text.ofUnits?`
-/

namespace Federation

/- A finite string of octets. -/
abbrev Bytes := List UInt8

namespace Text

------------------------------------------------------------
-- Bytes
------------------------------------------------------------

/- The bytes of a text in UTF-8. -/
def toBytes (text : String) : Bytes :=
  text.toByteArray.data.toList

/- The text with the given bytes, when they are valid UTF-8. -/
def ofBytes? (bytes : Bytes) : Option String :=
  String.fromUTF8? ⟨bytes.toArray⟩

------------------------------------------------------------
-- Units
------------------------------------------------------------

/- A unit that only a low surrogate may follow. -/
def isHighSurrogate (unit : Nat) : Bool :=
  0xD800 ≤ unit && unit < 0xDC00

/- A unit that only a high surrogate may precede. -/
def isLowSurrogate (unit : Nat) : Bool :=
  0xDC00 ≤ unit && unit < 0xE000

/- The units of a character: one, or a pair of surrogates. -/
def unitsOf (c : Char) : List Nat :=
  if c.toNat < 0x10000 then [c.toNat]
  else
    let offset := c.toNat - 0x10000
    [0xD800 + offset / 0x400, 0xDC00 + offset % 0x400]

/- The character of a pair of surrogates. -/
def ofSurrogates (high low : Nat) : Char :=
  Char.ofNat
    (0x10000 + (high - 0xD800) * 0x400 + (low - 0xDC00))

/-
  The characters that units stand for, after those already
  seen in reverse. A surrogate outside a pair stands for none.
-/
def unitsToChars?
    (seen : List Char) :
    List Nat → Option (List Char)
| [] => some seen.reverse
| unit :: rest =>
    if isLowSurrogate unit then none
    else if isHighSurrogate unit then
      match rest with
      | [] => none
      | low :: rest =>
          if isLowSurrogate low then
            unitsToChars? (ofSurrogates unit low :: seen) rest
          else none
    else unitsToChars? (Char.ofNat unit :: seen) rest

/- The text that units of 16 bits stand for. -/
def ofUnits? (units : List Nat) : Option String :=
  (unitsToChars? [] units).map String.ofList

end Text

end Federation
