import Federation.Text.Unicode

/-
  This file defines the hexadecimal text of numbers and of
  bytes.

  Key definitions include:
    * `Hex.digit`
    * `Hex.encode`
    * `Hex.encodeUpper`
    * `Hex.ofNat`
    * `Hex.value?`
    * `Hex.decode?`
-/

namespace Federation

namespace Hex

------------------------------------------------------------
-- Digits
------------------------------------------------------------

/- The digits in ascending order, letters in lower case. -/
def lowerDigits : List Char :=
  ['0', '1', '2', '3', '4', '5', '6', '7',
    '8', '9', 'a', 'b', 'c', 'd', 'e', 'f']

/- The digits in ascending order, letters in upper case. -/
def upperDigits : List Char :=
  ['0', '1', '2', '3', '4', '5', '6', '7',
    '8', '9', 'A', 'B', 'C', 'D', 'E', 'F']

/- The digit of a value below sixteen. -/
def digit
    (digits : List Char)
    (value : Nat) : Char :=
  digits.getD value '0'

/- The value of a digit, whose letter may have either case. -/
def value? (c : Char) : Option Nat :=
  match lowerDigits.idxOf? c with
  | some value => some value
  | none => upperDigits.idxOf? c

------------------------------------------------------------
-- Numbers
------------------------------------------------------------

/- The text of a number without leading zeros. -/
def ofNat (n : Nat) : String :=
  String.ofList (Nat.toDigits 16 n)

/- The text of a number of 16 bits in exactly four digits. -/
def ofUnit (n : Nat) : String :=
  String.ofList
    [ digit lowerDigits (n / 4096 % 16),
      digit lowerDigits (n / 256 % 16),
      digit lowerDigits (n / 16 % 16),
      digit lowerDigits (n % 16) ]

------------------------------------------------------------
-- Bytes
------------------------------------------------------------

/- Two digits for each byte, the high one first. -/
def encodeWith
    (digits : List Char) :
    Bytes → List Char
| [] => []
| b :: rest =>
    digit digits (b.toNat / 16) ::
      digit digits (b.toNat % 16) ::
        encodeWith digits rest

/- Bytes as digits in lower case. -/
def encode (bytes : Bytes) : String :=
  String.ofList (encodeWith lowerDigits bytes)

/- Bytes as digits in upper case. -/
def encodeUpper (bytes : Bytes) : String :=
  String.ofList (encodeWith upperDigits bytes)

/- Bytes as digits in lower case, a colon between bytes. -/
def encodeColons (bytes : Bytes) : String :=
  ":".intercalate (bytes.map fun b => encode [b])

/- The bytes that pairs of digits stand for. -/
def decode? : List Char → Option Bytes
| [] => some []
| [_] => none
| high :: low :: rest =>
    match value? high, value? low, decode? rest with
    | some h, some l, some bytes =>
        some (UInt8.ofNat (16 * h + l) :: bytes)
    | _, _, _ => none

end Hex

end Federation
