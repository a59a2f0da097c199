import Federation.Decimal.Scaling
import Federation.Json.Basic

/-
  This file defines the numbers of JSON text: their form, and
  the value that the digits stand for.

  Key definitions include:
    * `Json.Number`
    * `Json.Number.ofChars?`
    * `Json.Number.gather`
    * `Json.Number.value?`
-/

namespace Federation

namespace Json

/- The parts of a number's text, of the digits each. -/
structure Number where
  negative : Bool
  whole : List Char
  fraction : List Char
  exponent : Option Int
deriving DecidableEq, Repr

namespace Number

------------------------------------------------------------
-- Digits
------------------------------------------------------------

/- A decimal digit of ASCII. -/
def isDigit (c : Char) : Bool :=
  '0' ≤ c && c ≤ '9'

/- The number with one more digit. -/
def append
    (n : Nat)
    (c : Char) : Nat :=
  10 * n + (c.toNat - 48)

/- The number that a run of digits stands for. -/
def ofDigits (digits : List Char) : Nat :=
  digits.foldl append 0

/- All the characters are digits, and there is one. -/
def unsigned? (cs : List Char) : Option Nat :=
  if cs ≠ [] ∧ cs.all isDigit then some (ofDigits cs)
  else none

------------------------------------------------------------
-- Form
------------------------------------------------------------

/- The digits before a point: no zero leads another digit. -/
def wholePart? :
    List Char → Option (List Char × List Char)
| '0' :: rest =>
    if (rest.head?.map isDigit).getD false then none
    else some (['0'], rest)
| cs =>
    match cs.takeWhile isDigit with
    | [] => none
    | digits => some (digits, cs.dropWhile isDigit)

/- The digits after a point, if there is one. -/
def fractionPart? :
    List Char → Option (List Char × List Char)
| '.' :: rest =>
    match rest.takeWhile isDigit with
    | [] => none
    | digits => some (digits, rest.dropWhile isDigit)
| cs => some ([], cs)

/- The exponent that ends a number, if there is one. -/
def exponentPart? : List Char → Option (Option Int)
| [] => some none
| e :: rest =>
    if e = 'e' ∨ e = 'E' then
      match rest with
      | '+' :: digits =>
          (unsigned? digits).map fun n => some (n : Int)
      | '-' :: digits =>
          (unsigned? digits).map fun n => some (-(n : Int))
      | digits =>
          (unsigned? digits).map fun n => some (n : Int)
    else
      none

/- The parts of a number's text. -/
def ofChars? (cs : List Char) : Option Number := do
  let (negative, body) :=
    match cs with
    | '-' :: rest => (true, rest)
    | _ => (false, cs)
  let (whole, rest) ← wholePart? body
  let (fraction, rest) ← fractionPart? rest
  let exponent ← exponentPart? rest
  return ⟨negative, whole, fraction, exponent⟩

------------------------------------------------------------
-- Value
------------------------------------------------------------

/- The least number that 64 bits do not hold. -/
def capacity : Nat := 0x10000000000000000

/-
  Append digits to a number as long as it has 64 bits. The
  digits from the first one that does not fit are left.
-/
def gather : Nat → List Char → Nat × List Char
| n, [] => (n, [])
| n, c :: rest =>
    if append n c < capacity then gather (append n c) rest
    else (n, c :: rest)

/-
  The float that a number's digits give: as many of them as
  64 bits hold, scaled by the power of ten that remains.
-/
def float? (n : Number) : Option Binary64 := do
  let (high, leftWhole) := gather 0 n.whole
  let (digits, leftFraction) := gather high n.fraction
  let power : Int :=
    leftWhole.length + leftFraction.length -
      n.fraction.length + n.exponent.getD 0
  let base ← Binary64.ofRatio? n.negative digits 1
  base.scale? power

/-
  The value of a number. Without fraction and exponent it is
  an integer if it has 64 bits; minus zero and all else are
  floats, and have no value if they are too large.
-/
def value? (n : Number) : Option Json :=
  let digits := ofDigits n.whole
  let signed : Int := if n.negative then -digits else digits
  let integral :=
    n.fraction = [] ∧ n.exponent = none ∧
      integerInRange signed ∧ ¬(n.negative ∧ digits = 0)
  if integral then some (.integer signed)
  else n.float?.map .float

end Number

end Json

end Federation
