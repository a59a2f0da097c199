import Federation.Decimal.Binary64

/-
  This file defines the decimal text of a binary number: the
  fewest digits that read back as the number, and the ways to
  lay them out.

  Key definitions include:
    * `Decimal.Interval`
    * `Decimal.shortest`
    * `Decimal.Layout`
    * `Decimal.render`
    * `Decimal.plain`
-/

namespace Federation

namespace Decimal

------------------------------------------------------------
-- Numbers That Read Back
------------------------------------------------------------

/-
  The ratios that round to one positive number: from `low`
  to `high` in units of a fraction, ends included or not.
-/
structure Interval where
  low : Nat
  value : Nat
  high : Nat
  unitNumerator : Nat
  unitDenominator : Nat
  closed : Bool
deriving DecidableEq, Repr

/-
  The ratios that round to a number. The gap below a power
  of two is half the gap above it.
-/
def Interval.of (x : Binary64) : Interval :=
  let m := x.significand
  let atPower :=
    m == Nat.pow 2 52 && Binary64.leastExponent < x.exponent
  let shift := x.exponent - 2
  { low := if atPower then 4 * m - 1 else 4 * m - 2
    value := 4 * m
    high := 4 * m + 2
    unitNumerator := Nat.pow 2 shift.toNat
    unitDenominator := Nat.pow 2 (-shift).toNat
    closed := m % 2 == 0 }

/- A multiple of a power of ten lies in the interval. -/
def Interval.holds
    (i : Interval)
    (digits : Nat)
    (exponent : Int) : Bool :=
  let point :=
    digits * Nat.pow 10 exponent.toNat * i.unitDenominator
  let scale := i.unitNumerator * Nat.pow 10 (-exponent).toNat
  if i.closed then
    i.low * scale ≤ point && point ≤ i.high * scale
  else
    i.low * scale < point && point < i.high * scale

/- The greatest multiple of a power of ten up to the value. -/
def Interval.floorAt
    (i : Interval)
    (exponent : Int) : Nat :=
  i.value * i.unitNumerator * Nat.pow 10 (-exponent).toNat /
    (i.unitDenominator * Nat.pow 10 exponent.toNat)

/-
  The lower of the value's two neighbours on a decimal grid
  is not further from the value than the upper one, and on a
  tie it is even.
-/
def Interval.prefersLower
    (i : Interval)
    (lower : Nat)
    (exponent : Int) : Bool :=
  let twice :=
    2 * i.value * i.unitNumerator *
      Nat.pow 10 (-exponent).toNat
  let middle :=
    (2 * lower + 1) * Nat.pow 10 exponent.toNat *
      i.unitDenominator
  twice < middle || twice == middle && lower % 2 == 0

/-
  The point of the coarsest decimal grid that lies in the
  interval, the nearer one if two do. The grid of step `n`
  has the exponent `n - 325`.
-/
def search
    (i : Interval) :
    (step : Nat) → Nat × Int
| 0 => (i.floorAt (-325), -325)
| step + 1 =>
    let exponent : Int := (step : Int) - 324
    let lower := i.floorAt exponent
    let hitLower := i.holds lower exponent
    let hitUpper := i.holds (lower + 1) exponent
    if hitLower && hitUpper then
      if i.prefersLower lower exponent then
        (lower, exponent)
      else
        (lower + 1, exponent)
    else if hitLower then (lower, exponent)
    else if hitUpper then (lower + 1, exponent)
    else search i step

/-
  The fewest digits, with their power of ten, that read back
  as the number, and of those the nearest to it.
-/
def shortest (x : Binary64) : Nat × Int :=
  if x.significand = 0 then
    (0, 0)
  else
    let bits : Int := Nat.log2 x.significand + x.exponent
    let start := (bits + 2) * 302 / 1000 + 2
    search (Interval.of x) (start + 325).toNat

------------------------------------------------------------
-- Layouts
------------------------------------------------------------

/-
  How digits are laid out: where positional text ends, what
  marks a whole number, and the sign of a great exponent.
-/
structure Layout where
  scientific : Bool
  wholeMark : String
  plus : String
deriving DecidableEq, Repr

/- The text of a natural number. -/
def digitsText (n : Nat) : String :=
  String.ofList (Nat.toDigits 10 n)

/- A run of zeros. -/
def zeros (count : Nat) : String :=
  String.ofList (List.replicate count '0')

/- Digits with the point at their place. -/
def positional
    (layout : Layout)
    (digits : Nat)
    (exponent : Int) : String :=
  let text := Nat.toDigits 10 digits
  let size : Int := text.length + exponent
  if 0 ≤ exponent then
    digitsText digits ++ zeros exponent.toNat ++
      layout.wholeMark
  else if 0 < size then
    String.ofList (text.take size.toNat) ++ "." ++
      String.ofList (text.drop size.toNat)
  else
    "0." ++ zeros (-size).toNat ++ digitsText digits

/- Digits with the point after the first and an exponent. -/
def scientificText
    (layout : Layout)
    (digits : Nat)
    (exponent : Int) : String :=
  let text := Nat.toDigits 10 digits
  let power : Int := text.length + exponent - 1
  let sign :=
    if power < 0 then "-" else layout.plus
  let fraction :=
    if text.length = 1 then ""
    else "." ++ String.ofList (text.drop 1)
  String.ofList (text.take 1) ++ fraction ++ "e" ++ sign ++
    digitsText power.natAbs

/-
  The text of a number. A layout with exponents uses them
  below 10^-5 and from 10^16 on.
-/
def render
    (layout : Layout)
    (x : Binary64) : String :=
  let (digits, exponent) := shortest x
  let size : Int :=
    (Nat.toDigits 10 digits).length + exponent
  let sign := if x.negative then "-" else ""
  if layout.scientific && !(-5 < size && size ≤ 16) then
    sign ++ scientificText layout digits exponent
  else
    sign ++ positional layout digits exponent

/- Every digit in its place, and nothing after a whole number. -/
def plain : Layout :=
  ⟨false, "", ""⟩

end Decimal

end Federation
