import Federation.Decimal.Binary64

/-
  This file defines the scaling of binary numbers by powers
  of ten. The power is a binary number itself, and every
  product and quotient is rounded once.

  Key definitions include:
    * `Binary64.times?`
    * `Binary64.dividedBy?`
    * `Binary64.powerOfTen?`
    * `Binary64.raise?`
    * `Binary64.lower?`
    * `Binary64.scale?`
-/

namespace Federation

namespace Binary64

------------------------------------------------------------
-- Products and Quotients
------------------------------------------------------------

/- The numerator of a number's size as a ratio. -/
def numerator (x : Binary64) : Nat :=
  x.significand * Nat.pow 2 x.exponent.toNat

/- The denominator of a number's size as a ratio. -/
def denominator (x : Binary64) : Nat :=
  Nat.pow 2 (-x.exponent).toNat

/- The product of two numbers, rounded. -/
def times? (x y : Binary64) : Option Binary64 :=
  ofRatio? (x.negative != y.negative)
    (x.numerator * y.numerator)
    (x.denominator * y.denominator)

/- The quotient of two numbers, rounded. -/
def dividedBy? (x y : Binary64) : Option Binary64 :=
  if y.significand = 0 then none
  else
    ofRatio? (x.negative != y.negative)
      (x.numerator * y.denominator)
      (x.denominator * y.numerator)

------------------------------------------------------------
-- Powers of Ten
------------------------------------------------------------

/- The number nearest to a power of ten. -/
def powerOfTen? (exponent : Nat) : Option Binary64 :=
  ofRatio? false (Nat.pow 10 exponent) 1

/- The greatest exponent of a power of ten. -/
def greatestPower : Nat := 308

/- A number times a power of ten. Zero has every multiple. -/
def raise?
    (x : Binary64)
    (exponent : Nat) : Option Binary64 :=
  if exponent ≤ greatestPower then do
    x.times? (← powerOfTen? exponent)
  else if x.significand = 0 then
    some x
  else
    none

/-
  A number divided by a power of ten. While the exponent is
  too great, the greatest power is taken out of it.
-/
def lower?
    (x : Binary64)
    (exponent : Nat) : Option Binary64 :=
  if exponent ≤ greatestPower then do
    x.dividedBy? (← powerOfTen? exponent)
  else if x.significand = 0 then
    some x
  else do
    let part ← x.dividedBy? (← powerOfTen? greatestPower)
    lower? part (exponent - greatestPower)
  termination_by exponent
  decreasing_by
    simp only [greatestPower] at *
    omega

/- A number times a power of ten of either sign. -/
def scale? (x : Binary64) : Int → Option Binary64
| .ofNat exponent => x.raise? exponent
| .negSucc exponent => x.lower? (exponent + 1)

end Binary64

end Federation
