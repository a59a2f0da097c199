/-
  This file defines the finite binary numbers of 64 bits as
  exact quantities, so that they can be compared and printed
  without floating-point arithmetic.

  Key definitions include:
    * `Binary64`
    * `Binary64.ofRatio?`
    * `Binary64.ofDecimal?`
    * `Binary64.toInt?`
    * `Binary64.compareInt`
    * `Binary64.isMinusZero`
    * `Binary64.SameNumber`
-/

namespace Federation

/-
  The number `significand * 2 ^ exponent` with a sign. The
  significand has at most 53 bits and the exponent is at
  least -1074; zero keeps its sign.
-/
structure Binary64 where
  negative : Bool
  significand : Nat
  exponent : Int
deriving DecidableEq, Repr

namespace Binary64

------------------------------------------------------------
-- Rounding
------------------------------------------------------------

/- The quotient rounded to nearest, a tie to the even one. -/
def divideEven (numerator denominator : Nat) : Nat :=
  let quotient := numerator / denominator
  let rest := numerator % denominator
  if 2 * rest < denominator then quotient
  else if denominator < 2 * rest then quotient + 1
  else if quotient % 2 = 0 then quotient
  else quotient + 1

/- The quotient of a ratio by a power of two, rounded. -/
def scaled
    (numerator denominator : Nat)
    (exponent : Int) : Nat :=
  divideEven
    (numerator * Nat.pow 2 (-exponent).toNat)
    (denominator * Nat.pow 2 exponent.toNat)

/- The least exponent of a number. -/
def leastExponent : Int := -1074

/- The greatest exponent of a number. -/
def greatestExponent : Int := 971

/-
  The exponent at which a positive ratio has a significand
  of 53 bits, or the least exponent if that is greater.
-/
def exponentOf (numerator denominator : Nat) : Int :=
  let estimate : Int :=
    (Nat.log2 numerator : Int) - Nat.log2 denominator - 52
  let short :=
    numerator * Nat.pow 2 (-estimate).toNat <
      denominator * Nat.pow 2 estimate.toNat * Nat.pow 2 52
  max leastExponent (if short then estimate - 1 else estimate)

/- Zero with a sign. -/
def zero (negative : Bool) : Binary64 :=
  ⟨negative, 0, leastExponent⟩

/-
  The number nearest to a ratio, a tie to the even
  significand, unless the ratio is too large for any.
-/
def ofRatio?
    (negative : Bool)
    (numerator denominator : Nat) : Option Binary64 :=
  if numerator = 0 then
    some (zero negative)
  else
    let exponent := exponentOf numerator denominator
    let significand := scaled numerator denominator exponent
    let number : Binary64 :=
      if significand = Nat.pow 2 53 then
        ⟨negative, Nat.pow 2 52, exponent + 1⟩
      else
        ⟨negative, significand, exponent⟩
    if greatestExponent < number.exponent then none
    else some number

/-
  The number nearest to `digits * 10 ^ exponent`. Powers of
  ten far outside the range are settled by their size alone.
-/
def ofDecimal?
    (negative : Bool)
    (digits : Nat)
    (exponent : Int) : Option Binary64 :=
  let size : Int := (Nat.toDigits 10 digits).length + exponent
  if digits = 0 then some (zero negative)
  else if size > 310 then none
  else if size < -330 then some (zero negative)
  else
    ofRatio? negative
      (digits * Nat.pow 10 exponent.toNat)
      (Nat.pow 10 (-exponent).toNat)

------------------------------------------------------------
-- Integer Values
------------------------------------------------------------

/- The value of a number, when it is an integer. -/
def toInt? (x : Binary64) : Option Int :=
  let divisor := Nat.pow 2 (-x.exponent).toNat
  if x.significand % divisor = 0 then
    let size : Int :=
      x.significand / divisor * Nat.pow 2 x.exponent.toNat
    some (if x.negative then -size else size)
  else
    none

/- The order between a number and an integer. -/
def compareInt
    (x : Binary64)
    (n : Int) : Ordering :=
  let size : Int := x.significand * Nat.pow 2 x.exponent.toNat
  compare (if x.negative then -size else size)
    (n * Nat.pow 2 (-x.exponent).toNat)

/- The zero with a minus sign. -/
def isMinusZero (x : Binary64) : Bool :=
  x.negative && x.significand == 0

/- Two numbers have the same value, whatever a zero's sign. -/
def SameNumber (x y : Binary64) : Prop :=
  x = y ∨ x.significand = 0 ∧ y.significand = 0

instance (x y : Binary64) : Decidable (SameNumber x y) := by
  unfold SameNumber
  infer_instance

end Binary64

end Federation
