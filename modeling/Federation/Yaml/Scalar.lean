import Federation.Json.Number
import Federation.Yaml.Token

/-
  This file defines what the text of a YAML scalar means: a
  number, a truth value, nothing, or the text itself.

  Key definitions include:
    * `Yaml.isNull`
    * `Yaml.flag?`
    * `Yaml.unsigned?`
    * `Yaml.integer?`
    * `Yaml.isTyped`
    * `Yaml.hasType`
-/

namespace Federation

namespace Yaml

------------------------------------------------------------
-- Truth Values and Nothing
------------------------------------------------------------

/- The text means that there is no value. -/
def isNull (text : String) : Bool :=
  ["null", "Null", "NULL", "~"].contains text

/- The truth value that a text means. -/
def flag? (text : String) : Option Bool :=
  if ["true", "True", "TRUE"].contains text then some true
  else if ["false", "False", "FALSE"].contains text then
    some false
  else none

------------------------------------------------------------
-- Integers
------------------------------------------------------------

/- The value of digits in a base. -/
def digits?
    (base : Nat) :
    (value : Nat) → List Char → Option Nat
| value, [] => some value
| value, c :: rest => do
    let digit ← hexValue? c
    if digit < base then digits? base (base * value + digit) rest
    else none

/- The value of at least one digit in a base. -/
def number? (base : Nat) (chars : List Char) : Option Nat :=
  if chars.isEmpty then none else digits? base 0 chars

/- The number that may have the sign of a base before it. -/
def magnitude? (chars : List Char) : Option Nat :=
  match chars with
  | '0' :: 'x' :: rest => number? 16 rest
  | '0' :: 'o' :: rest => number? 8 rest
  | '0' :: 'b' :: rest => number? 2 rest
  | '0' :: c :: rest =>
      if (c :: rest).all Char.isDigit then none
      else number? 10 chars
  | _ => number? 10 chars

/- The number that a text means, if it has no minus. -/
def unsigned? (text : String) : Option Nat :=
  match text.toList with
  | '+' :: rest => magnitude? rest
  | chars => magnitude? chars

/- An integer that has 128 bits, as those with 64 bits do. -/
def isLong (n : Int) : Bool :=
  -0x80000000000000000000000000000000 ≤ n &&
    n < 0x100000000000000000000000000000000

/- The integer that a text means, if it is not too long. -/
def integer? (text : String) : Option Int :=
  let value :=
    match text.toList with
    | '-' :: rest => (magnitude? rest).map fun n => -(n : Int)
    | _ => (unsigned? text).map Int.ofNat
  value.filter isLong

------------------------------------------------------------
-- Decimals
------------------------------------------------------------

/- The number of a decimal without a sign, if it is finite. -/
def decimal? (chars : List Char) : Option Binary64 := do
  let whole := chars.takeWhile Char.isDigit
  let (fraction, rest) :=
    match chars.dropWhile Char.isDigit with
    | '.' :: rest =>
        (rest.takeWhile Char.isDigit, rest.dropWhile Char.isDigit)
    | rest => ([], rest)
  if whole.isEmpty && fraction.isEmpty then none
  let exponent ← Json.Number.exponentPart? rest
  Binary64.ofDecimal? false (Json.Number.ofDigits (whole ++ fraction))
    (exponent.getD 0 - fraction.length)

/- The texts that mean what is no finite number. -/
def unboundedTexts : List String :=
  [".inf", ".Inf", ".INF", "+.inf", "+.Inf", "+.INF",
    "-.inf", "-.Inf", "-.INF", ".nan", ".NaN", ".NAN"]

/- A text without its sign. -/
def withoutSign (text : String) : List Char :=
  match text.toList with
  | '+' :: rest => rest
  | '-' :: rest => rest
  | chars => chars

/- The text means a decimal or no finite number. -/
def isFloat (text : String) : Bool :=
  unboundedTexts.contains text ||
    (decimal? (withoutSign text)).isSome

/- The text has leading zeros, as no number has. -/
def hasLeadingZeros (text : String) : Bool :=
  match withoutSign text with
  | '0' :: c :: rest => (c :: rest).all Char.isDigit
  | _ => false

/- The text means a number of any kind. -/
def isNumber (text : String) : Bool :=
  (integer? text).isSome ||
    (isFloat text && !hasLeadingZeros text)

------------------------------------------------------------
-- Types
------------------------------------------------------------

/- The text means nothing, a truth value or a number. -/
def isTyped (text : String) : Bool :=
  text = "" || isNull text || (flag? text).isSome ||
    isNumber text

/- The tag of a type of values that every document knows. -/
def knownTag (name : String) : String :=
  "tag:yaml.org,2002:" ++ name

/- The tag of a type that only the document knows. -/
def isPrivateTag (tag : String) : Bool :=
  tag.startsWith "!"

/-
  A scalar has a type if its text has the form that the tag
  asks for. An integer of more than 64 bits has none.
-/
def hasType
    (tag : Option String)
    (style : ScalarStyle)
    (text : String) : Bool :=
  match tag with
  | none =>
      style ≠ .plain || (integer? text).all Json.integerInRange
  | some tag =>
      if tag = knownTag "bool" then (flag? text).isSome
      else if tag = knownTag "int" then
        (integer? text).any Json.integerInRange
      else if tag = knownTag "float" then isFloat text
      else if tag = knownTag "null" then isNull text
      else !isPrivateTag tag

end Yaml

end Federation
