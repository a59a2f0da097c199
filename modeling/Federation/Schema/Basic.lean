import Federation.Json.Basic
import Federation.Schema.Pattern

/-
  This file defines the schemas of documents and the numeric
  notions that they judge values with.

  Key definitions include:
    * `Schema`
    * `Json.isWhole`
    * `Json.isBelow`
    * `Json.sameValue`
    * `Json.hasRepeats`
-/

namespace Federation

------------------------------------------------------------
-- Schemas
------------------------------------------------------------

/-
  The form of a value. A record has no members but its
  properties, and its required ones are named in order.
-/
inductive Schema where
| text (minLength : Nat) (pattern : Option Pattern)
| flag
| whole (minimum : Int)
| constant (value : Int)
| list (item : Schema) (minItems : Nat) (unique : Bool)
| record
    (properties : List (String × Schema))
    (required : List String)
deriving Repr

namespace Json

------------------------------------------------------------
-- Numbers
------------------------------------------------------------

/- A number without a fraction, however it is written. -/
def isWhole : Json → Bool
| .integer _ => true
| .float x => x.toInt?.isSome
| _ => false

/- A number less than an integer. -/
def isBelow (limit : Int) : Json → Bool
| .integer n => n < limit
| .float x => x.compareInt limit == .lt
| _ => false

------------------------------------------------------------
-- Equality of Values
------------------------------------------------------------

/-
  Two numbers are the same. They are compared exactly, an
  integer and a float too. If signs count, minus zero is
  another number than zero.
-/
def sameNumber (signed : Bool) : Json → Json → Bool
| .integer m, .integer n => m == n
| .integer m, .float y =>
    y.compareInt m == .eq && !(signed && y.isMinusZero)
| .float x, .integer n =>
    x.compareInt n == .eq && !(signed && x.isMinusZero)
| .float x, .float y =>
    x == y || !signed && decide (x.SameNumber y)
| _, _ => false

mutual

/-
  Two values are the same: equal texts and truth values, the
  same numbers, and arrays and objects of the same parts.
-/
def sameValue (signed : Bool) : Json → Json → Bool
| .null, .null => true
| .bool a, .bool b => a == b
| .string a, .string b => a == b
| .array xs, .array ys => sameItems signed xs ys
| .object xs, .object ys => sameMembers signed xs ys
| x, y => sameNumber signed x y

/- Two lists of items are the same. -/
def sameItems (signed : Bool) : List Json → List Json → Bool
| [], [] => true
| x :: xs, y :: ys =>
    sameValue signed x y && sameItems signed xs ys
| _, _ => false

/- Two lists of members are the same. -/
def sameMembers
    (signed : Bool) :
    List (String × Json) → List (String × Json) → Bool
| [], [] => true
| (k, x) :: xs, (l, y) :: ys =>
    k == l && sameValue signed x y && sameMembers signed xs ys
| _, _ => false

end

/- Some item of a list is the same as a later one. -/
def someRepeated (signed : Bool) : List Json → Bool
| [] => false
| item :: rest =>
    rest.any (sameValue signed item) ||
      someRepeated signed rest

/- The signs of zeros count in lists of more items than this. -/
def unsignedLength : Nat := 15

/- Some item of a list is repeated. -/
def hasRepeats (items : List Json) : Bool :=
  someRepeated (unsignedLength < items.length) items

end Json

end Federation
