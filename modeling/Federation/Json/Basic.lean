import Federation.Decimal.Binary64
import Federation.Table

/-
  This file defines JSON values with exact integers, finite
  binary numbers, and objects as lists of members.

  Key definitions include:
    * `Json`
    * `Json.Members`
    * `Json.get?`
    * `Json.normalize`
    * `Json.integerInRange`
-/

namespace Federation

/-
  A JSON value. An integer and a float are different values
  even when they are the same number.
-/
inductive Json where
| null
| bool (value : Bool)
| integer (value : Int)
| float (value : Binary64)
| string (value : String)
| array (items : List Json)
| object (members : List (String × Json))
deriving Repr, Inhabited

namespace Json

------------------------------------------------------------
-- Equality
------------------------------------------------------------

mutual

/- Two values are equal or not. -/
def decEq : (a b : Json) → Decidable (a = b)
| .null, .null => isTrue rfl
| .bool x, .bool y =>
    if h : x = y then isTrue (by rw [h])
    else isFalse (by intro e; cases e; exact h rfl)
| .integer x, .integer y =>
    if h : x = y then isTrue (by rw [h])
    else isFalse (by intro e; cases e; exact h rfl)
| .float x, .float y =>
    if h : x = y then isTrue (by rw [h])
    else isFalse (by intro e; cases e; exact h rfl)
| .string x, .string y =>
    if h : x = y then isTrue (by rw [h])
    else isFalse (by intro e; cases e; exact h rfl)
| .array xs, .array ys =>
    match decEqItems xs ys with
    | isTrue h => isTrue (by rw [h])
    | isFalse h => isFalse (by intro e; cases e; exact h rfl)
| .object xs, .object ys =>
    match decEqMembers xs ys with
    | isTrue h => isTrue (by rw [h])
    | isFalse h => isFalse (by intro e; cases e; exact h rfl)
| .null, .bool _ | .null, .integer _ | .null, .float _
| .null, .string _ | .null, .array _ | .null, .object _
| .bool _, .null | .bool _, .integer _ | .bool _, .float _
| .bool _, .string _ | .bool _, .array _ | .bool _, .object _
| .integer _, .null | .integer _, .bool _
| .integer _, .float _ | .integer _, .string _
| .integer _, .array _ | .integer _, .object _
| .float _, .null | .float _, .bool _ | .float _, .integer _
| .float _, .string _ | .float _, .array _
| .float _, .object _
| .string _, .null | .string _, .bool _
| .string _, .integer _ | .string _, .float _
| .string _, .array _ | .string _, .object _
| .array _, .null | .array _, .bool _ | .array _, .integer _
| .array _, .float _ | .array _, .string _
| .array _, .object _
| .object _, .null | .object _, .bool _
| .object _, .integer _ | .object _, .float _
| .object _, .string _ | .object _, .array _ =>
    isFalse (by intro e; cases e)

/- Two lists of items are equal or not. -/
def decEqItems : (a b : List Json) → Decidable (a = b)
| [], [] => isTrue rfl
| [], _ :: _ => isFalse (by intro e; cases e)
| _ :: _, [] => isFalse (by intro e; cases e)
| x :: xs, y :: ys =>
    match decEq x y, decEqItems xs ys with
    | isTrue h, isTrue k => isTrue (by rw [h, k])
    | isFalse h, _ => isFalse (by intro e; cases e; exact h rfl)
    | _, isFalse k => isFalse (by intro e; cases e; exact k rfl)

/- Two lists of members are equal or not. -/
def decEqMembers :
    (a b : List (String × Json)) → Decidable (a = b)
| [], [] => isTrue rfl
| [], _ :: _ => isFalse (by intro e; cases e)
| _ :: _, [] => isFalse (by intro e; cases e)
| (k, x) :: xs, (l, y) :: ys =>
    if h : k = l then
      match decEq x y, decEqMembers xs ys with
      | isTrue i, isTrue j => isTrue (by rw [h, i, j])
      | isFalse i, _ =>
          isFalse (by intro e; cases e; exact i rfl)
      | _, isFalse j =>
          isFalse (by intro e; cases e; exact j rfl)
    else
      isFalse (by intro e; cases e; exact h rfl)

end

instance : DecidableEq Json := decEq

------------------------------------------------------------
-- Members
------------------------------------------------------------

/- The members of an object, in ascending order of keys. -/
abbrev Members := Table String Json

------------------------------------------------------------
-- Access
------------------------------------------------------------

/- The value of a key of an object. -/
def get? (key : String) : Json → Option Json
| .object members => members.lookup key
| _ => none

/- The text of a string. -/
def asString? : Json → Option String
| .string value => some value
| _ => none

/- The items of an array. -/
def asArray? : Json → Option (List Json)
| .array items => some items
| _ => none

/- The value of an integer that is not negative. -/
def asNat? : Json → Option Nat
| .integer (.ofNat n) => some n
| _ => none

------------------------------------------------------------
-- Building
------------------------------------------------------------

/- An object with its members put in order. -/
def ofMembers (members : List (String × Json)) : Json :=
  .object (Table.ofList members)

/- A list of values as an array. -/
def ofList
    {α : Type}
    (toJson : α → Json)
    (values : List α) : Json :=
  .array (values.map toJson)

/- An optional value, absent as null. -/
def ofOption
    {α : Type}
    (toJson : α → Json) :
    Option α → Json
| none => .null
| some value => toJson value

/- A natural number as an integer. -/
def ofNat (n : Nat) : Json :=
  .integer n

mutual

/-
  The value with every object's members put in order, the
  last of equal keys winning.
-/
def normalize : Json → Json
| .array items => .array (normalizeItems items)
| .object members =>
    .object (Table.ofList (normalizeMembers members))
| .null => .null
| .bool value => .bool value
| .integer value => .integer value
| .float value => .float value
| .string value => .string value

/- Each item normalized. -/
def normalizeItems : List Json → List Json
| [] => []
| item :: rest => item.normalize :: normalizeItems rest

/- Each member's value normalized. -/
def normalizeMembers :
    List (String × Json) → List (String × Json)
| [] => []
| (key, value) :: rest =>
    (key, value.normalize) :: normalizeMembers rest

end

------------------------------------------------------------
-- Integers
------------------------------------------------------------

/-
  An integer that has 64 bits, with a sign if it is negative
  and without one if it is not.
-/
def integerInRange (n : Int) : Bool :=
  -0x8000000000000000 ≤ n && n < 0x10000000000000000

end Json

end Federation
