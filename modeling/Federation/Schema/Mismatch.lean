import Federation.Schema.Basic
import Federation.Violation

/-
  This file defines how a value fails a schema, and the
  search for every failure in a fixed order.

  Key definitions include:
    * `Mismatch`
    * `Mismatch.message`
    * `Schema.mismatches`
    * `Schema.violations`
-/

namespace Federation

------------------------------------------------------------
-- Mismatches
------------------------------------------------------------

/- How a value fails the schema of its place. -/
inductive Mismatch where
| form (value : Json) (wanted : String)
| missing (name : String)
| unexpected (names : List String)
| unmatched (value : Json) (pattern : Pattern)
| short (value : Json) (least : Nat)
| few (value : Json) (least : Nat)
| below (value : Json) (least : Int)
| repeated (value : Json)
| constant (value : Int)
deriving DecidableEq, Repr

namespace Mismatch

/- A count of things, in the plural unless it is one. -/
def counted
    (n : Nat)
    (thing : String) : String :=
  if n = 1 then s!"{n} {thing}" else s!"{n} {thing}s"

/- Names between single quotes, with commas. -/
def nameList (names : List String) : String :=
  ", ".intercalate (names.map fun name => "'" ++ name ++ "'")

/- The wording of a mismatch. -/
def message : Mismatch → String
| .form value wanted =>
    s!"{value.compact} is not of type \"{wanted}\""
| .missing name =>
    s!"{(Json.string name).compact} is a required property"
| .unexpected names =>
    let verb := if names.length = 1 then "was" else "were"
    s!"Additional properties are not allowed ({nameList names} {verb} unexpected)"
| .unmatched value pattern =>
    s!"{value.compact} does not match \"{pattern.source}\""
| .short value least =>
    let wanted := counted least "character"
    s!"{value.compact} is shorter than {wanted}"
| .few value least =>
    let wanted := counted least "item"
    s!"{value.compact} has less than {wanted}"
| .below value least =>
    s!"{value.compact} is less than the minimum of {least}"
| .repeated value =>
    s!"{value.compact} has non-unique elements"
| .constant value => s!"{value} was expected"

end Mismatch

namespace Schema

------------------------------------------------------------
-- Judging a Place
------------------------------------------------------------

/- A mismatch and where it is. -/
abbrev Finding := Pointer × Mismatch

/- A list with a mismatch if a condition holds. -/
def whenever
    (condition : Bool)
    (place : Pointer)
    (mismatch : Mismatch) : List Finding :=
  if condition then [(place, mismatch)] else []

/- The mismatches of a value where a text is wanted. -/
def textMismatches
    (minLength : Nat)
    (pattern : Option Pattern)
    (place : Pointer)
    (value : Json) : List Finding :=
  match value with
  | .string s =>
      whenever (s.length < minLength) place
          (.short value minLength) ++
        match pattern with
        | none => []
        | some p =>
            whenever (!p.accepts s.toList) place
              (.unmatched value p)
  | _ => [(place, .form value "string")]

/- The mismatches of a value where a whole number is wanted. -/
def wholeMismatches
    (minimum : Int)
    (place : Pointer)
    (value : Json) : List Finding :=
  whenever (value.isBelow minimum) place
      (.below value minimum) ++
    whenever (!value.isWhole) place (.form value "integer")

/- The names of members that are no properties. -/
def unexpectedNames
    (properties : List (String × Schema))
    (members : Json.Members) : List String :=
  (members.map Prod.fst).filter fun name =>
    (properties.lookup name).isNone

/- The mismatch of members that are no properties. -/
def extraMismatches
    (properties : List (String × Schema))
    (place : Pointer)
    (members : Json.Members) : List Finding :=
  match unexpectedNames properties members with
  | [] => []
  | names => [(place, .unexpected names)]

/- The mismatches of required members that are missing. -/
def missingMismatches
    (required : List String)
    (place : Pointer)
    (members : Json.Members) : List Finding :=
  (required.filter fun name =>
      (members.lookup name).isNone).map fun name =>
    (place, .missing name)

------------------------------------------------------------
-- Every Mismatch
------------------------------------------------------------

mutual

/-
  Every mismatch of a value. Parts come before the whole, in
  the order of the value, and a value of another form has
  that one mismatch only.
-/
def mismatches :
    Schema → Pointer → Json → List Finding
| .text minLength pattern, place, value =>
    textMismatches minLength pattern place value
| .flag, place, value =>
    match value with
    | .bool _ => []
    | _ => [(place, .form value "boolean")]
| .whole minimum, place, value =>
    wholeMismatches minimum place value
| .constant expected, place, value =>
    whenever (!value.sameValue false (.integer expected)) place
      (.constant expected)
| .list item minItems unique, place, value =>
    match value with
    | .array items =>
        items.zipIdx.flatMap
            (fun (part, i) =>
              mismatches item (place.index i) part) ++
          whenever (items.length < minItems) place
            (.few value minItems) ++
          whenever (unique && Json.hasRepeats items) place
            (.repeated value)
    | _ => [(place, .form value "array")]
| .record properties required, place, value =>
    match value with
    | .object members =>
        members.flatMap
            (fun (name, part) =>
              propertyMismatches properties name
                (place.key name) part) ++
          extraMismatches properties place members ++
          missingMismatches required place members
    | _ => [(place, .form value "object")]

/- Every mismatch of a member that may be a property. -/
def propertyMismatches :
    List (String × Schema) → (name : String) → Pointer →
      Json → List Finding
| [], _, _, _ => []
| (key, schema) :: rest, name, place, value =>
    if key = name then mismatches schema place value
    else propertyMismatches rest name place value

end

/- Every mismatch of a document as a violation. -/
def violations
    (schema : Schema)
    (document : Json) : List Violation :=
  (mismatches schema [] document).map fun (place, mismatch) =>
    Violation.located place mismatch.message

end Schema

end Federation
