import Federation.Json.Printer
import Federation.Refusal
import Federation.Text.Printable
import Federation.Time.Reader

/-
  This file defines the faults that reading a value of a
  given form may find.

  Key definitions include:
    * `Reading.Found`
    * `Reading.Fault`
    * `Reading.Fault.message`
-/

namespace Federation

namespace Reading

------------------------------------------------------------
-- What Is Found
------------------------------------------------------------

/- What stands where another form was wanted. -/
inductive Found where
| null
| bool (value : Bool)
| integer (value : Int)
| float (value : Binary64)
| string (value : String)
| sequence
| map
| unreadable
deriving DecidableEq, Repr

/- What a JSON value is found to be. -/
def Found.ofJson : Json → Found
| .null => .null
| .bool value => .bool value
| .integer value => .integer value
| .float value => .float value
| .string value => .string value
| .array _ => .sequence
| .object _ => .map

/- The wording of what is found. -/
def Found.describe : Found → String
| .null => "null"
| .bool value => s!"boolean `{value}`"
| .integer value => s!"integer `{Json.integerText value}`"
| .float value =>
    s!"floating point `{Decimal.render Json.numberLayout value}`"
| .string value => s!"string {Text.quoted value}"
| .sequence => "sequence"
| .map => "map"
| .unreadable => "unreadable value"

------------------------------------------------------------
-- Faults
------------------------------------------------------------

/- Why a value does not have the wanted form. -/
inductive Fault where
| missing (field : String)
| duplicate (field : String)
| unknown (field : String)
| form (found : Found) (wanted : String)
| range (found : Found) (wanted : String)
| length (count : Nat) (wanted : String)
| refused (cause : Refusal)
| instant (fault : Instant.Fault)
deriving DecidableEq, Repr

/- The wording of a fault. -/
def Fault.message : Fault → String
| .missing field => s!"missing field `{field}`"
| .duplicate field => s!"duplicate field `{field}`"
| .unknown field => s!"unknown field `{field}`"
| .form found wanted =>
    s!"invalid type: {found.describe}, expected {wanted}"
| .range found wanted =>
    s!"invalid value: {found.describe}, expected {wanted}"
| .length count wanted =>
    s!"invalid length {count}, expected {wanted}"
| .refused cause => cause.message
| .instant fault => fault.message

/- A refusal as a fault of reading. -/
def ofRefusal
    {α : Type} :
    Except Refusal α → Except Fault α
| .ok value => .ok value
| .error cause => .error (.refused cause)

end Reading

end Federation
