import Federation.Bytes.Sha256
import Federation.Json.Printer

/-
  This file defines the canonical bytes of a JSON value and
  their digest. A value with a float has none.

  Key definitions include:
    * `Canonical.firstFloat?`
    * `Canonical.Fault`
    * `Canonical.encode`
    * `Digest`
-/

namespace Federation

namespace Canonical

------------------------------------------------------------
-- Floats
------------------------------------------------------------

mutual

/- The first float of a value, depth first. -/
def firstFloat? : Json → Option Binary64
| .float x => some x
| .array items => firstFloatOfItems? items
| .object members => firstFloatOfMembers? members
| .null => none
| .bool _ => none
| .integer _ => none
| .string _ => none

/- The first float of a list of items. -/
def firstFloatOfItems? : List Json → Option Binary64
| [] => none
| item :: rest =>
    match firstFloat? item with
    | some x => some x
    | none => firstFloatOfItems? rest

/- The first float of a list of members. -/
def firstFloatOfMembers? :
    List (String × Json) → Option Binary64
| [] => none
| (_, value) :: rest =>
    match firstFloat? value with
    | some x => some x
    | none => firstFloatOfMembers? rest

end

------------------------------------------------------------
-- Bytes
------------------------------------------------------------

/- Why a value has no canonical bytes. -/
inductive Fault where
| float (value : Binary64)
deriving DecidableEq, Repr

/- The wording of a fault. -/
def Fault.message : Fault → String
| .float value =>
    s!"float values are not permitted in canonical representations: {Decimal.render Decimal.plain value}"

/- The canonical text of a value. -/
def text (value : Json) : Except Fault String :=
  let ordered := value.normalize
  match firstFloat? ordered with
  | some x => .error (.float x)
  | none => .ok ordered.compact

/-
  The canonical bytes of a value: its compact text with
  members in ascending order of keys.
-/
def encode (value : Json) : Except Fault Bytes :=
  (text value).map Text.toBytes

end Canonical

------------------------------------------------------------
-- Digests
------------------------------------------------------------

/- A digest in hexadecimal. -/
structure Digest where
  hex : String
deriving DecidableEq, Repr

/- The digest of bytes. -/
def Digest.of (bytes : Bytes) : Digest :=
  ⟨Sha256.hexDigest bytes⟩

/- A digest with the name of its function. -/
def Digest.display (d : Digest) : String :=
  "sha256:" ++ d.hex

/- A digest as its hexadecimal text. -/
def Digest.toJson (d : Digest) : Json :=
  .string d.hex

end Federation
