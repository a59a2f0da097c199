import Federation.Bytes.Hex

/-
  This file defines the text of identifiers of sixteen
  random bytes: five groups of digits, with the version and
  the variant of such identifiers marked in two of them.

  Key definitions include:
    * `Uuid.stamp`
    * `Uuid.ofBytes`
-/

namespace Federation

namespace Uuid

/- A byte of an identifier with the marks of its place. -/
def stampAt
    (place : Nat)
    (b : UInt8) : UInt8 :=
  if place = 6 then b % 16 + 64
  else if place = 8 then b % 64 + 128
  else b

/- Bytes with the marks of an identifier. -/
def stamp (bytes : Bytes) : Bytes :=
  bytes.mapIdx stampAt

/- How many bytes each group shows. -/
def groupSizes : List Nat := [4, 2, 2, 2, 6]

/- Bytes in groups of given sizes. -/
def groups : List Nat → Bytes → List Bytes
| [], _ => []
| size :: sizes, bytes =>
    bytes.take size :: groups sizes (bytes.drop size)

/- The text of the identifier of random bytes. -/
def ofBytes (bytes : Bytes) : String :=
  "-".intercalate
    ((groups groupSizes (stamp bytes)).map Hex.encode)

end Uuid

end Federation
