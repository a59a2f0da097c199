import Federation.Certificate.Name
import Federation.Json.Basic

/-
  This file defines the extensions of certificates, and the
  two that trust depends on.

  Key definitions include:
    * `Extension`
    * `Extension.readList?`
    * `BasicConstraints`
    * `KeyUsage`
    * `Extension.isAuthority`
    * `Extension.keyUsage?`
-/

namespace Federation

------------------------------------------------------------
-- Extensions
------------------------------------------------------------

/- What an extension is, and its content. -/
structure Extension where
  id : ObjectId
  isCritical : Bool
  content : Bytes
deriving DecidableEq, Repr

namespace Extension

/- The truth of an element of one byte. -/
def truth? (e : Element) : Option Bool :=
  if e.HasNumber Tag.boolean then
    match e.content with
    | [b] => some (b != 0)
    | _ => none
  else none

/- An extension's criticality, which may be left out. -/
def splitCritical
    (e : Element)
    (rest : Bytes) : Option (Bool × Element) :=
  match truth? e with
  | none => some (false, e)
  | some isCritical =>
      (Element.read? rest).map fun (value, _) =>
        (isCritical, value)

/- The extension that a sequence stands for. -/
def ofElement? (e : Element) : Option Extension :=
  if e.HasNumber Tag.sequence then do
    let (kind, rest) ← Element.read? e.content
    let id ← ObjectId.ofElement? kind
    let (next, rest) ← Element.read? rest
    let (isCritical, value) ← splitCritical next rest
    if value.HasNumber Tag.octetString &&
        !value.tag.isConstructed then
      some ⟨id, isCritical, value.content⟩
    else none
  else none

/- The extensions that a sequence consists of. -/
def listOfElement? (e : Element) : Option (List Extension) :=
  if e.HasNumber Tag.sequence then do
    let elements ← Element.readAll? e.content
    elements.mapM ofElement?
  else none

/-
  The extensions at the end of a certificate's signed part:
  nothing, or a header of number 3 and one sequence.
-/
def readList? (bytes : Bytes) : Option (List Extension) :=
  if bytes.isEmpty then some []
  else do
    let (tag, _, rest) ← Element.readHeader? bytes
    let (list, rest) ← Element.read? rest
    if tag.number = 3 ∧ rest = [] then listOfElement? list
    else none

end Extension

------------------------------------------------------------
-- Basic Constraints
------------------------------------------------------------

/- Whether a subject may issue, and how long a chain. -/
structure BasicConstraints where
  isAuthority : Bool
  pathLength : Option Nat
deriving DecidableEq, Repr

namespace BasicConstraints

/- The element is of a universal form without parts. -/
def IsPlain (e : Element) : Bool :=
  e.tag.family == .universal && !e.tag.isConstructed

/- The truth of an element without parts. -/
def flag? (e : Element) : Option Bool :=
  if IsPlain e then Extension.truth? e else none

/- The number of 32 bits of an element without parts. -/
def length? (e : Element) : Option Nat :=
  if IsPlain e && e.HasNumber Tag.integer then
    Element.word? e.content
  else none

/- The constraints of elements, each of which may be left out. -/
def ofElements? : List Element → Option BasicConstraints
| [] => some ⟨false, none⟩
| [e] =>
    match flag? e with
    | some isAuthority => some ⟨isAuthority, none⟩
    | none => (length? e).map fun n => ⟨false, some n⟩
| [e, f] =>
    match flag? e, length? f with
    | some isAuthority, some n => some ⟨isAuthority, some n⟩
    | _, _ => none
| _ => none

/- The constraints that an extension's content starts with. -/
def ofContent? (content : Bytes) : Option BasicConstraints := do
  let (e, _) ← Element.read? content
  let elements ← Element.readAll? e.content
  if e.HasNumber Tag.sequence && e.tag.isConstructed then
    ofElements? elements
  else none

end BasicConstraints

------------------------------------------------------------
-- Key Usage
------------------------------------------------------------

/- The uses of a key that trust depends on. -/
structure KeyUsage where
  digitalSignature : Bool
  keyCertSign : Bool
  crlSign : Bool
deriving DecidableEq, Repr

namespace KeyUsage

/- A bit of a byte is set. -/
def hasBit
    (b : UInt8)
    (place : Nat) : Bool :=
  b.toNat / Nat.pow 2 place % 2 == 1

/- The uses that the first byte of a string of bits names. -/
def ofBits : Bytes → KeyUsage
| [] => ⟨false, false, false⟩
| b :: _ => ⟨hasBit b 7, hasBit b 2, hasBit b 1⟩

/-
  The bits of a string of at least no bits. At most seven
  bits of the last byte are unused, and those are zero.
-/
def bits? : Bytes → Option Bytes
| [] => none
| unused :: bytes =>
    if 7 < unused.toNat then none
    else
      match bytes.getLast? with
      | none => some []
      | some last =>
          if Element.lowBitsClear unused.toNat last then
            some bytes
          else none

/- The uses that an extension's content starts with. -/
def ofContent? (content : Bytes) : Option KeyUsage := do
  let (e, _) ← Element.read? content
  if e.HasNumber Tag.bitString && !e.tag.isConstructed then
    (bits? e.content).map ofBits
  else none

/- The uses as an object, its members as written. -/
def toJson (k : KeyUsage) : Json :=
  .object
    [ ("digital_signature", .bool k.digitalSignature),
      ("key_cert_sign", .bool k.keyCertSign),
      ("crl_sign", .bool k.crlSign) ]

end KeyUsage

------------------------------------------------------------
-- Extensions by Identifier
------------------------------------------------------------

namespace Extension

/- The extensions with an identifier. -/
def withId
    (id : ObjectId)
    (extensions : List Extension) : List Extension :=
  extensions.filter fun e => e.id = id

/-
  One extension, and not more, says that the subject may
  issue certificates.
-/
def isAuthority (extensions : List Extension) : Bool :=
  match withId ObjectId.basicConstraints extensions with
  | [e] =>
      match BasicConstraints.ofContent? e.content with
      | some constraints => constraints.isAuthority
      | none => false
  | _ => false

/-
  The uses of the key, if an extension names them. There is
  no answer if two extensions do, or one that is unreadable.
-/
def keyUsage?
    (extensions : List Extension) :
    Option (Option KeyUsage) :=
  match withId ObjectId.keyUsage extensions with
  | [] => some none
  | [e] => (KeyUsage.ofContent? e.content).map some
  | _ => none

end Extension

end Federation
