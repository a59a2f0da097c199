import Federation.Certificate.Bytes
import Federation.Certificate.Extension
import Federation.Certificate.Pem
import Federation.Certificate.Validity

/-
  This file defines certificates and their reading from bytes
  in binary or textual form. Signatures are not verified.

  Key definitions include:
    * `SignedPart`
    * `Certificate`
    * `Certificate.ofDer?`
    * `Certificate.ofBytes?`
    * `Certificate.isSelfIssued`
    * `Certificate.isValidAt`
-/

namespace Federation

------------------------------------------------------------
-- The Signed Part
------------------------------------------------------------

/- What the signature of a certificate covers. -/
structure SignedPart where
  version : Nat
  serial : Bytes
  issuer : Name
  validity : Validity
  subject : Name
  extensions : List Extension
deriving DecidableEq, Repr

namespace SignedPart

/- The element at the start of bytes, if it is contextual. -/
def readContextual?
    (number : Nat)
    (bytes : Bytes) : Option (Element × Bytes) :=
  match Element.read? bytes with
  | none => none
  | some (e, rest) =>
      if e.HasNumber number && e.tag.family == .contextual then
        some (e, rest)
      else none

/- A version inside an element of number 0, or version 1 as 0. -/
def readVersion? (bytes : Bytes) : Option (Nat × Bytes) :=
  match readContextual? 0 bytes with
  | none => some (0, bytes)
  | some (e, rest) => do
      let (number, _) ← Element.read? e.content
      let version ← number.natural?
      some (version, rest)

/- The content of an integer of any size. -/
def readSerial? (bytes : Bytes) : Option (Bytes × Bytes) := do
  let (e, rest) ← Element.read? bytes
  if e.HasNumber Tag.integer then some (e.content, rest)
  else none

/- A sequence of an identifier and at most one parameter read. -/
def isAlgorithm (e : Element) : Bool :=
  e.HasNumber Tag.sequence &&
    match Element.read? e.content with
    | none => false
    | some (kind, rest) =>
        (ObjectId.ofElement? kind).isSome &&
          (rest.isEmpty || (Element.read? rest).isSome)

/- A string of bits. -/
def isBitString (e : Element) : Bool :=
  e.HasNumber Tag.bitString && !e.tag.isConstructed &&
    (Element.bits? e.content).isSome

/- A sequence of an algorithm and a string of bits. -/
def isPublicKey (e : Element) : Bool :=
  e.HasNumber Tag.sequence &&
    match Element.read? e.content with
    | none => false
    | some (algorithm, rest) =>
        isAlgorithm algorithm &&
          match Element.read? rest with
          | none => false
          | some (key, _) => isBitString key

/- An element that is as it should be, and the bytes after. -/
def expect?
    (isGood : Element → Bool)
    (bytes : Bytes) : Option Bytes := do
  let (e, rest) ← Element.read? bytes
  if isGood e then some rest else none

/-
  Bytes without a leading unique identifier of a number. The
  identifier has content, and it is not looked at.
-/
def skipUniqueId
    (number : Nat)
    (bytes : Bytes) : Bytes :=
  match readContextual? number bytes with
  | some (e, rest) =>
      if e.content.isEmpty then bytes else rest
  | none => bytes

/- The fields of a signed part, one after the other. -/
def ofContent? (bytes : Bytes) : Option SignedPart := do
  let (version, rest) ← readVersion? bytes
  let (serial, rest) ← readSerial? rest
  let rest ← expect? isAlgorithm rest
  let (issuer, rest) ← Element.read? rest
  let issuer ← Name.ofElement? issuer
  let (validity, rest) ← Element.read? rest
  let validity ← Validity.ofElement? validity
  let (subject, rest) ← Element.read? rest
  let subject ← Name.ofElement? subject
  let rest ← expect? isPublicKey rest
  let rest := skipUniqueId 2 (skipUniqueId 1 rest)
  let extensions ← Extension.readList? rest
  some
    ⟨version, serial, issuer, validity, subject, extensions⟩

end SignedPart

------------------------------------------------------------
-- Certificates
------------------------------------------------------------

/- A certificate with what is of interest in it. -/
structure Certificate where
  der : CertificateBytes
  subject : Name
  issuer : Name
  serial : Bytes
  validity : Validity
  isAuthority : Bool
  keyUsage : Option KeyUsage
deriving DecidableEq, Repr

namespace Certificate

/-
  The signed part of the only element of bytes: a sequence
  of that part, an algorithm and a signature.
-/
def signedPart? (der : Bytes) : Option SignedPart := do
  let (outer, after) ← Element.read? der
  if outer.HasNumber Tag.sequence && after.isEmpty then
    let (signed, rest) ← Element.read? outer.content
    let rest ← SignedPart.expect? SignedPart.isAlgorithm rest
    let _ ← SignedPart.expect? SignedPart.isBitString rest
    if signed.HasNumber Tag.sequence then
      SignedPart.ofContent? signed.content
    else none
  else none

/- The certificate that bytes in binary form are. -/
def ofDer? (der : Bytes) : Option Certificate := do
  let signed ← signedPart? der
  let keyUsage ← Extension.keyUsage? signed.extensions
  some
    { der := ⟨der⟩
      subject := signed.subject
      issuer := signed.issuer
      serial := signed.serial
      validity := signed.validity
      isAuthority := Extension.isAuthority signed.extensions
      keyUsage }

/- The certificate that bytes in either form are. -/
def ofBytes? (bytes : Bytes) : Option Certificate :=
  if Pem.looksLike bytes then
    (Pem.certificate? bytes).bind ofDer?
  else
    ofDer? bytes

/- The hash of the binary form. -/
def fingerprint (c : Certificate) : String :=
  c.der.fingerprint

/- Subject and issuer have the same text. -/
def isSelfIssued (c : Certificate) : Bool :=
  c.subject.display == c.issuer.display

/- The certificate is valid at an instant. -/
def isValidAt
    (c : Certificate)
    (t : Instant) : Bool :=
  c.validity.holds t

/- The members of a certificate as they are written. -/
def members (c : Certificate) : List (String × Json) :=
  [ ("subject", .string c.subject.display),
    ("issuer", .string c.issuer.display),
    ("serial", .string (Hex.encodeColons c.serial)),
    ("not_before", .string c.validity.notBefore.display),
    ("not_after", .string c.validity.notAfter.display),
    ("is_ca", .bool c.isAuthority),
    ("key_usage", Json.ofOption KeyUsage.toJson c.keyUsage),
    ("fingerprint_sha256", .string c.fingerprint) ]

end Certificate

end Federation
