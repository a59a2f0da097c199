import Federation.Bytes.Base64
import Federation.Bytes.Sha256
import Federation.Reading.Record
import Federation.Text.Blank

/-
  This file defines certificate material: bytes that may be
  a certificate, and their base64 text.

  Key definitions include:
    * `CertificateBytes`
    * `CertificateBytes.greatestSize`
    * `CertificateBytes.ofBase64`
    * `CertificateBytes.toBase64`
    * `CertificateBytes.fingerprint`
-/

namespace Federation

/- Bytes that may or may not be a certificate. -/
structure CertificateBytes where
  bytes : Bytes
deriving DecidableEq, Repr

namespace CertificateBytes

/- The size above which no certificate is looked at. -/
def greatestSize : Nat := 1000000

/- The bytes of a base64 text, blanks around it passed over. -/
def ofBase64 (text : String) : Except Refusal CertificateBytes :=
  let trimmed := String.ofList (Text.trim text.toList)
  match Base64.decode (Text.toBytes trimmed) with
  | .ok bytes => .ok ⟨bytes⟩
  | .error fault => .error (.certificateText fault.message)

/- The base64 text of the bytes. -/
def toBase64 (c : CertificateBytes) : String :=
  Base64.encodeText c.bytes

/- The hash of the bytes in hexadecimal. -/
def fingerprint (c : CertificateBytes) : String :=
  Sha256.hexDigest c.bytes

/- The number of bytes. -/
def size (c : CertificateBytes) : Nat :=
  c.bytes.length

/- A description that shows the size and the hash. -/
def describe (c : CertificateBytes) : String :=
  s!"CertificateBytes({c.size} bytes, sha256={c.fingerprint})"

/- Certificate material as its base64 text. -/
def toJson (c : CertificateBytes) : Json :=
  .string c.toBase64

/- Read certificate material from base64 text. -/
def read
    {σ : Type}
    [Reading.Source σ] :
    Reading.Reader σ CertificateBytes :=
  fun v => do
    let encoded ← Reading.text v
    Reading.ofRefusal (ofBase64 encoded)

end CertificateBytes

end Federation
