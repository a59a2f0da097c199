import Federation.Certificate.Basic

/-
  This file defines the checks that certificates for a
  purpose must pass, and the gate in front of every use: no
  more bytes than allowed, a certificate, and a check.

  Key definitions include:
    * `CheckFault`
    * `Check`
    * `Check.authority`
    * `Check.validAt`
    * `Check.both`
    * `CertificateError`
    * `Certificate.accept`
    * `Certificate.acceptFile`
-/

namespace Federation

------------------------------------------------------------
-- Checks
------------------------------------------------------------

/- Why a certificate is not fit for a purpose. -/
inductive CheckFault where
| notAuthority (subject : String)
| noCertSign (subject : String)
| notYetValid (start : Instant)
| expired (finish : Instant)
| other (reason : String)
deriving DecidableEq, Repr

/- The wording of a fault. -/
def CheckFault.message : CheckFault → String
| .notAuthority subject =>
    s!"certificate \"{subject}\" is not a CA certificate (basicConstraints cA is not set)"
| .noCertSign subject =>
    s!"CA certificate \"{subject}\" does not permit keyCertSign"
| .notYetValid start =>
    s!"certificate is not valid before {start.displayPlain}"
| .expired finish =>
    s!"certificate expired at {finish.displayPlain}"
| .other reason => reason

/- What a certificate for a purpose must be. -/
abbrev Check := Certificate → Except CheckFault Unit

namespace Check

/- Every certificate is fit. -/
def general : Check := fun _ => .ok ()

/-
  A certificate of an authority. If it names the uses of its
  key, signing certificates is one of them.
-/
def authority : Check := fun c =>
  if c.isAuthority then
    match c.keyUsage with
    | none => .ok ()
    | some usage =>
        if usage.keyCertSign then .ok ()
        else .error (.noCertSign c.subject.display)
  else .error (.notAuthority c.subject.display)

/- A certificate that is valid at an instant. -/
def validAt (t : Instant) : Check := fun c =>
  if !c.validity.notBefore.isAtMost t then
    .error (.notYetValid c.validity.notBefore)
  else if !t.isAtMost c.validity.notAfter then
    .error (.expired c.validity.notAfter)
  else .ok ()

/- Two checks in order; the first fault counts. -/
def both (first second : Check) : Check := fun c =>
  match first c with
  | .error fault => .error fault
  | .ok () => second c

end Check

------------------------------------------------------------
-- Errors
------------------------------------------------------------

/- Why a certificate is not accepted. -/
inductive CertificateDetail where
| malformed
| check (fault : CheckFault)
deriving DecidableEq, Repr

/- The wording of a reason. -/
def CertificateDetail.message : CertificateDetail → String
| .malformed => "not a well-formed X.509 certificate"
| .check fault => fault.message

/- Why a file is not accepted as a certificate. -/
inductive CertificateError where
| tooLarge (filename : String) (size : Nat)
| invalid (filename : String) (detail : CertificateDetail)
deriving DecidableEq, Repr

/- The wording of an error. -/
def CertificateError.message : CertificateError → String
| .tooLarge filename size =>
    s!"certificate file \"{filename}\" is {size} bytes, exceeding the {CertificateBytes.greatestSize}-byte limit"
| .invalid filename detail =>
    s!"certificate file \"{filename}\" is invalid: {detail.message}"

/- The file that an error is about. -/
def CertificateError.filename : CertificateError → String
| .tooLarge filename _ => filename
| .invalid filename _ => filename

------------------------------------------------------------
-- The Gate
------------------------------------------------------------

namespace Certificate

/- The certificate of bytes of a permitted size. -/
def judge
    (check : Check)
    (filename : String)
    (bytes : Bytes) : Except CertificateError Certificate :=
  match ofBytes? bytes with
  | none => .error (.invalid filename .malformed)
  | some c =>
      match check c with
      | .error fault =>
          .error (.invalid filename (.check fault))
      | .ok () => .ok c

/- The certificate of bytes that pass the gate. -/
def accept
    (check : Check)
    (filename : String)
    (bytes : Bytes) : Except CertificateError Certificate :=
  if CertificateBytes.greatestSize < bytes.length then
    .error (.tooLarge filename bytes.length)
  else judge check filename bytes

/-
  The certificate of a file that passes the gate, given the
  file's size, if it is known, and its content, if it can be
  read. No more than a byte above the limit is read.
-/
def acceptFile
    (check : Check)
    (filename : String)
    (size : Option Nat)
    (content : Option Bytes) :
    Except CertificateError Certificate :=
  match size, content with
  | none, _ => .error (.invalid filename .malformed)
  | some size, content =>
      if CertificateBytes.greatestSize < size then
        .error (.tooLarge filename size)
      else
        match content with
        | none => .error (.invalid filename .malformed)
        | some bytes =>
            accept check filename
              (bytes.take (CertificateBytes.greatestSize + 1))

end Certificate

end Federation
