import Federation.Certificate.Gate
import Federation.Command.Arguments
import Federation.Command.Failure
import Federation.Json.Reader

/-
  This file defines the commands that judge a document or a
  certificate in a file.

  Key definitions include:
    * `Judge.document`
    * `Judge.certificate`
-/

namespace Federation

namespace Judge

------------------------------------------------------------
-- Documents
------------------------------------------------------------

/- The line that something stands against a file. -/
def failLine (path : Path) (reason : String) : String :=
  s!"FAIL: {path.text}: {reason}"

/- The answer to a judgement of a value. -/
def verdict
    (path : Path)
    (kind : DocumentKind)
    (version : Version)
    (value : Json) : Reply :=
  match Validation.validate kind version value with
  | .ok _ =>
      .output 0
        [s!"OK: {path.text} is valid {kind.name} parameters {version}"]
  | .error e =>
      .output 1
        (failLine path e.message ::
          e.violations.map fun v => s!"  {v.display}")

/- The answer to the bytes of a document. -/
def documentReply
    (arguments : ValidateArguments)
    (content : Bytes) : Reply :=
  let path := arguments.path
  match (Text.ofBytes? content).bind Json.read? with
  | none => .output 1 [failLine path "not a JSON document"]
  | some value =>
      let declared := Validation.declaredVersion? value
      match arguments.version.or declared with
      | none =>
          .output 1
            [failLine path
              "no valid \"version\" field; pass --version"]
      | some version =>
          verdict path arguments.kind version value

/- Judge the document in a file. -/
def document
    (arguments : ValidateArguments) : Program Reply := do
  match ← Program.read arguments.path with
  | .error fault =>
      return .failure (.unreadable arguments.path fault)
  | .ok content => return documentReply arguments content

------------------------------------------------------------
-- Certificates
------------------------------------------------------------

/- The name by which errors call a file. -/
def nameOf (arguments : CertificateArguments) : String :=
  arguments.name.getD
    (arguments.path.fileName?.getD arguments.path.text)

/- The check that arguments demand at an instant. -/
def checkOf
    (arguments : CertificateArguments)
    (now : Instant) : Check :=
  match arguments.isAuthority, arguments.isCurrent with
  | false, false => Check.general
  | true, false => Check.authority
  | false, true => Check.validAt now
  | true, true => Check.both Check.authority (Check.validAt now)

/- The certificate in a file that passes the gate. -/
def acceptFile
    (check : Check)
    (name : String)
    (path : Path) :
    Program (Except CertificateError Certificate) := do
  let size ← Program.size path
  match size with
  | .error _ =>
      return Certificate.acceptFile check name none none
  | .ok size =>
      if CertificateBytes.greatestSize < size then
        return Certificate.acceptFile check name (some size) none
      else
        let content ← Program.read path
        return Certificate.acceptFile check name (some size)
          content.toOption

/- The lines about a certificate. -/
def certificateLines
    (name : String)
    (c : Certificate) : List String :=
  [ s!"OK: {name}",
    s!"  subject:     {c.subject.display}",
    s!"  issuer:      {c.issuer.display}",
    s!"  serial:      {Hex.encodeColons c.serial}",
    s!"  valid:       {c.validity.notBefore.displayPlain} .. {c.validity.notAfter.displayPlain}",
    s!"  ca:          {c.isAuthority}",
    s!"  sha256:      {c.fingerprint}" ]

/- Judge the certificate in a file. -/
def certificate
    (arguments : CertificateArguments) : Program Reply := do
  let now ← Program.now
  let name := nameOf arguments
  match ← acceptFile (checkOf arguments now) name
      arguments.path with
  | .error e => return .output 1 [s!"FAIL: {e.message}"]
  | .ok c =>
      if arguments.asJson then
        return .output 0 [Json.indented (.object c.members)]
      else return .output 0 (certificateLines name c)

end Judge

end Federation
