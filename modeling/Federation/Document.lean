import Federation.Canonical
import Federation.Reading.Identity

/-
  This file defines parameters documents: a kind, a version,
  the instant of generation, and content of any shape.

  Key definitions include:
    * `DocumentKind`
    * `Document`
    * `Document.new`
    * `Document.read`
    * `Document.toJson`
    * `Document.text`
    * `Document.digest`
    * `Document.SameContent`
-/

namespace Federation

------------------------------------------------------------
-- Kinds
------------------------------------------------------------

/- Parameters for one operator alone, or shared by all. -/
inductive DocumentKind where
| privateParameters
| sharedParameters
deriving DecidableEq, Repr

namespace DocumentKind

/- The name of a kind. -/
def name : DocumentKind → String
| .privateParameters => "private"
| .sharedParameters => "shared"

/- The file that a document of a kind is published in. -/
def fileName : DocumentKind → String
| .privateParameters => "private-params.json"
| .sharedParameters => "shared-params.json"

/- The message for a text that names no kind. -/
def unknownMessage (text : String) : String :=
  s!"unknown document kind \"{text}\" (expected private or shared)"

/-
  The kind that a text names, letters of ASCII in either
  case. A refusal quotes the text in lower case.
-/
def parse (text : String) : Except String DocumentKind :=
  let lower := String.ofList (text.toList.map Char.toLower)
  if lower = "private" then .ok .privateParameters
  else if lower = "shared" then .ok .sharedParameters
  else .error (unknownMessage lower)

/- A kind as its name. -/
def toJson (k : DocumentKind) : Json :=
  .string k.name

end DocumentKind

------------------------------------------------------------
-- Documents
------------------------------------------------------------

/- A parameters document of a kind. -/
structure Document (kind : DocumentKind) where
  version : Version
  generatedAt : Instant
  content : Json.Members
deriving DecidableEq

namespace Document

variable {kind : DocumentKind}

/- The keys around a document's content. -/
def envelopeKeys : List String :=
  ["version", "generatedAt"]

/-
  A document with the given content. The envelope's keys are
  taken out of it, and the instant loses its fraction.
-/
def new
    (kind : DocumentKind)
    (version : Version)
    (generatedAt : Instant)
    (content : Json.Members) : Document kind :=
  { version
    generatedAt := generatedAt.truncate
    content :=
      content.filter fun (key, _) => key ∉ envelopeKeys }

/- Two documents have the same version and content. -/
def SameContent (a b : Document kind) : Prop :=
  a.version = b.version ∧ a.content = b.content

instance (a b : Document kind) : Decidable (SameContent a b) := by
  unfold SameContent
  infer_instance

------------------------------------------------------------
-- Digests
------------------------------------------------------------

/- The value whose canonical bytes are digested. -/
def subject (d : Document kind) : Json :=
  .object
    [ ("content", .object d.content),
      ("kind", kind.toJson),
      ("version", d.version.toJson) ]

/- The digest of kind, version and content. -/
def digest (d : Document kind) : Except Canonical.Fault Digest :=
  (Canonical.encode d.subject).map Digest.of

------------------------------------------------------------
-- JSON
------------------------------------------------------------

/- The members of a document, the envelope first. -/
def members (d : Document kind) : List (String × Json) :=
  ("version", d.version.toJson) ::
    ("generatedAt", .string d.generatedAt.display) ::
      d.content

/- A document as an object with its members in order. -/
def toJson (d : Document kind) : Json :=
  Json.ofMembers d.members

/- The compact text of a document, the envelope first. -/
def text (d : Document kind) : String :=
  Json.compact (.object d.members)

/- Read an instant from text. -/
def readInstant
    {σ : Type}
    [Reading.Source σ] : Reading.Reader σ Instant :=
  fun v => do
    let text ←
      Reading.expect
        "an RFC 3339 formatted date and time string"
        Reading.Source.text? v
    match Instant.parse text with
    | .ok t => .ok t
    | .error fault => .error (.instant fault)

/- The envelope of a document, its content still to come. -/
def envelope
    (kind : DocumentKind) :
    Reading.Record Json (Json.Members → Document kind) :=
  ((Reading.Record.pure fun version generatedAt content =>
      Document.mk version generatedAt
        (Table.ofList content)).required
      "version" Version.read).required
    "generatedAt" readInstant

/-
  Read a document of a kind. What does not belong to the
  envelope is its content.
-/
def read
    (kind : DocumentKind) :
    Reading.Reader Json (Document kind) :=
  Reading.Record.readShared "ParametersDocument"
    (envelope kind) .ok

end Document

end Federation
