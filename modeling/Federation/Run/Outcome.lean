import Federation.Publication.Basic
import Federation.Registry.File

/-
  This file defines what becomes of a version in a run: the
  states it may go through, and the outcome it ends in.

  Key definitions include:
    * `VersionState`
    * `VersionState.mayBecome`
    * `VersionOutcome`
    * `VersionOutcome.advance`
    * `VersionOutcome.reject`
    * `RunError`
-/

namespace Federation

------------------------------------------------------------
-- States
------------------------------------------------------------

/- How far a version has come in a run. -/
inductive VersionState where
| pending
| generating
| validating
| published
| rejected
| abandoned
deriving DecidableEq, Repr

namespace VersionState

/- The name of a state. -/
def name : VersionState → String
| .pending => "Pending"
| .generating => "Generating"
| .validating => "Validating"
| .published => "Published"
| .rejected => "Rejected"
| .abandoned => "Abandoned"

/- A version in this state goes no further. -/
def isTerminal : VersionState → Bool
| .published | .rejected | .abandoned => true
| .pending | .generating | .validating => false

/- The states that may follow a state. -/
def mayBecome : VersionState → VersionState → Bool
| .pending, .generating => true
| .pending, .abandoned => true
| .generating, .validating => true
| .generating, .rejected => true
| .validating, .published => true
| .validating, .rejected => true
| _, _ => false

end VersionState

------------------------------------------------------------
-- Errors
------------------------------------------------------------

/- Why a run has no report. -/
inductive RunError where
/- The registry cannot be used. -/
| registry (cause : RegistryError)
/- The index cannot be moved. -/
| publication (cause : PublicationError)
/- A state does not follow the state before. -/
| transition
    (version : Version)
    (old new : VersionState)
deriving DecidableEq

/- The wording of an error. -/
def RunError.message : RunError → String
| .registry cause => cause.message
| .publication cause => cause.message
| .transition version old new =>
    s!"invalid transition for {version} from {old.name} to {new.name}"

------------------------------------------------------------
-- Rejections
------------------------------------------------------------

/- The part of a run in which a version is rejected. -/
inductive RejectionStage where
| generation
| validation
| publication
deriving DecidableEq, Repr

/- The name of a stage. -/
def RejectionStage.name : RejectionStage → String
| .generation => "generation"
| .validation => "validation"
| .publication => "publication"

/- Where a version is rejected, and the wording of why. -/
structure Rejection where
  stage : RejectionStage
  reason : String
deriving DecidableEq, Repr

/- A rejection as an object, its members as written. -/
def Rejection.toJson (r : Rejection) : Json :=
  .object
    [ ("stage", .string r.stage.name),
      ("error", .string r.reason) ]

------------------------------------------------------------
-- Outcomes
------------------------------------------------------------

/- What has become of a version. -/
structure VersionOutcome where
  version : Version
  state : VersionState
  privateDigest : Option Digest
  sharedDigest : Option Digest
  rejection : Option Rejection
deriving DecidableEq

namespace VersionOutcome

/- A version with which nothing has been done. -/
def initial (version : Version) : VersionOutcome :=
  ⟨version, .pending, none, none, none⟩

/- An outcome in the next state. -/
def advance
    (o : VersionOutcome)
    (state : VersionState) : Except RunError VersionOutcome :=
  if o.state.mayBecome state then .ok { o with state }
  else .error (.transition o.version o.state state)

/- An outcome that is rejected. -/
def reject
    (o : VersionOutcome)
    (stage : RejectionStage)
    (reason : String) : Except RunError VersionOutcome := do
  let o ← o.advance .rejected
  return { o with rejection := some ⟨stage, reason⟩ }

/- An outcome as an object, its members as written. -/
def toJson (o : VersionOutcome) : Json :=
  .object
    [ ("version", o.version.toJson),
      ("state", .string o.state.name),
      ("privateDigest",
        Json.ofOption Digest.toJson o.privateDigest),
      ("sharedDigest",
        Json.ofOption Digest.toJson o.sharedDigest),
      ("rejection",
        Json.ofOption Rejection.toJson o.rejection) ]

end VersionOutcome

end Federation
