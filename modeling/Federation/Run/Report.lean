import Federation.Generation.Policy
import Federation.Run.Outcome

/-
  This file defines the report of a run.

  Key definitions include:
    * `RunState`
    * `RunReport`
    * `RunReport.published`, `RunReport.rejected`
    * `RunReport.exitCode`
    * `RunReport.toJson`
-/

namespace Federation

/- How a run ends. -/
inductive RunState where
| completed
| cancelled
deriving DecidableEq, Repr

/- The name of a state. -/
def RunState.name : RunState → String
| .completed => "Completed"
| .cancelled => "Cancelled"

/-
  The report of a run. A run with a fault has no outcomes,
  and no version is current in it.
-/
structure RunReport where
  runId : String
  startedAt : Instant
  finishedAt : Instant
  state : RunState
  currentVersion : Option Version
  currentMarked : Bool
  fault : Option PolicyFault
  outcomes : List VersionOutcome
deriving DecidableEq

namespace RunReport

/- The outcome of a version. -/
def outcome?
    (r : RunReport)
    (version : Version) : Option VersionOutcome :=
  r.outcomes.find? fun o => o.version = version

/- The versions whose outcome has a state. -/
def versionsIn
    (r : RunReport)
    (state : VersionState) : List Version :=
  (r.outcomes.filter fun o => o.state = state).map
    VersionOutcome.version

/- The versions that are published. -/
def published (r : RunReport) : List Version :=
  r.versionsIn .published

/- The versions that are rejected. -/
def rejected (r : RunReport) : List Version :=
  r.versionsIn .rejected

/- Everything is published, and the current version named. -/
def isSuccess (r : RunReport) : Bool :=
  r.state = .completed &&
    r.outcomes.all (fun o => o.state = .published) &&
    r.currentMarked

/-
  The number that a report is told by: zero for success, two
  for a fault of the whole run, and else one.
-/
def exitCode (r : RunReport) : Nat :=
  if r.fault.isSome then 2
  else if r.isSuccess then 0
  else 1

/- The members of a report as they are written. -/
def members (r : RunReport) : List (String × Json) :=
  [ ("runId", .string r.runId),
    ("startedAt", .string r.startedAt.display),
    ("finishedAt", .string r.finishedAt.display),
    ("state", .string r.state.name),
    ("currentVersion",
      Json.ofOption Version.toJson r.currentVersion),
    ("currentMarked", .bool r.currentMarked),
    ("fault", Json.ofOption PolicyFault.toJson r.fault),
    ("outcomes",
      Json.ofList VersionOutcome.toJson r.outcomes) ]

/- A report as an object, its members as written. -/
def toJson (r : RunReport) : Json :=
  .object r.members

end RunReport

end Federation
