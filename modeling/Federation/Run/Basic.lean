import Federation.Run.Report

/-
  This file defines runs. From one registry, every version
  is generated, judged and published, and if nothing stands
  against it, the highest eligible version becomes current.

  Key definitions include:
    * `Run.Draft`
    * `Run.draft`
    * `Run.approve`
    * `Run.process`
    * `Run.execute`
-/

namespace Federation

namespace Run

------------------------------------------------------------
-- Drafts
------------------------------------------------------------

/- The documents of a version with their digests. -/
structure Draft where
  privateParameters : Document .privateParameters
  sharedParameters : Document .sharedParameters
  privateDigest : Digest
  sharedDigest : Digest
deriving DecidableEq

/- The draft of two documents, or the float in one of them. -/
def Draft.ofDocuments
    (privateParameters : Document .privateParameters)
    (sharedParameters : Document .sharedParameters) :
    Except Canonical.Fault Draft := do
  let privateDigest ← privateParameters.digest
  let sharedDigest ← sharedParameters.digest
  return ⟨privateParameters, sharedParameters,
    privateDigest, sharedDigest⟩

/- Generate both documents, the private one first. -/
def draft
    (generator : Generator)
    (r : Registry) : Program (Except String Draft) := do
  let first ← Program.now
  match generator.generate .privateParameters first r with
  | .error e => return .error e.message
  | .ok privateParameters =>
      let second ← Program.now
      match generator.generate .sharedParameters second r with
      | .error e => return .error e.message
      | .ok sharedParameters =>
          return (Draft.ofDocuments privateParameters
            sharedParameters).mapError Canonical.Fault.message

------------------------------------------------------------
-- Approval
------------------------------------------------------------

/-
  The bundle of a draft that passes the judgement of its
  generator, declares its version, and keeps to the schema
  and the rules of the version.
-/
def approve
    (generator : Generator)
    (version : Version)
    (d : Draft) : Except ParameterError Bundle := do
  generator.validate .privateParameters d.privateParameters
  generator.validate .sharedParameters d.sharedParameters
  let bundle ←
    Bundle.new version d.privateParameters d.sharedParameters
      d.privateDigest d.sharedDigest
  Validation.validateDocument version bundle.privateParameters
  Validation.validateDocument version bundle.sharedParameters
  return bundle

------------------------------------------------------------
-- Versions
------------------------------------------------------------

/- An outcome with the digests of a draft. -/
def withDigests
    (o : VersionOutcome)
    (d : Draft) : VersionOutcome :=
  { o with
    privateDigest := some d.privateDigest
    sharedDigest := some d.sharedDigest }

/- Judge a draft, and publish it if it is approved. -/
def publishDraft
    (publisher : Publisher)
    (generator : Generator)
    (d : Draft)
    (o : VersionOutcome) :
    Program (Except RunError VersionOutcome) := do
  match approve generator o.version d with
  | .error e => return o.reject .validation e.message
  | .ok bundle =>
      match ← publisher.publish bundle with
      | .error e => return o.reject .publication e.message
      | .ok _ => return o.advance .published

/- Generate the documents of a version, and go on with them. -/
def generateVersion
    (generators : GeneratorSet)
    (publisher : Publisher)
    (r : Registry)
    (o : VersionOutcome) :
    Program (Except RunError VersionOutcome) := do
  match generators.get o.version
      (.generate .privateParameters) with
  | .error e => return o.reject .generation e.message
  | .ok generator =>
      match ← draft generator r with
      | .error reason => return o.reject .generation reason
      | .ok d =>
          match (withDigests o d).advance .validating with
          | .error e => return .error e
          | .ok o => publishDraft publisher generator d o

/-
  What becomes of a version: it is abandoned if the run is
  cancelled before, and else ends published or rejected.
-/
def process
    (generators : GeneratorSet)
    (publisher : Publisher)
    (r : Registry)
    (version : Version) :
    Program (Except RunError VersionOutcome) := do
  let o := VersionOutcome.initial version
  if ← Program.isCancelled then
    return o.advance .abandoned
  else
    match o.advance .generating with
    | .error e => return .error e
    | .ok o => generateVersion generators publisher r o

------------------------------------------------------------
-- Runs
------------------------------------------------------------

/-
  What a run is done with. Its turns tell how the steps of
  versions alternate; without turns, one version follows the
  other.
-/
structure Plan where
  source : Program (Except RegistryError Registry)
  generators : GeneratorSet
  policy : VersionPolicy
  publisher : Publisher
  turns : List Nat

/- Turns in which every one of a number of programs alternates. -/
def alternating (count rounds : Nat) : List Nat :=
  (List.replicate rounds (List.range count)).flatten

/- Name the current version if the run has published it. -/
def conclude
    (publisher : Publisher)
    (state : RunState)
    (current : Version)
    (outcomes : List VersionOutcome) :
    Program (Except RunError Bool) := do
  let isPublished :=
    outcomes.any fun o =>
      o.version = current && o.state = .published
  if state = .completed ∧ isPublished then
    match ← publisher.markCurrent current with
    | .error e => return .error (.publication e)
    | .ok _ => return .ok true
  else return .ok false

/- The report of a run over a registry. -/
def executeOn
    (plan : Plan)
    (runId : String)
    (startedAt : Instant)
    (r : Registry) : Program (Except RunError RunReport) := do
  match plan.policy.current plan.generators with
  | .error fault =>
      let finishedAt ← Program.now
      return .ok
        { runId, startedAt, finishedAt
          state := .completed
          currentVersion := none
          currentMarked := false
          fault := some fault
          outcomes := [] }
  | .ok current =>
      let results ←
        Program.interleave plan.turns
          (plan.generators.versions.map fun version =>
            process plan.generators plan.publisher r version)
      match results.mapM id with
      | .error e => return .error e
      | .ok outcomes =>
          let isCancelled ← Program.isCancelled
          let state :=
            if isCancelled then RunState.cancelled
            else RunState.completed
          match ← conclude plan.publisher state current
              outcomes with
          | .error e => return .error e
          | .ok currentMarked =>
              let finishedAt ← Program.now
              return .ok
                { runId, startedAt, finishedAt, state
                  currentVersion := some current
                  currentMarked
                  fault := none
                  outcomes }

/- Do a run and report on it. -/
def execute
    (plan : Plan) : Program (Except RunError RunReport) := do
  let runId ← Program.freshName
  let startedAt ← Program.now
  match ← plan.source with
  | .error e => return .error (.registry e)
  | .ok r => executeOn plan runId startedAt r

end Run

end Federation
