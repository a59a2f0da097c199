import Federation.Command.Arguments
import Federation.Command.Settings
import Federation.Publication.Directory
import Federation.Registry.File
import Federation.Run.Basic

/-
  This file defines the command that generates and publishes
  the documents of every version.

  Key definitions include:
    * `Generate.overridden`
    * `Generate.plan`
    * `Generate.execute`
    * `Generate.reportLines`
    * `Generate.reply`
-/

namespace Federation

namespace Generate

------------------------------------------------------------
-- Runs
------------------------------------------------------------

/- Settings with what arguments say. -/
def withArguments
    (settings : Settings)
    (shared : SharedArguments)
    (arguments : GenerateArguments) : Settings :=
  { settings with
    registry := arguments.registry.or settings.registry
    outputDir := shared.outputDir.or settings.outputDir
    heldBackVersions :=
      if arguments.heldBack.isEmpty then
        settings.heldBackVersions
      else arguments.heldBack
    isParallel :=
      settings.isParallel && !arguments.isSequential }

/- Generators of which some may become current or may not. -/
def overridden :
    Table Version Bool → GeneratorSet →
      Except Failure GeneratorSet
| [], generators => .ok generators
| (version, isEligible) :: rest, generators =>
    match generators.setEligibility version isEligible with
    | .error cause => .error (.eligibility version cause)
    | .ok generators => overridden rest generators

/- How often every version takes its turn. -/
def rounds : Nat := 64

/- The plan of a run that publishes in a directory. -/
def plan
    (settings : Settings)
    (generators : GeneratorSet)
    (registry output : Path) : Run.Plan :=
  { source := Registry.load registry
    generators
    policy := VersionPolicy.ofList settings.heldBackVersions
    publisher := Publisher.directory output
    turns :=
      if settings.isParallel then
        Run.alternating generators.versions.length rounds
      else [] }

/- Do a run as settings say. -/
def execute
    (settings : Settings)
    (registry output : Path) :
    Program (Except Failure RunReport) := do
  match overridden settings.eligibility GeneratorSet.builtin with
  | .error failure => return .error failure
  | .ok generators =>
      match ← Run.execute
          (plan settings generators registry output) with
      | .error e => return .error (.run e)
      | .ok report => return .ok report

------------------------------------------------------------
-- Reports
------------------------------------------------------------

/- The line of a version's outcome. -/
def outcomeLine (o : VersionOutcome) : String :=
  match o.rejection, o.sharedDigest with
  | some rejection, _ =>
      s!"  {o.version}: REJECTED at {rejection.stage.name}: {rejection.reason}"
  | none, some digest =>
      if o.state = .published then
        s!"  {o.version}: published (shared {digest.display})"
      else s!"  {o.version}: {o.state.name}"
  | none, none => s!"  {o.version}: {o.state.name}"

/- The line of the current version. -/
def currentLines (r : RunReport) : List String :=
  match r.currentVersion with
  | none => []
  | some version =>
      if r.currentMarked then [s!"Current version: {version}"]
      else
        [s!"Current version {version} not published; index unchanged"]

/- The lines of a report. -/
def reportLines (r : RunReport) : List String :=
  match r.fault with
  | some fault => [s!"FAULT: {fault.message}"]
  | none => r.outcomes.map outcomeLine ++ currentLines r

/- The lines of an answer, as a value or as text. -/
def answerLines (asJson : Bool) (r : RunReport) : List String :=
  if asJson then [Json.indented r.toJson]
  else reportLines r

------------------------------------------------------------
-- The Command
------------------------------------------------------------

/- Answer with the report of a run. -/
def replyWith
    (settings : Settings)
    (asJson : Bool) : Program Reply := do
  match settings.registry, settings.outputDir with
  | none, _ => return .failure .noRegistry
  | some _, none => return .failure .noOutput
  | some registry, some output =>
      match ← execute settings (Path.ofText registry)
          (Path.ofText output) with
      | .error failure => return .failure failure
      | .ok report =>
          return .output report.exitCode
            (answerLines asJson report)

/- The answer to the command. -/
def reply
    (environment : Settings.Environment)
    (shared : SharedArguments)
    (arguments : GenerateArguments) : Program Reply := do
  match ← Settings.load shared.config environment with
  | .error e => return .failure (.settings e)
  | .ok settings =>
      replyWith (withArguments settings shared arguments)
        arguments.asJson

end Generate

end Federation
