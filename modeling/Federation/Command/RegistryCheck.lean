import Federation.Command.Arguments
import Federation.Command.Settings
import Federation.Registry.File

/-
  This file defines the command that checks a registry: every
  version is generated and judged, and nothing is published.

  Key definitions include:
    * `RegistryCheck.dryRun`
    * `RegistryCheck.verdicts`
    * `RegistryCheck.reply`
-/

namespace Federation

namespace RegistryCheck

/- Generate and judge the document of a kind. -/
def dryRunKind
    (generators : GeneratorSet)
    (version : Version)
    (r : Registry)
    (kind : DocumentKind)
    (now : Instant) : Except GeneratorError Unit := do
  let document ← generators.generate kind version now r
  generators.validate version document

/- Generate and judge both documents, the private one first. -/
def dryRun
    (generators : GeneratorSet)
    (r : Registry)
    (version : Version) :
    Program (Except GeneratorError Unit) := do
  let first ← Program.now
  match dryRunKind generators version r .privateParameters
      first with
  | .error e => return .error e
  | .ok _ =>
      let second ← Program.now
      return dryRunKind generators version r .sharedParameters
        second

/- A version with what stands against it. -/
abbrev Verdict := Version × Except GeneratorError Unit

/- The verdicts on versions in their order. -/
def verdicts
    (generators : GeneratorSet)
    (r : Registry) : List Version → Program (List Verdict)
| [] => return []
| version :: rest => do
    let result ← dryRun generators r version
    let others ← verdicts generators r rest
    return (version, result) :: others

/- The line of a verdict. -/
def verdictLine : Verdict → String
| (version, .ok _) => s!"  {version}: OK"
| (version, .error e) => s!"  {version}: FAIL: {e.message}"

/- The versions that something stands against. -/
def rejected (list : List Verdict) : List Version :=
  (list.filter fun (_, result) => !result.isOk).map Prod.fst

/- The first line of an answer. -/
def heading (path : Path) (r : Registry) : String :=
  s!"Registry {path.text} (instance {r.instanceIdentifier}): {r.members.length} members, {r.securityServers.length} security servers"

/- The answer to verdicts. -/
def answer
    (path : Path)
    (r : Registry)
    (list : List Verdict) : Reply :=
  let lines := heading path r :: list.map verdictLine
  let versions := rejected list
  if versions.isEmpty then .output 0 lines
  else
    .output 1
      (lines ++
        ["Rejected versions: " ++
          ", ".intercalate (versions.map Version.display)])

/- Check the registry in a file. -/
def check (path : Path) : Program Reply := do
  match ← Registry.load path with
  | .error (.certificate cause) =>
      return .output 1 [s!"FAIL: {path.text}: {cause.message}"]
  | .error e => return .failure (.registry e)
  | .ok r =>
      let generators := GeneratorSet.builtin
      let list ← verdicts generators r generators.versions
      return answer path r list

/- The answer to the command. -/
def reply
    (environment : Settings.Environment)
    (shared : SharedArguments)
    (path : Option Path) : Program Reply := do
  match path with
  | some path => check path
  | none =>
      match ← Settings.load shared.config environment with
      | .error e => return .failure (.settings e)
      | .ok settings =>
          match settings.registry with
          | none => return .failure .nothingToCheck
          | some registry => check (Path.ofText registry)

end RegistryCheck

end Federation
