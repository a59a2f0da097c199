import Federation.Command.Failure
import Federation.Reading.Identity
import Federation.Yaml.Typed

/-
  This file defines the settings of commands, which come from
  a file and then from variables of the environment.

  Key definitions include:
    * `Settings`
    * `Settings.ofText?`
    * `Settings.withEnvironment`
    * `Settings.load`
-/

namespace Federation

open Reading

/- The settings of a command. -/
structure Settings where
  registry : Option String
  outputDir : Option String
  heldBackVersions : List Version
  isParallel : Bool
  eligibility : Table Version Bool
deriving DecidableEq

namespace Settings

------------------------------------------------------------
-- Files
------------------------------------------------------------

/- The settings that nobody has made. -/
def initial : Settings :=
  { registry := none
    outputDir := none
    heldBackVersions := []
    isParallel := true
    eligibility := [] }

/- Read which versions may become current. -/
def readEligibility : Reader Yaml.Node (Table Version Bool) :=
  fun node =>
    match node with
    | .mapping _ entries => do
        let pairs ← entries.mapM fun (key, value) => do
          let version ← Version.read key
          let isEligible ← flag value
          return (version, isEligible)
        return Table.ofList pairs
    | node =>
        if node.isBlank then .ok []
        else .error (.form (Source.found node) "a map")

/- The fields of settings, each of which may be left out. -/
def record : Record Yaml.Node Settings :=
  (((((Record.pure Settings.mk).withDefault
      "registry" (optional text) initial.registry).withDefault
      "output_dir" (optional text)
        initial.outputDir).withDefault
      "held_back_versions" (list Version.read)
        initial.heldBackVersions).withDefault
      "parallel" flag initial.isParallel).withDefault
    "eligible_for_current" readEligibility
      initial.eligibility

/-
  The settings in a text of YAML; a blank text leaves all as
  it is. Fields that are not known are refused.
-/
def ofText? (source : String) : Option Settings :=
  if Text.isAllBlank source.toList then some initial
  else do
    let node ← Yaml.read? source
    (record.read "Settings" true node).toOption

/- The settings in the bytes of a file. -/
def ofFile
    (path : Path)
    (content : Bytes) : Except SettingsError Settings :=
  match Text.ofBytes? content with
  | none => .error (.storage path .notText)
  | some source =>
      match ofText? source with
      | none => .error (.content path)
      | some settings => .ok settings

------------------------------------------------------------
-- Environment
------------------------------------------------------------

/- The values of the variables of an environment. -/
abbrev Environment :=
  String → Option String

/- The variable that names a registry. -/
def registryVariable : String := "FEDCONF_REGISTRY"

/- The variable that names a directory. -/
def outputVariable : String := "FEDCONF_OUTPUT_DIR"

/- The variable that lists versions to be held back. -/
def heldBackVariable : String := "FEDCONF_HELD_BACK_VERSIONS"

/- The value of a variable that has a text. -/
def nonempty?
    (environment : Environment)
    (name : String) : Option String :=
  (environment name).filter (· ≠ "")

/- Settings with the paths that an environment names. -/
def withPaths
    (settings : Settings)
    (environment : Environment) : Settings :=
  { settings with
    registry :=
      (nonempty? environment registryVariable).or settings.registry
    outputDir :=
      (nonempty? environment outputVariable).or
        settings.outputDir }

/- The versions that an environment holds back, if it says so. -/
def heldBack?
    (environment : Environment) :
    Except SettingsError (Option (List Version)) :=
  match environment heldBackVariable with
  | none => .ok none
  | some value =>
      match Version.parseList value with
      | .ok versions => .ok (some versions)
      | .error cause =>
          .error (.variable heldBackVariable value cause)

/- Settings with what an environment says. -/
def withEnvironment
    (settings : Settings)
    (environment : Environment) : Except SettingsError Settings := do
  let settings := settings.withPaths environment
  match ← heldBack? environment with
  | none => return settings
  | some heldBackVersions =>
      return { settings with heldBackVersions }

------------------------------------------------------------
-- Loading
------------------------------------------------------------

/- The file that is used if it is there. -/
def standardFile : Path :=
  Path.ofText "fedconf.yaml"

/- Read the settings in a file. -/
def read
    (path : Path) : Program (Except SettingsError Settings) := do
  match ← Program.read path with
  | .error fault => return .error (.storage path fault)
  | .ok content => return ofFile path content

/- The settings of the named file, or of the standard one. -/
def readFile
    (path : Option Path) :
    Program (Except SettingsError Settings) := do
  match path with
  | some path => read path
  | none =>
      if ← Program.isFile standardFile then read standardFile
      else return .ok initial

/- The settings of a file and of an environment. -/
def load
    (path : Option Path)
    (environment : Environment) :
    Program (Except SettingsError Settings) := do
  match ← readFile path with
  | .error e => return .error e
  | .ok settings => return settings.withEnvironment environment

end Settings

end Federation
