import Federation.Generation.Generator
import Federation.Run.Outcome

/-
  This file defines why a command cannot be carried out, and
  what a command answers.

  Key definitions include:
    * `SettingsError`
    * `Failure`
    * `Failure.causes`
    * `Failure.message`
    * `Reply`
-/

namespace Federation

------------------------------------------------------------
-- Settings
------------------------------------------------------------

/- Why there are no settings. -/
inductive SettingsError where
/- The file cannot be read. -/
| storage (path : Path) (fault : StorageFault)
/- The file's text is not of settings. -/
| content (path : Path)
/- A variable has a value that cannot be used. -/
| variable (name value : String) (cause : Refusal)
deriving DecidableEq

/- The wording of an error. -/
def SettingsError.message : SettingsError → String
| .storage path fault =>
    s!"failed to read config {path.text}: {fault.message}"
| .content path =>
    s!"failed to parse config {path.text}"
| .variable name value cause =>
    s!"invalid {name}={Text.quoted value}: {cause.message}"

------------------------------------------------------------
-- Failures
------------------------------------------------------------

/- Why a command cannot be carried out. -/
inductive Failure where
| settings (cause : SettingsError)
/- Neither arguments nor settings name a registry. -/
| noRegistry
/- There is no registry to be checked. -/
| nothingToCheck
/- Neither arguments nor settings name a directory. -/
| noOutput
/- Settings speak of a version that there is not. -/
| eligibility (version : Version) (cause : GeneratorError)
/- A file to be judged cannot be read. -/
| unreadable (path : Path) (fault : StorageFault)
| registry (cause : RegistryError)
| run (cause : RunError)
deriving DecidableEq

/- The causes of an error of a registry, the outermost first. -/
def RegistryError.causes (e : RegistryError) : List String :=
  e.message ::
    match e with
    | .storage _ fault => [fault.message]
    | .content _ => []
    | .certificate cause => [cause.message]

/- The causes of an error of publication. -/
def PublicationError.causes (e : PublicationError) : List String :=
  e.message ::
    match e with
    | .storage _ _ fault => [fault.message]
    | .notRestored _ _ fault => [fault.message]
    | .content _ => []
    | .notPublished _ => []

/- The causes of an error of a run. -/
def RunError.causes : RunError → List String
| .registry cause => cause.causes
| .publication cause => cause.causes
| .transition version old new =>
    [(RunError.transition version old new).message]

/- The causes of an error of settings. -/
def SettingsError.causes (e : SettingsError) : List String :=
  e.message ::
    match e with
    | .storage _ fault => [fault.message]
    | .content _ => []
    | .variable _ _ _ => []

namespace Failure

/- The causes of a failure, the outermost first. -/
def causes : Failure → List String
| .settings cause => cause.causes
| .noRegistry =>
    ["no registry configured (use --registry, FEDCONF_REGISTRY or the config file)"]
| .nothingToCheck => ["no registry given and none configured"]
| .noOutput =>
    ["no output directory configured (use --output-dir, FEDCONF_OUTPUT_DIR or the config file)"]
| .eligibility version cause =>
    [s!"eligibility override for {version}", cause.message]
| .unreadable path fault =>
    [s!"failed to read {path.text}", fault.message]
| .registry cause => cause.causes
| .run cause => cause.causes

/- The wording of a failure with all its causes. -/
def message (f : Failure) : String :=
  ": ".intercalate f.causes

end Failure

------------------------------------------------------------
-- Replies
------------------------------------------------------------

/- What a command answers. -/
inductive Reply where
/- Lines of text, and a number that tells of success. -/
| output (exitCode : Nat) (lines : List String)
/- The command is not carried out. -/
| failure (cause : Failure)
/- The arguments are no command. -/
| misuse

namespace Reply

/- The number that tells whether a command succeeds. -/
def exitCode : Reply → Nat
| .output code _ => code
| .failure _ => 2
| .misuse => 2

/- The text of an answer. -/
def text : Reply → String
| .output _ lines => String.join (lines.map (· ++ "\n"))
| .failure _ => ""
| .misuse => ""

/- How commands are to be given. -/
def usage : String :=
  "usage: fedconf [OPTIONS] <generate|validate|cert|registry>\n"

/- The text of a complaint. -/
def complaint : Reply → String
| .output _ _ => ""
| .failure cause => s!"error: {cause.message}\n"
| .misuse => usage

end Reply

end Federation
