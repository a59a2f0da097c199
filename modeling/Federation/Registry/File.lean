import Federation.Certificate.Gate
import Federation.Json.Reader
import Federation.Registry.Certificates
import Federation.Storage.Path
import Federation.Storage.Program
import Federation.Storage.Tree
import Federation.Yaml.Typed

/-
  This file defines how a registry is got from a file. The
  file's name tells whether its text is JSON or YAML, and
  every certificate passes the gate, or there is an error.

  Key definitions include:
    * `RegistryError`
    * `Registry.ofJsonText?`
    * `Registry.ofYamlText?`
    * `Registry.ofFile`
    * `Registry.load`
-/

namespace Federation

------------------------------------------------------------
-- Errors
------------------------------------------------------------

/- Why a registry cannot be used. -/
inductive RegistryError where
/- The file cannot be read. -/
| storage (path : Path) (fault : StorageFault)
/- The file's text is no registry. -/
| content (path : Path)
/- A certificate does not pass the gate. -/
| certificate (cause : CertificateError)
deriving DecidableEq

/- The wording of an error. -/
def RegistryError.message : RegistryError → String
| .storage path fault =>
    s!"failed to read registry {path.text}: {fault.message}"
| .content path =>
    s!"failed to parse registry {path.text}"
| .certificate cause =>
    s!"registry certificate rejected: {cause.message}"

------------------------------------------------------------
-- Files
------------------------------------------------------------

namespace Registry

/- The registry in a text of JSON. -/
def ofJsonText? (text : String) : Option Registry := do
  let draft ← Json.Draft.ofText? text
  (read draft).toOption

/- The registry in a text of YAML. -/
def ofYamlText? (text : String) : Option Registry := do
  let node ← Yaml.read? text
  (read node).toOption

/- A file of this name holds JSON. -/
def isJsonFile (path : Path) : Bool :=
  match path.extension? with
  | none => false
  | some extension =>
      extension.toList.map Char.toLower = "json".toList

/- The registry in the bytes of a file. -/
def ofFile
    (path : Path)
    (content : Bytes) : Except RegistryError Registry :=
  match Text.ofBytes? content with
  | none => .error (.storage path .notText)
  | some text =>
      let found :=
        if isJsonFile path then ofJsonText? text
        else ofYamlText? text
      match found with
      | none => .error (.content path)
      | some r =>
          match r.verify with
          | .error e => .error (.certificate e)
          | .ok _ => .ok r

/- Read the registry in a file. -/
def load
    (path : Path) : Program (Except RegistryError Registry) := do
  match ← Program.read path with
  | .error fault => return .error (.storage path fault)
  | .ok content => return ofFile path content

end Registry

end Federation
