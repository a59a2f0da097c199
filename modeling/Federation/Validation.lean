import Federation.Rules.Private
import Federation.Rules.Shared
import Federation.Schema.Parameters

/-
  This file defines when a document is valid for a version:
  the version has a schema, the document declares it, and
  the document keeps to schema and rules.

  Key definitions include:
    * `Rules.violations`
    * `Validation.declaredVersion?`
    * `Validation.validate`
    * `Validation.validateDocument`
-/

namespace Federation

/- What breaks the rules of a kind. -/
def Rules.findings :
    DocumentKind → Version → Json → List Rules.Finding
| .privateParameters => Rules.privateParameters
| .sharedParameters => Rules.sharedParameters

/- What breaks the rules of a kind, as violations. -/
def Rules.violations
    (kind : DocumentKind)
    (version : Version)
    (document : Json) : List Violation :=
  (Rules.findings kind version document).map
    fun (place, fault) =>
      Violation.located place fault.message

namespace Validation

/- The version that a document declares, if it is one. -/
def declaredVersion? (document : Json) : Option Version :=
  ((document.get? "version").bind Json.asNat?).bind
    Version.ofNat?

/- Judge a document against the rules of a kind and version. -/
def validate
    (kind : DocumentKind)
    (version : Version)
    (document : Json) : Except ParameterError Unit :=
  match ParameterSchema.find? kind version with
  | none => .error (.unknownVersion kind version)
  | some schema =>
      let declared := declaredVersion? document
      if declared ≠ some version then
        .error (.versionMismatch kind declared version)
      else
        match schema.root.violations document with
        | v :: rest => .error (.schema kind version (v :: rest))
        | [] =>
            match Rules.violations kind version document with
            | v :: rest =>
                .error (.semantic kind version (v :: rest))
            | [] => .ok ()

/- Judge a typed document against the rules of a version. -/
def validateDocument
    {kind : DocumentKind}
    (version : Version)
    (document : Document kind) : Except ParameterError Unit :=
  validate kind version document.toJson

end Validation

end Federation
