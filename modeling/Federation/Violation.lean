import Federation.Document
import Federation.Pointer

/-
  This file defines how a document that breaks its version's
  rules is reported: where, and why.

  Key definitions include:
    * `Violation`
    * `ParameterError`
    * `ParameterError.message`
-/

namespace Federation

------------------------------------------------------------
-- Violations
------------------------------------------------------------

/- A place in a document and why it breaks a rule. -/
structure Violation where
  path : String
  reason : String
deriving DecidableEq, Repr

namespace Violation

/- A violation at a place of a document. -/
def located
    (place : Pointer)
    (reason : String) : Violation :=
  ⟨place.render, reason⟩

/- The text of a violation; the root is written as a slash. -/
def display (v : Violation) : String :=
  (if v.path = "" then "/" else v.path) ++ ": " ++ v.reason

/- The texts of violations, with semicolons between them. -/
def displayAll (violations : List Violation) : String :=
  "; ".intercalate (violations.map display)

end Violation

------------------------------------------------------------
-- Errors
------------------------------------------------------------

/- Why a document is not valid for a version. -/
inductive ParameterError where
| versionMismatch
    (kind : DocumentKind)
    (declared : Option Version)
    (expected : Version)
| unknownVersion
    (kind : DocumentKind)
    (version : Version)
| schema
    (kind : DocumentKind)
    (version : Version)
    (violations : List Violation)
| semantic
    (kind : DocumentKind)
    (version : Version)
    (violations : List Violation)
deriving DecidableEq

namespace ParameterError

/- The violations that an error carries. -/
def violations : ParameterError → List Violation
| .schema _ _ violations => violations
| .semantic _ _ violations => violations
| .versionMismatch .. => []
| .unknownVersion .. => []

/- The text of the version that a document declares. -/
def declaredText : Option Version → String
| some version => version.display
| none => "<none>"

/- The wording of an error. -/
def message : ParameterError → String
| .versionMismatch kind declared expected =>
    s!"{kind.name} parameters declare version {declaredText declared}, expected {expected}"
| .unknownVersion kind version =>
    s!"no {kind.name} parameters schema for version {version}"
| .schema kind version violations =>
    s!"{kind.name} parameters {version}: {violations.length} schema violation(s): {Violation.displayAll violations}"
| .semantic kind version violations =>
    s!"{kind.name} parameters {version}: {violations.length} semantic violation(s): {Violation.displayAll violations}"

end ParameterError

end Federation
