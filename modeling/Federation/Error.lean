import Federation.Certificate.Gate
import Federation.Validation

/-
  This file defines the errors of the library as a whole.

  Key definitions include:
    * `FederationError`
    * `FederationError.message`
    * `FederationError.violations`
-/

namespace Federation

/- An error of any part of the library. -/
inductive FederationError where
| certificate (cause : CertificateError)
| parameters (cause : ParameterError)
| refusal (cause : Refusal)
| canonical (cause : Canonical.Fault)
deriving DecidableEq

namespace FederationError

/- The wording of an error, its area first. -/
def message : FederationError → String
| .certificate cause => "certificate error: " ++ cause.message
| .parameters cause =>
    "parameter validation error: " ++ cause.message
| .refusal cause => "validation error: " ++ cause.message
| .canonical cause =>
    "canonicalization error: " ++ cause.message

/- The violations that an error carries. -/
def violations : FederationError → List Violation
| .parameters cause => cause.violations
| .certificate _ => []
| .refusal _ => []
| .canonical _ => []

end FederationError

end Federation
