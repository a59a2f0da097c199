/-
  This file defines why a text is refused as one of the
  small values that a federation is described with.

  Key definitions include:
    * `IdentifierPart`
    * `Refusal`
    * `Refusal.message`
-/

namespace Federation

/- The parts of identifiers, and a client's identifier itself. -/
inductive IdentifierPart where
| memberClass
| memberCode
| subsystemCode
| clientId
deriving DecidableEq, Repr

/- The name of a part. -/
def IdentifierPart.name : IdentifierPart → String
| .memberClass => "memberClass"
| .memberCode => "memberCode"
| .subsystemCode => "subsystemCode"
| .clientId => "clientId"

/- Why a text is not the value that it should be. -/
inductive Refusal where
| version (text : String)
| identifier (part : IdentifierPart) (value : String)
| certificateText (reason : String)
deriving DecidableEq, Repr

/- The wording of a refusal. -/
def Refusal.message : Refusal → String
| .version text =>
    s!"invalid configuration version: \"{text}\" (expected a positive integer)"
| .identifier part value =>
    s!"invalid identifier part {part.name}: \"{value}\" (must be non-empty and must not contain '/')"
| .certificateText reason =>
    s!"invalid base64 certificate encoding: {reason}"

end Federation
