import Federation.Certificate.Basic
import Federation.Violation

/-
  This file defines the rules of documents that no schema can
  express, and what they have in common. Parts that are
  missing or of another form count as empty.

  Key definitions include:
    * `MemberKey`
    * `RuleFault`
    * `RuleFault.message`
    * `Rules.overItems`
    * `Rules.certificate`
-/

namespace Federation

------------------------------------------------------------
-- Faults
------------------------------------------------------------

/- The class and code that a document names a member by. -/
structure MemberKey where
  memberClass : String
  memberCode : String
deriving DecidableEq, Repr

/- A key with a slash between its parts. -/
def MemberKey.display (key : MemberKey) : String :=
  key.memberClass ++ "/" ++ key.memberCode

/- Why a part of a document breaks a rule. -/
inductive RuleFault where
| notBase64
| notCertificate
| foreignServer (owner operator : MemberKey)
| repeatedServerCode (code : String)
| foreignProvider (provider operator : MemberKey)
| unlistedServer (code : String)
| repeatedClass (code : String)
| undeclaredClass (code : String)
| repeatedMember (member : MemberKey)
| unknownOwner (owner : MemberKey)
| repeatedServer (owner : MemberKey) (code : String)
| repeatedCertificate (server : Nat)
| unknownMember (member : MemberKey)
| unknownSubsystem (code : String) (member : MemberKey)
| repeatedGroup (code : String)
| repeatedAuthority (name : String)
deriving DecidableEq, Repr

/- The wording of a fault. -/
def RuleFault.message : RuleFault → String
| .notBase64 => "certificate is not valid base64"
| .notCertificate =>
    "certificate is not a well-formed X.509 certificate"
| .foreignServer owner operator =>
    s!"server owner {owner.display} is not the operator {operator.display}"
| .repeatedServerCode code =>
    s!"duplicate server code \"{code}\""
| .foreignProvider provider operator =>
    s!"management service provider {provider.display} is not the operator {operator.display}"
| .unlistedServer code =>
    s!"server code \"{code}\" does not reference a listed security server"
| .repeatedClass code =>
    s!"duplicate member class \"{code}\""
| .undeclaredClass code =>
    s!"member class \"{code}\" is not declared in globalSettings"
| .repeatedMember member =>
    s!"duplicate member {member.display}"
| .unknownOwner owner =>
    s!"owner {owner.display} is not a registered member"
| .repeatedServer owner code =>
    s!"duplicate security server {owner.display}/{code}"
| .repeatedCertificate server =>
    s!"authentication certificate already registered to /securityServers/{server}"
| .unknownMember member =>
    s!"member {member.display} is not registered"
| .unknownSubsystem code member =>
    s!"subsystem \"{code}\" is not registered for {member.display}"
| .repeatedGroup code =>
    s!"duplicate global group \"{code}\""
| .repeatedAuthority name =>
    s!"duplicate certification authority \"{name}\""

namespace Rules

/- A fault and where it is. -/
abbrev Finding := Pointer × RuleFault

/- A list with a fault if a condition holds. -/
def whenever
    (condition : Bool)
    (place : Pointer)
    (fault : RuleFault) : List Finding :=
  if condition then [(place, fault)] else []

------------------------------------------------------------
-- Parts of Documents
------------------------------------------------------------

/- The value of a key, null when it is missing. -/
def part
    (key : String)
    (v : Json) : Json :=
  (v.get? key).getD .null

/- The text of a key, empty when there is none. -/
def text
    (key : String)
    (v : Json) : String :=
  ((v.get? key).bind Json.asString?).getD ""

/- The items of a key, none when there is no list. -/
def items
    (key : String)
    (v : Json) : List Json :=
  ((v.get? key).bind Json.asArray?).getD []

/- The member that a value names. -/
def memberKey (v : Json) : MemberKey :=
  ⟨text "memberClass" v, text "memberCode" v⟩

/- The way to the value of a key at the root. -/
def at_ (key : String) : Pointer :=
  [.key key]

------------------------------------------------------------
-- Rules for Every Item
------------------------------------------------------------

/-
  What a rule finds in items from a place on, the nearest of
  the items before them first.
-/
def overItemsFrom
    {α β : Type}
    (rule : List α → Nat → α → List β)
    (earlier : List α)
    (i : Nat) :
    List α → List β
| [] => []
| x :: rest =>
    rule earlier i x ++
      overItemsFrom rule (x :: earlier) (i + 1) rest

/-
  What a rule finds in each item, given the items before it,
  the nearest first, and its place.
-/
def overItems
    {α β : Type}
    (rule : List α → Nat → α → List β)
    (xs : List α) : List β :=
  overItemsFrom rule [] 0 xs

------------------------------------------------------------
-- Certificates
------------------------------------------------------------

/- A text at a place is the base64 of a certificate. -/
def certificate
    (place : Pointer) :
    Option Json → List Finding
| some (.string encoded) =>
    match CertificateBytes.ofBase64 encoded with
    | .error _ => [(place, .notBase64)]
    | .ok material =>
        whenever (Certificate.ofDer? material.bytes).isNone
          place .notCertificate
| _ => []

/- Each text of a list is the base64 of a certificate. -/
def certificates
    (place : Pointer)
    (values : List Json) : List Finding :=
  overItems
    (fun _ i value => certificate (place.index i) (some value))
    values

end Rules

end Federation
