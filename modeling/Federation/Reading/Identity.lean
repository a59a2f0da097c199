import Federation.Identity
import Federation.Reading.Record
import Federation.Version

/-
  This file defines the JSON forms of versions and
  identifiers, and how they are read.

  Key definitions include:
    * `Version.toJson`, `Version.read`
    * `MemberId.toJson`, `MemberId.read`
    * `ClientId.toJson`, `ClientId.read`
    * `ServerId.toJson`, `ServerId.read`
-/

namespace Federation

open Reading

variable {σ : Type} [Source σ]

------------------------------------------------------------
-- Versions
------------------------------------------------------------

/- A version as its number. -/
def Version.toJson (v : Version) : Json :=
  .integer v.number

/- Read a version from a number of 32 bits. -/
def Version.read : Reader σ Version :=
  fun v => do
    let n ← unsigned 32 v
    ofRefusal (Version.ofNat n)

------------------------------------------------------------
-- Members
------------------------------------------------------------

namespace MemberId

/- The members of a member's object. -/
def members (m : MemberId) : Json.Members :=
  [ ("memberClass", .string m.memberClass),
    ("memberCode", .string m.memberCode) ]

/- A member as an object of its class and its code. -/
def toJson (m : MemberId) : Json :=
  .object m.members

/- The class and the code of a member. -/
def record : Record σ (String × String) :=
  ((Record.pure Prod.mk).required "memberClass" text).required
    "memberCode" text

/- Read a member from an object. -/
def read : Reader σ MemberId :=
  fun v => do
    let (memberClass, memberCode) ←
      record.read "RawMemberId" false v
    ofRefusal (new memberClass memberCode)

/- Read a member from the values that stand beside others. -/
def readEntries
    (entries : List (String × σ)) : Except Fault MemberId := do
  let (memberClass, memberCode) ←
    record.readEntries false entries
  ofRefusal (new memberClass memberCode)

end MemberId

------------------------------------------------------------
-- Clients
------------------------------------------------------------

namespace ClientId

/- A client as an object of its parts. -/
def toJson (c : ClientId) : Json :=
  match c.subsystemCode with
  | none => c.member.toJson
  | some code =>
      .object
        (c.member.members ++ [("subsystemCode", .string code)])

/- The class, the code and the subsystem of a client. -/
def record :
    Record σ (String × String × Option String) :=
  (((Record.pure fun a b c => (a, b, c)).required
      "memberClass" text).required
      "memberCode" text).withDefault
    "subsystemCode" (optional text) none

/- Read a client from an object. -/
def read : Reader σ ClientId :=
  fun v => do
    let (memberClass, memberCode, subsystemCode) ←
      record.read "RawClientId" false v
    ofRefusal (new memberClass memberCode subsystemCode)

end ClientId

------------------------------------------------------------
-- Security Servers
------------------------------------------------------------

namespace ServerId

/- A server as an object of its owner and its code. -/
def toJson (s : ServerId) : Json :=
  .object
    [ ("owner", s.owner.toJson),
      ("serverCode", .string s.serverCode) ]

/- The owner and the code of a server. -/
def record : Record σ ServerId :=
  ((Record.pure ServerId.mk).required
      "owner" MemberId.read).required
    "serverCode" text

/- Read a server from an object. -/
def read : Reader σ ServerId :=
  record.read "SecurityServerId" false

end ServerId

end Federation
