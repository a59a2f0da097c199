import Federation.Refusal
import Federation.Text.Blank

/-
  This file defines the identifiers of a federation: members,
  clients, which are members or their subsystems, and
  security servers.

  Key definitions include:
    * `IsPart`
    * `MemberId`
    * `MemberId.new`
    * `ClientId`
    * `ClientId.parse`
    * `ServerId`
-/

namespace Federation

------------------------------------------------------------
-- Parts
------------------------------------------------------------

/- A part of an identifier is not blank and has no slash. -/
def IsPart (text : String) : Prop :=
  Text.isAllBlank text.toList = false ∧ '/' ∉ text.toList

instance (text : String) : Decidable (IsPart text) := by
  unfold IsPart
  infer_instance

/- The refusal of a text that is not a part. -/
def checkPart
    (part : IdentifierPart)
    (text : String) : Except Refusal (PLift (IsPart text)) :=
  if h : IsPart text then .ok ⟨h⟩
  else .error (.identifier part text)

------------------------------------------------------------
-- Members
------------------------------------------------------------

/- A member's class and its code within the class. -/
structure MemberId where
  memberClass : String
  memberCode : String
  isClass : IsPart memberClass
  isCode : IsPart memberCode
deriving DecidableEq

namespace MemberId

/- The member with a class and a code; the class is judged first. -/
def new
    (memberClass memberCode : String) :
    Except Refusal MemberId := do
  let isClass ← checkPart .memberClass memberClass
  let isCode ← checkPart .memberCode memberCode
  return ⟨memberClass, memberCode, isClass.down, isCode.down⟩

/- The text of a member, its class before its code. -/
def display (m : MemberId) : String :=
  m.memberClass ++ "/" ++ m.memberCode

instance : ToString MemberId := ⟨display⟩

/- Members are ordered by class and then by code. -/
def compare (a b : MemberId) : Ordering :=
  (Ord.compare a.memberClass b.memberClass).then
    (Ord.compare a.memberCode b.memberCode)

end MemberId

------------------------------------------------------------
-- Clients
------------------------------------------------------------

/- A member, or one of its subsystems. -/
structure ClientId where
  member : MemberId
  subsystemCode : Option String
  isSubsystem : ∀ code ∈ subsystemCode, IsPart code
deriving DecidableEq

/- A member as a client of its own. -/
def MemberId.asClient (m : MemberId) : ClientId :=
  ⟨m, none, by simp⟩

namespace ClientId

/- The subsystem of a member with a code. -/
def subsystem
    (member : MemberId)
    (code : String) : Except Refusal ClientId := do
  let isCode ← checkPart .subsystemCode code
  return ⟨member, some code, by
    intro other hOther
    cases hOther
    exact isCode.down⟩

/- The client with the given parts, judged in order. -/
def new
    (memberClass memberCode : String)
    (subsystemCode : Option String) :
    Except Refusal ClientId := do
  let member ← MemberId.new memberClass memberCode
  match subsystemCode with
  | none => return member.asClient
  | some code => subsystem member code

/- The text of a client, its parts between slashes. -/
def display (c : ClientId) : String :=
  match c.subsystemCode with
  | none => c.member.display
  | some code => c.member.display ++ "/" ++ code

instance : ToString ClientId := ⟨display⟩

/- The client with a text of two or three parts. -/
def parse (text : String) : Except Refusal ClientId :=
  match (Text.splitAt '/' text.toList).map String.ofList with
  | [memberClass, memberCode] =>
      new memberClass memberCode none
  | [memberClass, memberCode, code] =>
      new memberClass memberCode (some code)
  | _ => .error (.identifier .clientId text)

/- The order of optional codes: none comes first. -/
def compareCodes :
    Option String → Option String → Ordering
| none, none => .eq
| none, some _ => .lt
| some _, none => .gt
| some a, some b => Ord.compare a b

/- Clients are ordered by member and then by subsystem. -/
def compare (a b : ClientId) : Ordering :=
  (a.member.compare b.member).then
    (compareCodes a.subsystemCode b.subsystemCode)

end ClientId

------------------------------------------------------------
-- Security Servers
------------------------------------------------------------

/- A security server: its owner and a code of any form. -/
structure ServerId where
  owner : MemberId
  serverCode : String
deriving DecidableEq

/- The text of a server, its owner before its code. -/
def ServerId.display (s : ServerId) : String :=
  s.owner.display ++ "/" ++ s.serverCode

------------------------------------------------------------
-- Ordered Lists
------------------------------------------------------------

/- A list without an element equal to its predecessor. -/
def dropRepeats
    {α : Type}
    [DecidableEq α] :
    List α → List α
| [] => []
| [a] => [a]
| a :: b :: rest =>
    if a = b then dropRepeats (b :: rest)
    else a :: dropRepeats (b :: rest)

/- A list in ascending order, equal elements in given order. -/
def sortBy
    {α : Type}
    (compare : α → α → Ordering)
    (list : List α) : List α :=
  list.mergeSort fun a b => (compare a b).isLE

/- A list in ascending order with each element once. -/
def sortOnce
    {α : Type}
    [DecidableEq α]
    (compare : α → α → Ordering)
    (list : List α) : List α :=
  dropRepeats (sortBy compare list)

end Federation
