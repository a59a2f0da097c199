import Federation.Proofs.Rules.Seen

/-
  How the rules look at a document: what they see of it, told
  as a program whose every step is the lookup of one key or
  item. A lookup is recorded with its place, the form that is
  wanted there, and what is found, and where nothing of that
  form is found the program goes on as the rules do.

  Main declarations:
    * `Rules.Lookup`
    * `Rules.Looking`
    * `Rules.Seen.look`
    * `Rules.result_look`
-/

namespace Federation

namespace Rules

------------------------------------------------------------
-- Lookups
------------------------------------------------------------

/- The form that is wanted of a value. -/
inductive Form where
| text
| list
| record

/- A value has a form. -/
def Form.Fits : Form → Json → Prop
| .text, v => ∃ s, v = .string s
| .list, v => ∃ values, v = .array values
| .record, v => ∃ members, v = .object members

/- A lookup at a place of a document, and what it finds. -/
structure Lookup where
  place : Pointer
  wanted : Form
  found : Option Json

/- What comes of looking at a document, and every lookup for it. -/
structure Looking (α : Type) where
  result : α
  lookups : List Lookup

namespace Looking

variable {α β : Type}

instance : Monad Looking where
  pure a := ⟨a, []⟩
  bind x next :=
    ⟨(next x.result).result,
      x.lookups ++ (next x.result).lookups⟩

@[simp] theorem result_pure (a : α) :
    (pure a : Looking α).result = a :=
  rfl

@[simp] theorem lookups_pure (a : α) :
    (pure a : Looking α).lookups = [] :=
  rfl

@[simp] theorem result_bind
    (x : Looking α)
    (next : α → Looking β) :
    (x >>= next).result = (next x.result).result :=
  rfl

@[simp] theorem lookups_bind
    (x : Looking α)
    (next : α → Looking β) :
    (x >>= next).lookups =
      x.lookups ++ (next x.result).lookups :=
  rfl

end Looking

------------------------------------------------------------
-- Parts of a Document
------------------------------------------------------------

/- A value together with its place in the document. -/
structure Part where
  place : Pointer
  value : Json

namespace Part

/- Look for the value of a key. -/
def look
    (p : Part)
    (wanted : Form)
    (key : String) : Looking (Option Json) where
  result := p.value.get? key
  lookups := [⟨p.place.key key, wanted, p.value.get? key⟩]

/- The text of a key, if there is one. -/
def text?
    (p : Part)
    (key : String) : Looking (Option String) := do
  let found ← p.look .text key
  return textOf found

/- The text of a key, empty when there is none. -/
def text
    (p : Part)
    (key : String) : Looking String := do
  let found ← p.text? key
  return found.getD ""

/- The part of a key, null when it is missing. -/
def part
    (p : Part)
    (key : String) : Looking Part := do
  let found ← p.look .record key
  return ⟨p.place.key key, found.getD .null⟩

/- An item as a text, if it is one. -/
def asText (p : Part) : Looking (Option String) where
  result := p.value.asString?
  lookups := [⟨p.place, .text, some p.value⟩]

/- The values of a list with their places. -/
def ofItems
    (place : Pointer)
    (values : List Json) : List Part :=
  values.zipIdx.map fun (v, i) => ⟨place.index i, v⟩

/- The items of a key, none when there is no list. -/
def items
    (p : Part)
    (key : String) : Looking (List Part) := do
  let found ← p.look .list key
  return ofItems (p.place.key key)
    ((found.bind Json.asArray?).getD [])

end Part

/- Look at each of some parts. -/
def Looking.each
    {α : Type}
    (look : Part → Looking α)
    (parts : List Part) : Looking (List α) where
  result := parts.map fun p => (look p).result
  lookups := parts.flatMap fun p => (look p).lookups

/- Look at each item of a key. -/
def Part.each
    {α : Type}
    (p : Part)
    (key : String)
    (look : Part → Looking α) : Looking (List α) := do
  let parts ← p.items key
  Looking.each look parts

------------------------------------------------------------
-- Shared Parameters
------------------------------------------------------------

def MemberKey.look (p : Part) : Looking MemberKey := do
  let memberClass ← p.text "memberClass"
  let memberCode ← p.text "memberCode"
  return ⟨memberClass, memberCode⟩

def SeenClient.look (p : Part) : Looking SeenClient := do
  let member ← MemberKey.look p
  let subsystem ← p.text? "subsystemCode"
  return ⟨member, subsystem⟩

def SeenMember.look (p : Part) : Looking SeenMember := do
  let key ← MemberKey.look p
  let subsystems ← p.each "subsystems" Part.asText
  return ⟨key, subsystems⟩

def SeenServer.look (p : Part) : Looking SeenServer := do
  let ownerPart ← p.part "owner"
  let owner ← MemberKey.look ownerPart
  let code ← p.text "serverCode"
  let hashes ← p.each "authCertHashes" Part.asText
  let clients ← p.each "clients" SeenClient.look
  return { owner, code, hashes, clients }

def SeenGroup.look (p : Part) : Looking SeenGroup := do
  let code ← p.text "groupCode"
  let members ← p.each "members" SeenClient.look
  return { code, members }

def SeenInfo.look (p : Part) : Looking SeenInfo := do
  let cert ← p.text? "cert"
  let responders ← p.each "ocsp" fun q => q.text? "cert"
  return { cert, responders }

def SeenAuthority.look (p : Part) : Looking SeenAuthority := do
  let name ← p.text "name"
  let topPart ← p.part "topCA"
  let top ← SeenInfo.look topPart
  let intermediates ← p.each "intermediateCAs" SeenInfo.look
  return { name, top, intermediates }

/- The codes of the classes, in versions that declare them. -/
def lookClasses
    (version : Version)
    (root : Part) : Looking (Option (List String)) :=
  if Version.v2 ≤ version then do
    let settings ← root.part "globalSettings"
    let codes ← settings.each "memberClasses"
      fun q => q.text "code"
    return some codes
  else
    return none

def SeenShared.look
    (version : Version)
    (root : Part) : Looking SeenShared := do
  let classes ← lookClasses version root
  let members ← root.each "members" SeenMember.look
  let servers ← root.each "securityServers" SeenServer.look
  let groups ← root.each "globalGroups" SeenGroup.look
  let authorities ← root.each "approvedCAs" SeenAuthority.look
  let timestamping ← root.each "approvedTSAs"
    fun q => q.text? "cert"
  return ⟨classes, members, servers, groups, authorities,
    timestamping⟩

------------------------------------------------------------
-- Private Parameters
------------------------------------------------------------

def SeenSource.look
    (version : Version)
    (p : Part) : Looking SeenSource :=
  if version = .v1 then do
    let cert ← p.text? "verificationCert"
    return .one cert
  else do
    let certs ← p.each "verificationCerts" Part.asText
    return .all certs

def SeenOperatorServer.look
    (p : Part) : Looking SeenOperatorServer := do
  let ownerPart ← p.part "owner"
  let owner ← MemberKey.look ownerPart
  let code ← p.text "serverCode"
  return { owner, code }

def SeenOperator.look
    (root management : Part) : Looking SeenOperator := do
  let operatorPart ← root.part "operator"
  let operator ← MemberKey.look operatorPart
  let servers ← root.each "securityServers"
    SeenOperatorServer.look
  let providerPart ←
    management.part "managementRequestServiceProviderId"
  let provider ← MemberKey.look providerPart
  let code ←
    management.text "managementRequestServiceServerCode"
  return { operator, servers, provider, code }

/- The operator, in versions that have one. -/
def lookOperator
    (version : Version)
    (root management : Part) :
    Looking (Option SeenOperator) :=
  if Version.v2 ≤ version then do
    let operator ← SeenOperator.look root management
    return some operator
  else
    return none

def SeenPrivate.look
    (version : Version)
    (root : Part) : Looking SeenPrivate := do
  let anchor ← root.part "configurationAnchor"
  let sources ← anchor.each "sources" (SeenSource.look version)
  let managementPart ← root.part "managementService"
  let management ← managementPart.text? "authCertRegServiceCert"
  let operator ← lookOperator version root managementPart
  return { sources, management, operator }

/- Look at a document as the rules of a kind do. -/
def Seen.look
    (kind : DocumentKind)
    (version : Version)
    (document : Json) : Looking Seen :=
  match kind with
  | .privateParameters => do
      let seen ← SeenPrivate.look version ⟨[], document⟩
      return .privateParameters seen
  | .sharedParameters => do
      let seen ← SeenShared.look version ⟨[], document⟩
      return .sharedParameters seen

------------------------------------------------------------
-- Results
------------------------------------------------------------

/- What comes of looking at a part depends on its value only. -/
def Reads
    {α : Type}
    (look : Part → Looking α)
    (of : Json → α) : Prop :=
  ∀ p, (look p).result = of p.value

namespace Reads

variable {α : Type}

@[simp] theorem text? (p : Part) (key : String) :
    (p.text? key).result = textOf (p.value.get? key) :=
  rfl

@[simp] theorem text (p : Part) (key : String) :
    (p.text key).result = Rules.text key p.value :=
  rfl

@[simp] theorem part (p : Part) (key : String) :
    (p.part key).result.value = Rules.part key p.value :=
  rfl

theorem asText : Reads Part.asText Json.asString? :=
  fun _ => rfl

theorem each
    {look : Part → Looking α}
    {of : Json → α}
    (hReads : Reads look of)
    (p : Part)
    (key : String) :
    (p.each key look).result =
      (Rules.items key p.value).map of := by
  have hParts : ∀ place (values : List Json),
      (Part.ofItems place values).map Part.value = values := by
    intro place values
    rw [Part.ofItems, List.map_map]
    exact List.zipIdx_map_fst 0 values
  have hEach : ∀ parts,
      (Looking.each look parts).result =
        (parts.map Part.value).map of := by
    intro parts
    rw [List.map_map]
    exact List.map_congr_left fun q _ => hReads q
  rw [Part.each, Looking.result_bind, hEach, Part.items,
    Looking.result_bind, Looking.result_pure, hParts]
  rfl

end Reads

theorem reads_memberKey : Reads MemberKey.look memberKey :=
  fun _ => rfl

theorem reads_client : Reads SeenClient.look SeenClient.of :=
  fun _ => rfl

theorem reads_member : Reads SeenMember.look SeenMember.of := by
  intro p
  simp [SeenMember.look, SeenMember.of, reads_memberKey p,
    Reads.asText.each]

theorem reads_server : Reads SeenServer.look SeenServer.of := by
  intro p
  simp [SeenServer.look, SeenServer.of, reads_memberKey _,
    Reads.asText.each, reads_client.each]

theorem reads_group : Reads SeenGroup.look SeenGroup.of := by
  intro p
  simp [SeenGroup.look, SeenGroup.of, reads_client.each]

theorem reads_cert :
    Reads (fun p => p.text? "cert")
      (fun v => textOf (v.get? "cert")) :=
  fun _ => rfl

theorem reads_info : Reads SeenInfo.look SeenInfo.of := by
  intro p
  simp [SeenInfo.look, SeenInfo.of, reads_cert.each]

theorem reads_authority :
    Reads SeenAuthority.look SeenAuthority.of := by
  intro p
  simp [SeenAuthority.look, SeenAuthority.of, reads_info _,
    reads_info.each]

theorem reads_classes (version : Version) :
    Reads (lookClasses version) (declaredClasses version) := by
  intro p
  have hCode : Reads (fun q => q.text "code")
      (Rules.text "code") := fun _ => rfl
  by_cases hVersion : Version.v2 ≤ version
  · simp [lookClasses, declaredClasses, hVersion, hCode.each,
      memberClasses]
  · simp [lookClasses, declaredClasses, hVersion]

theorem reads_shared (version : Version) :
    Reads (SeenShared.look version) (SeenShared.of version) := by
  intro p
  simp [SeenShared.look, SeenShared.of,
    reads_classes version p, reads_member.each,
    reads_server.each, reads_group.each, reads_authority.each,
    reads_cert.each]

theorem reads_source (version : Version) :
    Reads (SeenSource.look version) (SeenSource.of version) := by
  intro p
  by_cases hFirst : version = .v1
  · simp [SeenSource.look, SeenSource.of, hFirst]
  · simp [SeenSource.look, SeenSource.of, hFirst,
      Reads.asText.each]

theorem reads_operatorServer :
    Reads SeenOperatorServer.look SeenOperatorServer.of :=
  fun _ => rfl

theorem reads_private (version : Version) :
    Reads (SeenPrivate.look version)
      (SeenPrivate.of version) := by
  intro p
  by_cases hVersion : Version.v2 ≤ version
  · simp [SeenPrivate.look, SeenPrivate.of, lookOperator,
      hVersion, SeenOperator.look, SeenOperator.of,
      reads_memberKey _, reads_operatorServer.each,
      (reads_source version).each]
  · simp [SeenPrivate.look, SeenPrivate.of, lookOperator,
      hVersion, (reads_source version).each]

/- Looking at a document leads to what the rules see of it. -/
theorem result_look
    (kind : DocumentKind)
    (version : Version)
    (document : Json) :
    (Seen.look kind version document).result =
      .of kind version document := by
  cases kind with
  | privateParameters =>
      exact congrArg Seen.privateParameters
        (reads_private version ⟨[], document⟩)
  | sharedParameters =>
      exact congrArg Seen.sharedParameters
        (reads_shared version ⟨[], document⟩)

end Rules

end Federation
