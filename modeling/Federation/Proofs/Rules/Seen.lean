import Federation.Proofs.Rules.Places
import Federation.Validation

/-
  What the rules see of a document, as data without JSON: the
  keys, codes, hashes and certificates that they look up, an
  empty text or no item where there is none. The findings of a
  document are those of what is seen of it.

  Main declarations:
    * `Rules.SeenShared`, `Rules.SeenPrivate`
    * `Rules.Seen.of`
    * `Rules.Seen.findings`
    * `Rules.findings_of`
-/

namespace Federation

namespace Rules

------------------------------------------------------------
-- Seen Parts
------------------------------------------------------------

/- The text that a value is, if it is one. -/
def textOf (value : Option Json) : Option String :=
  value.bind Json.asString?

/- A client: its member, and its subsystem if it is one. -/
structure SeenClient where
  member : MemberKey
  subsystem : Option String

def SeenClient.of (v : Json) : SeenClient :=
  ⟨memberKey v, textOf (v.get? "subsystemCode")⟩

/- A member with the codes of its subsystems. -/
structure SeenMember where
  key : MemberKey
  subsystems : List (Option String)

def SeenMember.of (v : Json) : SeenMember :=
  ⟨memberKey v, (items "subsystems" v).map Json.asString?⟩

/- A server with the hashes of its certificates and its clients. -/
structure SeenServer where
  owner : MemberKey
  code : String
  hashes : List (Option String)
  clients : List SeenClient

def SeenServer.of (v : Json) : SeenServer where
  owner := memberKey (part "owner" v)
  code := text "serverCode" v
  hashes := (items "authCertHashes" v).map Json.asString?
  clients := (items "clients" v).map .of

/- A group with its members. -/
structure SeenGroup where
  code : String
  members : List SeenClient

def SeenGroup.of (v : Json) : SeenGroup :=
  ⟨text "groupCode" v, (items "members" v).map .of⟩

/- A certificate of an authority and those of its responders. -/
structure SeenInfo where
  cert : Option String
  responders : List (Option String)

def SeenInfo.of (v : Json) : SeenInfo where
  cert := textOf (v.get? "cert")
  responders :=
    (items "ocsp" v).map fun r => textOf (r.get? "cert")

/- An authority with its certificates. -/
structure SeenAuthority where
  name : String
  top : SeenInfo
  intermediates : List SeenInfo

def SeenAuthority.of (v : Json) : SeenAuthority where
  name := text "name" v
  top := .of (part "topCA" v)
  intermediates := (items "intermediateCAs" v).map .of

/- The certificates of a source of configuration. -/
inductive SeenSource where
| one (cert : Option String)
| all (certs : List (Option String))

def SeenSource.of
    (version : Version)
    (v : Json) : SeenSource :=
  if version = .v1 then
    .one (textOf (v.get? "verificationCert"))
  else
    .all ((items "verificationCerts" v).map Json.asString?)

/- A server of the operator. -/
structure SeenOperatorServer where
  owner : MemberKey
  code : String

def SeenOperatorServer.of (v : Json) : SeenOperatorServer :=
  ⟨memberKey (part "owner" v), text "serverCode" v⟩

/- The operator, its servers, and the management service. -/
structure SeenOperator where
  operator : MemberKey
  servers : List SeenOperatorServer
  provider : MemberKey
  code : String

def SeenOperator.of (document : Json) : SeenOperator where
  operator := memberKey (part "operator" document)
  servers := (items "securityServers" document).map .of
  provider :=
    memberKey
      (part "managementRequestServiceProviderId"
        (part "managementService" document))
  code :=
    text "managementRequestServiceServerCode"
      (part "managementService" document)

------------------------------------------------------------
-- Seen Documents
------------------------------------------------------------

/- What the rules see of shared parameters. -/
structure SeenShared where
  classes : Option (List String)
  members : List SeenMember
  servers : List SeenServer
  groups : List SeenGroup
  authorities : List SeenAuthority
  timestamping : List (Option String)

def SeenShared.of
    (version : Version)
    (document : Json) : SeenShared where
  classes := declaredClasses version document
  members := (items "members" document).map .of
  servers := (items "securityServers" document).map .of
  groups := (items "globalGroups" document).map .of
  authorities := (items "approvedCAs" document).map .of
  timestamping :=
    (items "approvedTSAs" document).map fun v =>
      textOf (v.get? "cert")

/- What the rules see of private parameters. -/
structure SeenPrivate where
  sources : List SeenSource
  management : Option String
  operator : Option SeenOperator

def SeenPrivate.of
    (version : Version)
    (document : Json) : SeenPrivate where
  sources :=
    (items "sources" (part "configurationAnchor" document)).map
      (.of version)
  management :=
    textOf
      ((part "managementService" document).get?
        "authCertRegServiceCert")
  operator :=
    if Version.v2 ≤ version then some (.of document) else none

/- What the rules see of a document. -/
inductive Seen where
| privateParameters (seen : SeenPrivate)
| sharedParameters (seen : SeenShared)

def Seen.of
    (kind : DocumentKind)
    (version : Version)
    (document : Json) : Seen :=
  match kind with
  | .privateParameters =>
      .privateParameters (.of version document)
  | .sharedParameters =>
      .sharedParameters (.of version document)

------------------------------------------------------------
-- Findings
------------------------------------------------------------

/- What is found in a text that is to be a certificate. -/
def seenCertificate
    (place : Pointer)
    (cert : Option String) : List Finding :=
  certificate place (cert.map .string)

/- What is found in a declared class. -/
def seenClass
    (earlier : List String)
    (i : Nat)
    (code : String) : List Finding :=
  whenever (earlier.contains code)
    ((((at_ "globalSettings").key "memberClasses").index
      i).key "code")
    (.repeatedClass code)

/- What is found in a member. -/
def SeenMember.findings
    (declared : Option (List String))
    (earlier : List SeenMember)
    (i : Nat)
    (m : SeenMember) : List Finding :=
  let place := (at_ "members").index i
  let isUndeclared :=
    match declared with
    | none => false
    | some classes => !classes.contains m.key.memberClass
  whenever isUndeclared (place.key "memberClass")
      (.undeclaredClass m.key.memberClass) ++
    whenever ((earlier.map key).contains m.key) place
      (.repeatedMember m.key)

/- The last of the members with a key. -/
def SeenMember.last?
    (members : List SeenMember)
    (key : MemberKey) : Option SeenMember :=
  members.reverse.find? fun m => m.key = key

/- What is found in a client. -/
def SeenClient.findings
    (members : List SeenMember)
    (place : Pointer)
    (c : SeenClient) : List Finding :=
  match SeenMember.last? members c.member with
  | none => [(place, .unknownMember c.member)]
  | some m =>
      match c.subsystem with
      | none => []
      | some code =>
          whenever (!m.subsystems.contains (some code)) place
            (.unknownSubsystem code c.member)

/- What is found in a list of clients. -/
def seenClients
    (members : List SeenMember)
    (place : Pointer)
    (clients : List SeenClient) : List Finding :=
  overItems (fun _ i c => c.findings members (place.index i))
    clients

/- The place of the nearest of servers before with a hash. -/
def SeenServer.holder?
    (earlier : List SeenServer)
    (hash : Option String) : Option Nat :=
  (earlier.findIdx? fun s => s.hashes.contains hash).map
    fun distance => earlier.length - 1 - distance

/- What is found in a hash. -/
def seenHash
    (servers : List SeenServer)
    (place : Pointer)
    (earlier : List (Option String))
    (j : Nat)
    (hash : Option String) : List Finding :=
  if hash = none ∨ earlier.contains hash then []
  else
    match SeenServer.holder? servers hash with
    | none => []
    | some server =>
        [(place.index j, .repeatedCertificate server)]

/- The owner and the code of a server. -/
def SeenServer.key (s : SeenServer) : MemberKey × String :=
  (s.owner, s.code)

/- What is found in a server. -/
def SeenServer.findings
    (members : List SeenMember)
    (earlier : List SeenServer)
    (i : Nat)
    (s : SeenServer) : List Finding :=
  let place := (at_ "securityServers").index i
  whenever (SeenMember.last? members s.owner).isNone
      (place.key "owner") (.unknownOwner s.owner) ++
    whenever ((earlier.map key).contains s.key)
      (place.key "serverCode")
      (.repeatedServer s.owner s.code) ++
    overItems (seenHash earlier (place.key "authCertHashes"))
      s.hashes ++
    seenClients members (place.key "clients") s.clients

/- What is found in a group. -/
def SeenGroup.findings
    (members : List SeenMember)
    (earlier : List SeenGroup)
    (i : Nat)
    (g : SeenGroup) : List Finding :=
  let place := (at_ "globalGroups").index i
  whenever ((earlier.map code).contains g.code)
      (place.key "groupCode") (.repeatedGroup g.code) ++
    seenClients members (place.key "members") g.members

/- What is found in the certificates of an authority. -/
def SeenInfo.findings
    (place : Pointer)
    (c : SeenInfo) : List Finding :=
  seenCertificate (place.key "cert") c.cert ++
    overItems
      (fun _ i cert =>
        seenCertificate
          (((place.key "ocsp").index i).key "cert") cert)
      c.responders

/- What is found in an authority. -/
def SeenAuthority.findings
    (earlier : List SeenAuthority)
    (i : Nat)
    (a : SeenAuthority) : List Finding :=
  let place := (at_ "approvedCAs").index i
  whenever ((earlier.map name).contains a.name)
      (place.key "name") (.repeatedAuthority a.name) ++
    a.top.findings (place.key "topCA") ++
    overItems
      (fun _ k (c : SeenInfo) =>
        c.findings ((place.key "intermediateCAs").index k))
      a.intermediates

/- What is found in shared parameters. -/
def SeenShared.findings (s : SeenShared) : List Finding :=
  overItems seenClass (s.classes.getD []) ++
    overItems (SeenMember.findings s.classes) s.members ++
    overItems (SeenServer.findings s.members) s.servers ++
    overItems (SeenGroup.findings s.members) s.groups ++
    overItems SeenAuthority.findings s.authorities ++
    overItems
      (fun _ i cert =>
        seenCertificate
          (((at_ "approvedTSAs").index i).key "cert") cert)
      s.timestamping

/- What is found in a source of configuration. -/
def SeenSource.findings (place : Pointer) :
    SeenSource → List Finding
| .one cert =>
    seenCertificate (place.key "verificationCert") cert
| .all certs =>
    overItems
      (fun _ i cert =>
        seenCertificate
          ((place.key "verificationCerts").index i) cert)
      certs

/- What is found in a server of the operator. -/
def SeenOperatorServer.findings
    (operator : MemberKey)
    (earlier : List SeenOperatorServer)
    (i : Nat)
    (s : SeenOperatorServer) : List Finding :=
  let place := (at_ "securityServers").index i
  whenever (s.owner != operator) (place.key "owner")
      (.foreignServer s.owner operator) ++
    whenever ((earlier.map code).contains s.code)
      (place.key "serverCode") (.repeatedServerCode s.code)

/- What is found of the operator. -/
def SeenOperator.findings (s : SeenOperator) : List Finding :=
  let place := at_ "managementService"
  overItems (SeenOperatorServer.findings s.operator)
      s.servers ++
    (whenever (s.provider != s.operator)
        (place.key "managementRequestServiceProviderId")
        (.foreignProvider s.provider s.operator) ++
      whenever
        (!(s.servers.map SeenOperatorServer.code).contains
          s.code)
        (place.key "managementRequestServiceServerCode")
        (.unlistedServer s.code))

/- What is found in private parameters. -/
def SeenPrivate.findings (s : SeenPrivate) : List Finding :=
  overItems
      (fun _ i (source : SeenSource) =>
        source.findings
          (((at_ "configurationAnchor").key "sources").index i))
      s.sources ++
    seenCertificate
      ((at_ "managementService").key "authCertRegServiceCert")
      s.management ++
    match s.operator with
    | none => []
    | some operator => operator.findings

/- What is found in a document. -/
def Seen.findings : Seen → List Finding
| .privateParameters seen => seen.findings
| .sharedParameters seen => seen.findings

------------------------------------------------------------
-- Items
------------------------------------------------------------

section Items

variable {α β γ : Type}

/- Rules over what is made of items are rules over the items. -/
theorem overItemsFrom_map
    (rule : List β → Nat → β → List γ)
    (f : α → β)
    (earlier xs : List α)
    (i : Nat) :
    overItemsFrom rule (earlier.map f) i (xs.map f) =
      overItemsFrom
        (fun earlier i x => rule (earlier.map f) i (f x))
        earlier i xs := by
  induction xs generalizing earlier i with
  | nil => rfl
  | cons x rest ih =>
      have hRest := ih (x :: earlier) (i + 1)
      rw [List.map_cons] at hRest
      simp only [List.map_cons, overItemsFrom, hRest]

theorem overItems_map
    (rule : List β → Nat → β → List γ)
    (f : α → β)
    (xs : List α) :
    overItems rule (xs.map f) =
      overItems
        (fun earlier i x => rule (earlier.map f) i (f x))
        xs :=
  overItemsFrom_map rule f [] xs 0

end Items

------------------------------------------------------------
-- Findings of What Is Seen
------------------------------------------------------------

@[simp] theorem seenCertificate_textOf
    (place : Pointer)
    (value : Option Json) :
    seenCertificate place (textOf value) =
      certificate place value := by
  cases value with
  | none => rfl
  | some v => cases v <;> rfl

/- A list has a text if that is among its texts. -/
theorem contains_asString_map
    (values : List Json)
    (s : String) :
    (values.map Json.asString?).contains (some s) =
      values.contains (.string s) := by
  have hSame : some s ∈ values.map Json.asString? ↔
      Json.string s ∈ values := by
    rw [List.mem_map]
    constructor
    · rintro ⟨v, hMem, hText⟩
      cases v <;> simp [Json.asString?] at hText
      rwa [← hText]
    · intro hMem
      exact ⟨.string s, hMem, rfl⟩
  rw [Bool.eq_iff_iff]
  simpa using hSame

theorem last?_map (members : List Json) (key : MemberKey) :
    SeenMember.last? (members.map .of) key =
      (registeredMember? members key).map .of := by
  rw [SeenMember.last?, registeredMember?, ← List.map_reverse,
    List.find?_map]
  rfl

theorem findings_client
    (members : List Json)
    (place : Pointer)
    (v : Json) :
    (SeenClient.of v).findings (members.map .of) place =
      client members place v := by
  unfold SeenClient.findings client
  simp only [SeenClient.of, last?_map, textOf]
  cases registeredMember? members (memberKey v) with
  | none => rfl
  | some entry =>
      simp only [Option.map_some]
      cases (v.get? "subsystemCode").bind Json.asString? with
      | none => rfl
      | some code =>
          have hCodes :
              (SeenMember.of entry).subsystems.contains
                  (some code) =
                (subsystems entry).contains code := by
            rw [Bool.eq_iff_iff]
            simp [SeenMember.of, subsystems]
          simp only [hCodes]

theorem findings_clients
    (members : List Json)
    (place : Pointer)
    (values : List Json) :
    seenClients (members.map .of) place (values.map .of) =
      clients members place values := by
  rw [seenClients, overItems_map, clients]
  simp only [findings_client]

theorem holder?_map (servers : List Json) (s : String) :
    SeenServer.holder? (servers.map .of) (some s) =
      holder? servers (.string s) := by
  rw [SeenServer.holder?, holder?, List.findIdx?_map,
    List.length_map]
  simp only [Function.comp_def, SeenServer.of,
    contains_asString_map, hashes]

theorem findings_hash
    (servers : List Json)
    (place : Pointer)
    (earlier : List Json)
    (j : Nat)
    (hash : Json) :
    seenHash (servers.map .of) place
        (earlier.map Json.asString?) j hash.asString? =
      certificateHash servers place earlier j hash := by
  unfold seenHash certificateHash
  cases hash with
  | string s =>
      by_cases hBefore : earlier.contains (.string s) = true
      · simp only [Json.asString?, contains_asString_map,
          hBefore, or_true, if_true]
      · cases hHolder : holder? servers (.string s) <;>
          simp only [Json.asString?, contains_asString_map,
            holder?_map, hBefore, hHolder, reduceCtorEq,
            or_self, if_false]
  | null | bool _ | integer _ | float _ | array _
  | object _ => simp [Json.asString?]

theorem findings_member
    (declared : Option (List String))
    (earlier : List Json)
    (i : Nat)
    (v : Json) :
    (SeenMember.of v).findings declared (earlier.map .of) i =
      member declared earlier i v := by
  have hKeys : (earlier.map SeenMember.of).map SeenMember.key =
      earlier.map memberKey := by
    rw [List.map_map]
    rfl
  simp only [SeenMember.findings, member, hKeys]
  rfl

theorem findings_server
    (members : List Json)
    (earlier : List Json)
    (i : Nat)
    (v : Json) :
    (SeenServer.of v).findings (members.map .of)
        (earlier.map .of) i =
      securityServer members earlier i v := by
  have hKeys : (earlier.map SeenServer.of).map SeenServer.key =
      earlier.map serverKey := by
    rw [List.map_map]
    rfl
  simp only [SeenServer.findings, securityServer, hKeys]
  simp only [SeenServer.of, SeenServer.key, last?_map,
    overItems_map, findings_hash, findings_clients,
    Option.isNone_map, serverKey, hashes]

theorem findings_group
    (members : List Json)
    (earlier : List Json)
    (i : Nat)
    (v : Json) :
    (SeenGroup.of v).findings (members.map .of)
        (earlier.map .of) i =
      globalGroup members earlier i v := by
  have hCodes : (earlier.map SeenGroup.of).map SeenGroup.code =
      earlier.map (text "groupCode") := by
    rw [List.map_map]
    rfl
  simp only [SeenGroup.findings, globalGroup, hCodes]
  simp only [SeenGroup.of, findings_clients]

theorem findings_info (place : Pointer) (v : Json) :
    (SeenInfo.of v).findings place =
      authorityCertificates place v := by
  simp only [SeenInfo.findings, SeenInfo.of,
    authorityCertificates, overItems_map,
    seenCertificate_textOf]

theorem findings_authority
    (earlier : List Json)
    (i : Nat)
    (v : Json) :
    (SeenAuthority.of v).findings (earlier.map .of) i =
      authority earlier i v := by
  have hNames :
      (earlier.map SeenAuthority.of).map SeenAuthority.name =
        earlier.map (text "name") := by
    rw [List.map_map]
    rfl
  simp only [SeenAuthority.findings, authority, hNames]
  simp only [SeenAuthority.of, overItems_map, findings_info]

/- The classes that are declared, in versions that have them. -/
theorem findings_classes
    (version : Version)
    (document : Json) :
    overItems seenClass
        ((declaredClasses version document).getD []) =
      classes version document := by
  by_cases hVersion : Version.v2 ≤ version
  · simp only [declaredClasses, classes, if_pos hVersion,
      Option.getD_some, overItems_map]
    rfl
  · simp only [declaredClasses, classes, if_neg hVersion,
      Option.getD_none]
    rfl

theorem findings_sharedParameters
    (version : Version)
    (document : Json) :
    (SeenShared.of version document).findings =
      sharedParameters version document := by
  simp only [SeenShared.findings, SeenShared.of,
    sharedParameters, findings_classes, overItems_map,
    findings_member, findings_server, findings_group,
    findings_authority, seenCertificate_textOf, timestamping]

theorem findings_source
    (version : Version)
    (place : Pointer)
    (v : Json) :
    (SeenSource.of version v).findings place =
      source version place v := by
  by_cases hFirst : version = .v1
  · simp only [SeenSource.of, source, if_pos hFirst,
      SeenSource.findings, seenCertificate_textOf]
  · simp only [SeenSource.of, source, if_neg hFirst,
      SeenSource.findings, overItems_map, certificates]
    exact congrArg (fun rule => overItems rule _)
      (funext fun _ => funext fun i => funext fun v =>
        seenCertificate_textOf _ (some v))

theorem findings_operator (document : Json) :
    (SeenOperator.of document).findings =
      operatorParts document := by
  have hCodes : ∀ servers : List Json,
      (servers.map SeenOperatorServer.of).map
          SeenOperatorServer.code =
        servers.map (text "serverCode") := by
    intro servers
    rw [List.map_map]
    rfl
  simp only [SeenOperator.findings, SeenOperator.of,
    operatorParts, managementService, hCodes, overItems_map,
    SeenOperatorServer.findings]
  rfl

theorem findings_privateParameters
    (version : Version)
    (document : Json) :
    (SeenPrivate.of version document).findings =
      privateParameters version document := by
  by_cases hVersion : Version.v2 ≤ version
  · simp only [SeenPrivate.findings, SeenPrivate.of,
      privateParameters, sources, if_pos hVersion,
      overItems_map, findings_source, seenCertificate_textOf,
      findings_operator]
  · simp only [SeenPrivate.findings, SeenPrivate.of,
      privateParameters, sources, if_neg hVersion,
      overItems_map, findings_source, seenCertificate_textOf]

/- The rules find in a document what is found in what they see. -/
theorem findings_of
    (kind : DocumentKind)
    (version : Version)
    (document : Json) :
    (Seen.of kind version document).findings =
      findings kind version document := by
  cases kind with
  | privateParameters =>
      exact findings_privateParameters version document
  | sharedParameters =>
      exact findings_sharedParameters version document

end Rules

end Federation
