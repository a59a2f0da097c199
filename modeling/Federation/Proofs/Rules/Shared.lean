import Federation.Proofs.Rules.Items
import Federation.Rules.Shared

/-
  The rules of shared parameters: what it is for each of them
  to find nothing in a document.

  Main declarations:
    * `Rules.IsRegisteredClient`
    * `Rules.securityServer_eq_nil_iff`
    * `Rules.sharedParameters_eq_nil_iff`
-/

namespace Federation

namespace Rules

------------------------------------------------------------
-- Members
------------------------------------------------------------

theorem memberClass_eq_nil_iff
    (earlier : List Json)
    (i : Nat)
    (v : Json) :
    memberClass earlier i v = [] ↔
      True ∧ ∀ y ∈ earlier, text "code" y ≠ text "code" v := by
  rw [memberClass, whenever_eq_nil_iff]
  simp

theorem member_eq_nil_iff
    (declared : Option (List String))
    (earlier : List Json)
    (i : Nat)
    (v : Json) :
    member declared earlier i v = [] ↔
      (∀ classes ∈ declared,
        (memberKey v).memberClass ∈ classes) ∧
      ∀ y ∈ earlier, memberKey y ≠ memberKey v := by
  simp only [member, List.append_eq_nil_iff,
    whenever_eq_nil_iff]
  cases declared <;> simp

------------------------------------------------------------
-- Clients
------------------------------------------------------------

/- A client is a registered member, or a subsystem of one. -/
def IsRegisteredClient
    (members : List Json)
    (v : Json) : Prop :=
  ∃ entry, registeredMember? members (memberKey v) =
    some entry ∧
    ∀ code,
      (v.get? "subsystemCode").bind Json.asString? =
        some code →
      code ∈ subsystems entry

theorem client_eq_nil_iff
    (members : List Json)
    (place : Pointer)
    (v : Json) :
    client members place v = [] ↔
      IsRegisteredClient members v := by
  unfold IsRegisteredClient
  cases hEntry : registeredMember? members (memberKey v) with
  | none => simp [client, hEntry]
  | some entry =>
      cases hCode :
          (v.get? "subsystemCode").bind Json.asString? with
      | none => simp [client, hEntry, hCode]
      | some code =>
          simp [client, hEntry, hCode, whenever_eq_nil_iff]

theorem clients_eq_nil_iff
    (members : List Json)
    (place : Pointer)
    (values : List Json) :
    clients members place values = [] ↔
      ∀ v ∈ values, IsRegisteredClient members v :=
  overItems_eq_nil_iff_forall (IsRegisteredClient members)
    (fun _ _ v => client_eq_nil_iff members _ v) values

------------------------------------------------------------
-- Security Servers
------------------------------------------------------------

/- None of the servers has a hash. -/
def IsFreeHash
    (servers : List Json)
    (hash : Json) : Prop :=
  hash.asString?.isSome →
    ∀ server ∈ servers, hash ∉ hashes server

theorem holder?_eq_none_iff
    (servers : List Json)
    (hash : Json) :
    holder? servers hash = none ↔
      ∀ server ∈ servers, hash ∉ hashes server := by
  simp [holder?, List.findIdx?_eq_none_iff]

/-
  By induction on a server's hashes. One that is there before
  is passed over, but it was judged where it came first.
-/
theorem hashes_eq_nil_iff
    {servers own : List Json}
    (place : Pointer)
    (hOwn : ∀ hash ∈ own, IsFreeHash servers hash)
    (j : Nat)
    (values : List Json) :
    overItemsFrom (certificateHash servers place) own j
        values = [] ↔
      ∀ hash ∈ values, IsFreeHash servers hash := by
  have hStep : ∀ (before : List Json) (k : Nat) (v : Json),
      (∀ hash ∈ before, IsFreeHash servers hash) →
      (certificateHash servers place before k v = [] ↔
        IsFreeHash servers v) := by
    intro before k v hBefore
    unfold certificateHash
    by_cases hKnown : v ∈ before
    · have hFree := hBefore v hKnown
      cases v.asString? <;> simp [hKnown, hFree]
    · unfold IsFreeHash
      rw [← holder?_eq_none_iff]
      cases v.asString? <;> cases holder? servers v <;>
        simp [hKnown]
  induction values generalizing own j with
  | nil => simp [overItemsFrom]
  | cons v rest ih =>
      rw [overItemsFrom, List.append_eq_nil_iff,
        hStep own j v hOwn, List.forall_mem_cons]
      refine and_congr_right fun hFree => ih ?_ (j + 1)
      exact List.forall_mem_cons.mpr ⟨hFree, hOwn⟩

theorem securityServer_eq_nil_iff
    (members earlier : List Json)
    (i : Nat)
    (server : Json) :
    securityServer members earlier i server = [] ↔
      ((registeredMember? members
          (serverKey server).1).isSome ∧
        ∀ v ∈ items "clients" server,
          IsRegisteredClient members v) ∧
      ∀ y ∈ earlier, serverKey y ≠ serverKey server ∧
        ∀ hash ∈ hashes server, hash.asString?.isSome →
          hash ∉ hashes y := by
  simp only [securityServer, List.append_eq_nil_iff,
    whenever_eq_nil_iff, clients_eq_nil_iff, overItems,
    hashes_eq_nil_iff _ (List.forall_mem_nil _)]
  simp only [Option.isNone_eq_false_iff, List.contains_eq_mem,
    decide_eq_false_iff_not, List.mem_map, not_exists,
    not_and, IsFreeHash]
  constructor
  · rintro ⟨⟨⟨hOwner, hKey⟩, hHashes⟩, hClients⟩
    exact ⟨⟨hOwner, hClients⟩, fun y hy => ⟨hKey y hy,
      fun hash hMem hText => hHashes hash hMem hText y hy⟩⟩
  · rintro ⟨⟨hOwner, hClients⟩, hOthers⟩
    exact ⟨⟨⟨hOwner, fun y hy => (hOthers y hy).1⟩,
      fun hash hMem hText y hy =>
        (hOthers y hy).2 hash hMem hText⟩, hClients⟩

------------------------------------------------------------
-- Groups
------------------------------------------------------------

theorem globalGroup_eq_nil_iff
    (members earlier : List Json)
    (i : Nat)
    (group : Json) :
    globalGroup members earlier i group = [] ↔
      (∀ v ∈ items "members" group,
        IsRegisteredClient members v) ∧
      ∀ y ∈ earlier,
        text "groupCode" y ≠ text "groupCode" group := by
  simp only [globalGroup, List.append_eq_nil_iff,
    whenever_eq_nil_iff, clients_eq_nil_iff]
  simp [and_comm]

------------------------------------------------------------
-- Trust Services
------------------------------------------------------------

/- The certificates of an authority and its responders are ones. -/
def HasCertificates (v : Json) : Prop :=
  (∀ cert ∈ v.get? "cert", IsCertificateText cert) ∧
    ∀ responder ∈ items "ocsp" v,
      ∀ cert ∈ responder.get? "cert", IsCertificateText cert

theorem authorityCertificates_eq_nil_iff
    (place : Pointer)
    (v : Json) :
    authorityCertificates place v = [] ↔
      HasCertificates v := by
  rw [authorityCertificates, List.append_eq_nil_iff,
    certificate_eq_nil_iff, HasCertificates]
  exact and_congr_right fun _ =>
    overItems_eq_nil_iff_forall
      (fun responder : Json =>
        ∀ cert ∈ responder.get? "cert",
          IsCertificateText cert)
      (fun _ _ responder =>
        certificate_eq_nil_iff _ (responder.get? "cert")) _

theorem authority_eq_nil_iff
    (earlier : List Json)
    (i : Nat)
    (v : Json) :
    authority earlier i v = [] ↔
      (HasCertificates (part "topCA" v) ∧
        ∀ info ∈ items "intermediateCAs" v,
          HasCertificates info) ∧
      ∀ y ∈ earlier, text "name" y ≠ text "name" v := by
  have hInfos : ∀ place : Nat → Pointer,
      overItems
        (fun _ k info => authorityCertificates (place k) info)
        (items "intermediateCAs" v) = [] ↔
      ∀ info ∈ items "intermediateCAs" v,
        HasCertificates info :=
    fun place => overItems_eq_nil_iff_forall _
      (fun _ _ info => authorityCertificates_eq_nil_iff _ info)
      _
  simp only [authority, List.append_eq_nil_iff,
    whenever_eq_nil_iff, authorityCertificates_eq_nil_iff,
    hInfos]
  simp [and_comm, and_left_comm, and_assoc]

theorem timestamping_eq_nil_iff
    (i : Nat)
    (v : Json) :
    timestamping i v = [] ↔
      ∀ cert ∈ v.get? "cert", IsCertificateText cert :=
  certificate_eq_nil_iff _ _

------------------------------------------------------------
-- Documents
------------------------------------------------------------

/- A document that is in order by the rules of shared parameters. -/
structure IsSharedInOrder
    (version : Version)
    (document : Json) : Prop where
  classes : Version.v2 ≤ version →
    ((memberClasses document).map (text "code")).Nodup
  declared : ∀ v ∈ items "members" document,
    ∀ classes ∈ declaredClasses version document,
      (memberKey v).memberClass ∈ classes
  members :
    ((items "members" document).map memberKey).Nodup
  owners : ∀ server ∈ items "securityServers" document,
    (registeredMember? (items "members" document)
      (serverKey server).1).isSome
  clients : ∀ server ∈ items "securityServers" document,
    ∀ v ∈ items "clients" server,
      IsRegisteredClient (items "members" document) v
  servers : (items "securityServers" document).Pairwise
    fun y x => serverKey y ≠ serverKey x ∧
      ∀ hash ∈ hashes x, hash.asString?.isSome →
        hash ∉ hashes y
  groupMembers : ∀ group ∈ items "globalGroups" document,
    ∀ v ∈ items "members" group,
      IsRegisteredClient (items "members" document) v
  groups :
    ((items "globalGroups" document).map
      (text "groupCode")).Nodup
  certificates : ∀ v ∈ items "approvedCAs" document,
    HasCertificates (part "topCA" v) ∧
      ∀ info ∈ items "intermediateCAs" v,
        HasCertificates info
  authorities :
    ((items "approvedCAs" document).map (text "name")).Nodup
  timestamping : ∀ v ∈ items "approvedTSAs" document,
    ∀ cert ∈ v.get? "cert", IsCertificateText cert

theorem classes_eq_nil_iff
    (version : Version)
    (document : Json) :
    Rules.classes version document = [] ↔
      (Version.v2 ≤ version →
        ((memberClasses document).map
          (text "code")).Nodup) := by
  unfold Rules.classes
  by_cases hVersion : Version.v2 ≤ version
  · rw [if_pos hVersion, overItems_eq_nil_iff _ _
      memberClass_eq_nil_iff]
    simp [hVersion, List.Nodup, List.pairwise_map]
  · simp [hVersion]

/- The rules find nothing in just the documents in order. -/
theorem sharedParameters_eq_nil_iff
    (version : Version)
    (document : Json) :
    sharedParameters version document = [] ↔
      IsSharedInOrder version document := by
  simp only [sharedParameters, List.append_eq_nil_iff,
    classes_eq_nil_iff,
    overItems_eq_nil_iff _ _ (member_eq_nil_iff _),
    overItems_eq_nil_iff _ _ (securityServer_eq_nil_iff _),
    overItems_eq_nil_iff _ _ (globalGroup_eq_nil_iff _),
    overItems_eq_nil_iff _ _ authority_eq_nil_iff,
    overItems_eq_nil_iff_forall _
      (fun _ i v => timestamping_eq_nil_iff i v)]
  constructor
  · rintro ⟨⟨⟨⟨⟨hClasses, hDeclared, hMembers⟩, hServer,
      hServers⟩, hGroup, hGroups⟩, hAuthority, hAuthorities⟩,
      hTimestamping⟩
    exact ⟨hClasses, hDeclared,
      List.pairwise_map.mpr hMembers,
      fun server h => (hServer server h).1,
      fun server h => (hServer server h).2,
      hServers, hGroup, List.pairwise_map.mpr hGroups,
      hAuthority, List.pairwise_map.mpr hAuthorities,
      hTimestamping⟩
  · rintro ⟨hClasses, hDeclared, hMembers, hOwners, hClients,
      hServers, hGroup, hGroups, hAuthority, hAuthorities,
      hTimestamping⟩
    exact ⟨⟨⟨⟨⟨hClasses, hDeclared,
      List.pairwise_map.mp hMembers⟩,
      fun server h => ⟨hOwners server h, hClients server h⟩,
      hServers⟩, hGroup, List.pairwise_map.mp hGroups⟩,
      hAuthority, List.pairwise_map.mp hAuthorities⟩,
      hTimestamping⟩

end Rules

end Federation
