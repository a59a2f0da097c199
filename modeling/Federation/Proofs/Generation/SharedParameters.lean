import Federation.Proofs.Generation.Content
import Federation.Proofs.Generation.Forms
import Federation.Proofs.Generation.Rendering
import Federation.Proofs.Time.Display
import Federation.Proofs.Validation

/-
  Shared parameters that are generated: when there are any,
  and for which registries they are valid.

  Main declarations:
    * `Registry.IsSharable`
    * `Registry.DeclaresClasses`
    * `Generator.generated_shared_iff`
-/

namespace Federation

------------------------------------------------------------
-- Registries
------------------------------------------------------------

namespace Registry

/- A member is registered. -/
def HasMember
    (r : Registry)
    (id : MemberId) : Prop :=
  ∃ m ∈ r.members, m.id = id

/- A client is a registered member, or a subsystem of one. -/
def HasClient
    (r : Registry)
    (c : ClientId) : Prop :=
  ∃ m ∈ r.members, m.id = c.member ∧
    ∀ code ∈ c.subsystemCode, code ∈ m.subsystems

end Registry

/- The certificate of an authority and those of its responders. -/
structure CaInfo.IsSharable (c : CaInfo) : Prop where
  cert : c.cert.IsDer
  urls : ∀ o ∈ c.ocsp, Schema.IsUrl o.url
  certs : ∀ o ∈ c.ocsp, ∀ cert ∈ o.cert, cert.IsDer

structure CertificationAuthority.IsSharable
    (a : CertificationAuthority) : Prop where
  name : a.name ≠ ""
  infos : ∀ info ∈ a.topCa :: a.intermediateCas,
    info.IsSharable

structure TimestampingAuthority.IsSharable
    (t : TimestampingAuthority) : Prop where
  name : t.name ≠ ""
  url : Schema.IsUrl t.url
  cert : t.cert.IsDer

structure Member.IsSharable (m : Member) : Prop where
  name : m.name ≠ ""
  subsystems : ∀ code ∈ m.subsystems, Schema.IsCode code

structure SecurityServer.IsSharable
    (r : Registry)
    (s : SecurityServer) : Prop where
  code : Schema.IsCode s.serverCode
  address : s.address ≠ ""
  owner : r.HasMember s.owner
  clients : ∀ c ∈ s.clients, r.HasClient c

structure GlobalGroup.IsSharable
    (r : Registry)
    (g : GlobalGroup) : Prop where
  code : Schema.IsCode g.groupCode
  members : ∀ c ∈ g.members, r.HasClient c

/- Two servers have no certificate with the same hash. -/
def SecurityServer.SharesNoHash (s t : SecurityServer) : Prop :=
  ∀ c ∈ s.authCerts, ∀ d ∈ t.authCerts,
    c.fingerprint ≠ d.fingerprint

namespace Registry

/- What valid shared parameters of every version ask for. -/
structure IsSharable (r : Registry) : Prop where
  instanceIdentifier : Schema.IsCode r.instanceIdentifier
  authorities : ∀ a ∈ r.certificationAuthorities, a.IsSharable
  authorityNames : (r.certificationAuthorities.map
    CertificationAuthority.name).Nodup
  timestamping : ∀ t ∈ r.timestampingAuthorities, t.IsSharable
  members : ∀ m ∈ r.members, m.IsSharable
  memberIds : (r.members.map Member.id).Nodup
  servers : ∀ s ∈ r.securityServers, s.IsSharable r
  serverIds :
    (r.securityServers.map fun s =>
      (s.owner, s.serverCode)).Nodup
  hashes : r.securityServers.Pairwise
    SecurityServer.SharesNoHash
  groups : ∀ g ∈ r.globalGroups, g.IsSharable r
  groupCodes :
    (r.globalGroups.map GlobalGroup.groupCode).Nodup

/- What they ask for beside that from the second version on. -/
structure DeclaresClasses (r : Registry) : Prop where
  codes : ∀ c ∈ r.memberClasses, Schema.IsCode c.code
  distinct : (r.memberClasses.map MemberClass.code).Nodup
  declared : ∀ m ∈ r.members,
    ∃ c ∈ r.memberClasses, c.code = m.id.memberClass
  profiles : ∀ a ∈ r.certificationAuthorities,
    ∀ profile ∈ a.certificateProfileInfo, profile ≠ ""

end Registry

------------------------------------------------------------
-- Envelopes
------------------------------------------------------------

/- An instant that the clock can show, of a year with four digits. -/
structure Instant.IsPlain (t : Instant) : Prop where
  representable : t.IsRepresentable
  year : 0 ≤ t.calendarYear ∧ t.calendarYear ≤ 9999

namespace Schema

theorem accepts_version (version : Version) :
    Accepts (.constant version.number) version.toJson := by
  simp [Accepts, Version.toJson, Json.sameValue,
    Json.sameNumber]

theorem accepts_generatedAt
    {now : Instant}
    (hNow : now.IsPlain) :
    Accepts timestamp (.string now.truncate.display) := by
  rw [timestamp, accepts_text_iff]
  simp [timestampPattern_accepts_display
    hNow.representable.2.2.1 hNow.year]

/- The envelope of a new document has the form of one. -/
theorem accepts_envelope_append_iff
    {now : Instant}
    {instanceIdentifier : String}
    {properties : List (String × Schema)}
    {parts : List (String × Json)}
    (version : Version)
    (hNow : now.IsPlain) :
    (∀ p ∈ (envelope version.number ++ properties).zip
        (Document.envelopeMembers version now ++
          ("instanceIdentifier", .string instanceIdentifier)
            :: parts),
      Accepts p.1.2 p.2.2) ↔
      IsCode instanceIdentifier ∧
        ∀ p ∈ properties.zip parts, Accepts p.1.2 p.2.2 := by
  simp [envelope, Document.envelopeMembers, accepts_version,
    accepts_generatedAt hNow, accepts_code_iff]

end Schema

namespace Content

------------------------------------------------------------
-- Forms
------------------------------------------------------------

theorem accepts_seconds
    {seconds : UInt64}
    (hSeconds : seconds ≠ 0) :
    Schema.Accepts (.whole 1) (.ofNat seconds.toNat) := by
  have hNe : seconds.toNat ≠ 0 := fun hZero =>
    hSeconds (UInt64.toNat_inj.mp hZero)
  simp [Schema.Accepts, Json.ofNat, Json.isBelow,
    Json.isWhole, hNe]

/- The form of shared parameters, part by part. -/
theorem accepts_sharedParts_iff
    {version : Version}
    {now : Instant}
    {authority settings : List (String × Schema)}
    {render : CertificationAuthority → Json}
    {shown : List (String × Json)}
    {r : Registry}
    (hNow : now.IsPlain) :
    (∀ p ∈ (Schema.sharedWith version.number authority
          settings).zip
        (Document.envelopeMembers version now ++
          sharedParts render shown r),
      Schema.Accepts p.1.2 p.2.2) ↔
      Schema.IsCode r.instanceIdentifier ∧
      (∀ a ∈ r.certificationAuthorities,
        Schema.Accepts (Schema.recordOf authority)
          (render a)) ∧
      (∀ t ∈ r.timestampingAuthorities, t.name ≠ "" ∧
        Schema.IsUrl t.url ∧ t.cert.bytes ≠ []) ∧
      (∀ m ∈ r.members, m.IsSharable) ∧
      (∀ s ∈ r.securityServers,
        Schema.IsCode s.serverCode ∧ s.address ≠ "") ∧
      (∀ g ∈ r.globalGroups, Schema.IsCode g.groupCode) ∧
      Schema.Accepts (Schema.recordOf settings)
        (.ofMembers
          (("ocspFreshnessSeconds",
            .ofNat
              r.globalSettings.ocspFreshnessSeconds.toNat)
            :: shown)) := by
  have hMember : ∀ m : Member,
      m.IsSharable ↔
        Schema.Accepts Schema.member (member m) := by
    intro m
    rw [Schema.accepts_member_iff]
    constructor
    · rintro ⟨hName, hSubsystems⟩
      exact ⟨hName, hSubsystems⟩
    · rintro ⟨hName, hSubsystems⟩
      exact ⟨hName, hSubsystems⟩
  rw [Schema.sharedWith, sharedParts,
    Schema.accepts_envelope_append_iff version hNow]
  simp [authorities, timestamping, members, securityServers,
    globalGroups, Schema.accepts_listOf_iff, sortByText,
    sortServers, Schema.accepts_timestampingAuthority_iff,
    hMember, Schema.accepts_securityServer_iff,
    Schema.accepts_globalGroup_iff]

------------------------------------------------------------
-- Rules
------------------------------------------------------------

/- An authority as it is shown, as far as the rules read it. -/
structure ShowsAuthority
    (render : CertificationAuthority → Json) : Prop where
  name : ∀ a, Rules.text "name" (render a) = a.name
  topCa : ∀ a, Rules.part "topCA" (render a) = caInfo a.topCa
  intermediateCas : ∀ a,
    Rules.items "intermediateCAs" (render a) =
      a.intermediateCas.map caInfo

theorem showsAuthority_authority :
    ShowsAuthority authority := by
  constructor <;> intro a <;>
    simp [Rules.text, Rules.part, Rules.items, authority,
      Json.get?_ofMembers, authorityParts, Json.asString?,
      Json.asArray?, Json.ofList, List.lookup_cons]

theorem showsAuthority_authorityWithProfile :
    ShowsAuthority authorityWithProfile := by
  constructor <;> intro a <;>
    simp [Rules.text, Rules.part, Rules.items,
      authorityWithProfile, Json.get?_ofMembers,
      authorityParts, Json.asString?, Json.asArray?,
      Json.ofList, List.lookup_cons]

/- A document shows a registry, as far as the rules read it. -/
structure ShowsShared
    (render : CertificationAuthority → Json)
    (r : Registry)
    (document : Json) : Prop where
  members : Rules.items "members" document =
    (sortBy (fun a b => a.id.compare b.id) r.members).map
      member
  servers : Rules.items "securityServers" document =
    (sortServers r.securityServers).map securityServer
  groups : Rules.items "globalGroups" document =
    (sortByText GlobalGroup.groupCode r.globalGroups).map
      globalGroup
  authorities : Rules.items "approvedCAs" document =
    (sortByText CertificationAuthority.name
      r.certificationAuthorities).map render
  timestamping : Rules.items "approvedTSAs" document =
    (sortBy compareTimestamping r.timestampingAuthorities).map
      TimestampingAuthority.toJson

theorem envelope_sharedParts_nodup
    (render : CertificationAuthority → Json)
    (shown : List (String × Json))
    (r : Registry) :
    (Document.envelopeKeys ++
      (sharedParts render shown r).map Prod.fst).Nodup := by
  simp [Document.envelopeKeys, sharedParts]

theorem showsShared_new
    (render : CertificationAuthority → Json)
    (shown : List (String × Json))
    (r : Registry)
    (version : Version)
    (now : Instant) :
    ShowsShared render r
      (Document.new .sharedParameters version now
        (Table.ofList
          (sharedParts render shown r))).toJson := by
  have hGet := Document.get?_toJson_new .sharedParameters
    version now (envelope_sharedParts_nodup render shown r)
  constructor <;>
    simp only [Rules.items, hGet] <;>
    simp [Document.envelopeMembers,
      sharedParts, Content.members, Content.securityServers,
      Content.globalGroups, Content.authorities,
      Content.timestamping, Json.ofList, Json.asArray?,
      List.lookup_cons]

/- Sorting leaves what is said of all pairs of a list. -/
theorem pairwise_sortBy_iff
    {α : Type}
    {compare : α → α → Ordering}
    {list : List α}
    (R : α → α → Prop)
    (hSymm : ∀ a b, R a b → R b a) :
    (sortBy compare list).Pairwise R ↔ list.Pairwise R :=
  (sortBy_perm compare list).pairwise_iff (hSymm _ _)

theorem nodup_map_sortBy_iff
    {α β : Type}
    {compare : α → α → Ordering}
    {list : List α}
    {f : α → β} :
    ((sortBy compare list).map f).Nodup ↔
      (list.map f).Nodup :=
  ((sortBy_perm compare list).map f).nodup_iff

theorem nodup_map_iff_of_injective
    {α β γ : Type}
    {list : List α}
    {f : α → β}
    {g : α → γ}
    (hSame : ∀ a b, f a = f b ↔ g a = g b) :
    (list.map f).Nodup ↔ (list.map g).Nodup := by
  simp only [List.Nodup, List.pairwise_map, ne_eq, hSame]

/- The servers that rules hold against each other. -/
theorem pairwise_servers_iff (r : Registry) :
    ((sortServers r.securityServers).map
        securityServer).Pairwise
      (fun y x => Rules.serverKey y ≠ Rules.serverKey x ∧
        ∀ hash ∈ Rules.hashes x, hash.asString?.isSome →
          hash ∉ Rules.hashes y) ↔
      (r.securityServers.map fun s =>
        (s.owner, s.serverCode)).Nodup ∧
      r.securityServers.Pairwise
        SecurityServer.SharesNoHash := by
  have hHashes : ∀ s t : SecurityServer,
      (∀ hash ∈ Rules.hashes (securityServer t),
        hash.asString?.isSome →
          hash ∉ Rules.hashes (securityServer s)) ↔
        s.SharesNoHash t := by
    intro s t
    simp only [Rules.hashes_securityServer, certHashes,
      List.mem_map, mem_sortTexts, SecurityServer.SharesNoHash]
    constructor
    · intro hApart c hc d hd hSame
      exact hApart _ ⟨_, ⟨d, hd, rfl⟩, rfl⟩ rfl
        ⟨_, ⟨c, hc, rfl⟩, by rw [hSame]⟩
    · rintro hApart _ ⟨_, ⟨d, hd, rfl⟩, rfl⟩ -
        ⟨_, ⟨c, hc, rfl⟩, hSame⟩
      exact hApart c hc d hd (Json.string.inj hSame)
  simp only [List.pairwise_map, hHashes,
    Rules.serverKey_securityServer, sortServers]
  rw [pairwise_sortBy_iff _ (by
    rintro s t ⟨hKeys, hApart⟩
    exact ⟨hKeys.symm,
      fun c hc d hd hSame => hApart d hd c hc hSame.symm⟩)]
  rw [List.pairwise_and_iff, List.Nodup, List.pairwise_map]
  simp

section Rules

variable
  {render : CertificationAuthority → Json}
  {r : Registry}
  {document : Json}

theorem ShowsShared.members_nodup_iff
    (hShows : ShowsShared render r document) :
    ((Rules.items "members" document).map
        Rules.memberKey).Nodup ↔
      (r.members.map Member.id).Nodup := by
  rw [hShows.members, List.map_map, nodup_map_sortBy_iff]
  exact nodup_map_iff_of_injective fun a b => by simp

theorem ShowsShared.owners_iff
    (hShows : ShowsShared render r document) :
    (∀ server ∈ Rules.items "securityServers" document,
      (Rules.registeredMember?
        (Rules.items "members" document)
        (Rules.serverKey server).1).isSome) ↔
      ∀ s ∈ r.securityServers, r.HasMember s.owner := by
  rw [hShows.servers, hShows.members]
  simp [Rules.registeredMember?_isSome_iff, sortServers,
    Registry.HasMember]

theorem ShowsShared.isRegisteredClient_iff
    (hShows : ShowsShared render r document)
    (hIds : (r.members.map Member.id).Nodup)
    (c : ClientId) :
    Rules.IsRegisteredClient
        (Rules.items "members" document) c.toJson ↔
      r.HasClient c := by
  rw [hShows.members, Rules.isRegisteredClient_toJson_iff
    (nodup_map_sortBy_iff.mpr hIds)]
  simp [Registry.HasClient]

theorem ShowsShared.clients_iff
    (hShows : ShowsShared render r document)
    (hIds : (r.members.map Member.id).Nodup) :
    (∀ server ∈ Rules.items "securityServers" document,
      ∀ v ∈ Rules.items "clients" server,
        Rules.IsRegisteredClient
          (Rules.items "members" document) v) ↔
      ∀ s ∈ r.securityServers, ∀ c ∈ s.clients,
        r.HasClient c := by
  rw [hShows.servers]
  simp [sortServers, hShows.isRegisteredClient_iff hIds]

theorem ShowsShared.groupMembers_iff
    (hShows : ShowsShared render r document)
    (hIds : (r.members.map Member.id).Nodup) :
    (∀ group ∈ Rules.items "globalGroups" document,
      ∀ v ∈ Rules.items "members" group,
        Rules.IsRegisteredClient
          (Rules.items "members" document) v) ↔
      ∀ g ∈ r.globalGroups, ∀ c ∈ g.members,
        r.HasClient c := by
  rw [hShows.groups]
  simp [sortByText, hShows.isRegisteredClient_iff hIds]

theorem ShowsShared.groups_nodup_iff
    (hShows : ShowsShared render r document) :
    ((Rules.items "globalGroups" document).map
        (Rules.text "groupCode")).Nodup ↔
      (r.globalGroups.map GlobalGroup.groupCode).Nodup := by
  rw [hShows.groups, List.map_map, sortByText,
    nodup_map_sortBy_iff]
  exact nodup_map_iff_of_injective fun a b => by simp

theorem ShowsShared.authorities_nodup_iff
    (hRender : ShowsAuthority render)
    (hShows : ShowsShared render r document) :
    ((Rules.items "approvedCAs" document).map
        (Rules.text "name")).Nodup ↔
      (r.certificationAuthorities.map
        CertificationAuthority.name).Nodup := by
  rw [hShows.authorities, List.map_map, sortByText,
    nodup_map_sortBy_iff]
  exact nodup_map_iff_of_injective fun a b => by
    simp [hRender.name]

theorem ShowsShared.certificates_iff
    (hRender : ShowsAuthority render)
    (hShows : ShowsShared render r document) :
    (∀ v ∈ Rules.items "approvedCAs" document,
      Rules.HasCertificates (Rules.part "topCA" v) ∧
        ∀ info ∈ Rules.items "intermediateCAs" v,
          Rules.HasCertificates info) ↔
      ∀ a ∈ r.certificationAuthorities,
        ∀ info ∈ a.topCa :: a.intermediateCas,
          info.cert.IsDer ∧
            ∀ o ∈ info.ocsp, ∀ cert ∈ o.cert,
              cert.IsDer := by
  rw [hShows.authorities]
  simp [sortByText, hRender.topCa, hRender.intermediateCas,
    Rules.hasCertificates_caInfo_iff]

theorem ShowsShared.timestamping_iff
    (hShows : ShowsShared render r document) :
    (∀ v ∈ Rules.items "approvedTSAs" document,
      ∀ cert ∈ v.get? "cert",
        Rules.IsCertificateText cert) ↔
      ∀ t ∈ r.timestampingAuthorities, t.cert.IsDer := by
  rw [hShows.timestamping]
  simp

theorem ShowsShared.declared_iff
    (hShows : ShowsShared render r document)
    (version : Version) :
    (∀ v ∈ Rules.items "members" document,
      ∀ classes ∈ Rules.declaredClasses version document,
        (Rules.memberKey v).memberClass ∈ classes) ↔
      ∀ m ∈ r.members,
        ∀ classes ∈ Rules.declaredClasses version document,
          m.id.memberClass ∈ classes := by
  rw [hShows.members]
  simp [MemberId.key]

/- What the schema asks of what shared parameters show. -/
structure HasSharedForm (r : Registry) : Prop where
  instanceIdentifier : Schema.IsCode r.instanceIdentifier
  authorities : ∀ a ∈ r.certificationAuthorities,
    Schema.AuthorityForm a
  timestamping : ∀ t ∈ r.timestampingAuthorities,
    t.name ≠ "" ∧ Schema.IsUrl t.url ∧ t.cert.bytes ≠ []
  members : ∀ m ∈ r.members, m.IsSharable
  servers : ∀ s ∈ r.securityServers,
    Schema.IsCode s.serverCode ∧ s.address ≠ ""
  groups : ∀ g ∈ r.globalGroups, Schema.IsCode g.groupCode

/-
  Form and rules together: what is read from the document is
  what the registry has, so that each rule and each schema is
  a condition on the registry.
-/
theorem isSharable_of_isSharedInOrder
    {version : Version}
    (hRender : ShowsAuthority render)
    (hShows : ShowsShared render r document)
    (hForm : HasSharedForm r)
    (hOrder : Rules.IsSharedInOrder version document) :
    r.IsSharable := by
  have hIds := hShows.members_nodup_iff.mp hOrder.members
  have hOwners := hShows.owners_iff.mp hOrder.owners
  have hClients := (hShows.clients_iff hIds).mp
    hOrder.clients
  have hGroupMembers := (hShows.groupMembers_iff hIds).mp
    hOrder.groupMembers
  have hCerts := (hShows.certificates_iff hRender).mp
    hOrder.certificates
  have hStamps := hShows.timestamping_iff.mp
    hOrder.timestamping
  have hPairs := hOrder.servers
  rw [hShows.servers, pairwise_servers_iff] at hPairs
  exact {
    instanceIdentifier := hForm.instanceIdentifier
    authorities := fun a ha =>
      ⟨(hForm.authorities a ha).1, fun info hInfo =>
        ⟨(hCerts a ha info hInfo).1,
          fun o ho =>
            (((hForm.authorities a ha).2 info hInfo).2 o
              ho).1,
          (hCerts a ha info hInfo).2⟩⟩
    authorityNames :=
      (hShows.authorities_nodup_iff hRender).mp
        hOrder.authorities
    timestamping := fun t ht =>
      ⟨(hForm.timestamping t ht).1,
        (hForm.timestamping t ht).2.1, hStamps t ht⟩
    members := hForm.members
    memberIds := hIds
    servers := fun s hs =>
      ⟨(hForm.servers s hs).1, (hForm.servers s hs).2,
        hOwners s hs, hClients s hs⟩
    serverIds := hPairs.1
    hashes := hPairs.2
    groups := fun g hg =>
      ⟨hForm.groups g hg, hGroupMembers g hg⟩
    groupCodes := hShows.groups_nodup_iff.mp hOrder.groups }

/- A registry that is fit to be shared has the form. -/
theorem hasSharedForm_of_isSharable
    (hSharable : r.IsSharable) :
    HasSharedForm r where
  instanceIdentifier := hSharable.instanceIdentifier
  authorities a ha := by
    have hAuthority := hSharable.authorities a ha
    refine ⟨hAuthority.name, fun info hInfo => ?_⟩
    have hParts := hAuthority.infos info hInfo
    exact ⟨CertificateBytes.bytes_ne_nil_of_isDer hParts.cert,
      fun o ho => ⟨hParts.urls o ho, fun cert hCert =>
        CertificateBytes.bytes_ne_nil_of_isDer
          (hParts.certs o ho cert hCert)⟩⟩
  timestamping t ht := by
    have hAuthority := hSharable.timestamping t ht
    exact ⟨hAuthority.name, hAuthority.url,
      CertificateBytes.bytes_ne_nil_of_isDer hAuthority.cert⟩
  members := hSharable.members
  servers s hs :=
    ⟨(hSharable.servers s hs).code,
      (hSharable.servers s hs).address⟩
  groups g hg := (hSharable.groups g hg).code

/- It keeps to the rules that do not depend on the version. -/
theorem isSharedInOrder_of_isSharable
    {version : Version}
    (hRender : ShowsAuthority render)
    (hShows : ShowsShared render r document)
    (hSharable : r.IsSharable)
    (hClasses : Version.v2 ≤ version →
      ((Rules.memberClasses document).map
        (Rules.text "code")).Nodup)
    (hDeclared : ∀ v ∈ Rules.items "members" document,
      ∀ classes ∈ Rules.declaredClasses version document,
        (Rules.memberKey v).memberClass ∈ classes) :
    Rules.IsSharedInOrder version document := by
  have hIds := hSharable.memberIds
  exact {
    classes := hClasses
    declared := hDeclared
    members := hShows.members_nodup_iff.mpr hIds
    owners := hShows.owners_iff.mpr fun s hs =>
      (hSharable.servers s hs).owner
    clients := (hShows.clients_iff hIds).mpr fun s hs =>
      (hSharable.servers s hs).clients
    servers := by
      rw [hShows.servers, pairwise_servers_iff]
      exact ⟨hSharable.serverIds, hSharable.hashes⟩
    groupMembers := (hShows.groupMembers_iff hIds).mpr
      fun g hg => (hSharable.groups g hg).members
    groups := hShows.groups_nodup_iff.mpr
      hSharable.groupCodes
    certificates := (hShows.certificates_iff hRender).mpr
      fun a ha info hInfo =>
        ⟨((hSharable.authorities a ha).infos info hInfo).cert,
          ((hSharable.authorities a ha).infos info
            hInfo).certs⟩
    authorities :=
      (hShows.authorities_nodup_iff hRender).mpr
        hSharable.authorityNames
    timestamping := hShows.timestamping_iff.mpr
      fun t ht => (hSharable.timestamping t ht).cert }

end Rules

------------------------------------------------------------
-- Versions
------------------------------------------------------------

section Versions

variable
  {version : Version}
  {now : Instant}
  {authority settings : List (String × Schema)}
  {render : CertificationAuthority → Json}
  {shown : List (String × Json)}
  {r : Registry}

/-
  Shared parameters of a version that asks of authorities and
  of settings what it adds to the form of every version.
-/
theorem validateDocument_shared_iff
    (AsksMore : CertificationAuthority → Prop)
    (hSchema :
      ParameterSchema.find? .sharedParameters version =
        some ⟨.sharedParameters, version,
          Schema.sharedWith version.number authority
            settings⟩)
    (hRender : ShowsAuthority render)
    (hAuthority : ∀ a,
      Schema.Accepts (Schema.recordOf authority) (render a) ↔
        Schema.AuthorityForm a ∧ AsksMore a)
    (hNow : now.IsPlain) :
    Validation.validateDocument version
        (Document.new .sharedParameters version now
          (Table.ofList (sharedParts render shown r))) =
        .ok () ↔
      r.IsSharable ∧
      (∀ a ∈ r.certificationAuthorities, AsksMore a) ∧
      Schema.Accepts (Schema.recordOf settings)
        (.ofMembers
          (("ocspFreshnessSeconds",
            .ofNat
              r.globalSettings.ocspFreshnessSeconds.toNat)
            :: shown)) ∧
      Rules.classes version
        (Document.new .sharedParameters version now
          (Table.ofList
            (sharedParts render shown r))).toJson = [] ∧
      ∀ m ∈ r.members, ∀ classes ∈
        Rules.declaredClasses version
          (Document.new .sharedParameters version now
            (Table.ofList
              (sharedParts render shown r))).toJson,
        m.id.memberClass ∈ classes := by
  have hShows := showsShared_new render shown r version now
  rw [Validation.validateDocument_new_eq_ok_iff hSchema
      (by rfl) (envelope_sharedParts_nodup render shown r),
    accepts_sharedParts_iff hNow, Rules.findings,
    Rules.sharedParameters_eq_nil_iff,
    Rules.classes_eq_nil_iff]
  have hDeclared := hShows.declared_iff version
  constructor
  · rintro ⟨⟨hInstance, hAuthorities, hTimestamping,
      hMembers, hServers, hGroups, hSettings⟩, hOrder⟩
    have hForm : HasSharedForm r :=
      ⟨hInstance,
        fun a ha => ((hAuthority a).mp
          (hAuthorities a ha)).1,
        hTimestamping, hMembers, hServers, hGroups⟩
    exact ⟨isSharable_of_isSharedInOrder hRender hShows hForm
        hOrder,
      fun a ha => ((hAuthority a).mp (hAuthorities a ha)).2,
      hSettings, hOrder.classes, hDeclared.mp hOrder.declared⟩
  · rintro ⟨hSharable, hMore, hSettings, hClasses,
      hInClasses⟩
    have hForm := hasSharedForm_of_isSharable hSharable
    have hOrder := isSharedInOrder_of_isSharable hRender
      hShows hSharable hClasses (hDeclared.mpr hInClasses)
    exact ⟨⟨hForm.instanceIdentifier,
      fun a ha => (hAuthority a).mpr
        ⟨hForm.authorities a ha, hMore a ha⟩,
      hForm.timestamping, hForm.members, hForm.servers,
      hForm.groups, hSettings⟩, hOrder⟩

/- The first version asks for no more. -/
theorem validateDocument_sharedV1_iff
    (hNow : now.IsPlain)
    (hSeconds :
      r.globalSettings.ocspFreshnessSeconds ≠ 0) :
    Validation.validateDocument .v1
        (Document.new .sharedParameters .v1 now
          (Table.ofList
            (sharedParts Content.authority [] r))) =
        .ok () ↔
      r.IsSharable := by
  have hEarly : ¬ Version.v2 ≤ Version.v1 := by decide
  rw [validateDocument_shared_iff (fun _ => True) rfl
    showsAuthority_authority
    (fun a => by simp [Schema.accepts_authority_iff]) hNow,
    Schema.accepts_recordOf_iff rfl (by simp)]
  simp [Rules.classes, Rules.declaredClasses, hEarly,
    Schema.settingsV1, accepts_seconds hSeconds]

theorem memberClasses_new
    (render : CertificationAuthority → Json)
    (r : Registry)
    (version : Version)
    (now : Instant) :
    Rules.memberClasses
        (Document.new .sharedParameters version now
          (Table.ofList
            (sharedParts render
              [("memberClasses", memberClasses r)]
              r))).toJson =
      (sortByText MemberClass.code r.memberClasses).map
        memberClass := by
  have hGet := Document.get?_toJson_new .sharedParameters
    version now (envelope_sharedParts_nodup render
      [("memberClasses", memberClasses r)] r)
  have hSettings :
      Rules.part "globalSettings"
        (Document.new .sharedParameters version now
          (Table.ofList
            (sharedParts render
              [("memberClasses", memberClasses r)]
              r))).toJson =
        .ofMembers
          [ ("ocspFreshnessSeconds",
              .ofNat
                r.globalSettings.ocspFreshnessSeconds.toNat),
            ("memberClasses", memberClasses r) ] := by
    simp only [Rules.part, hGet]
    simp [Document.envelopeMembers, sharedParts, List.lookup_cons]
  rw [Rules.memberClasses, hSettings, Rules.items,
    Json.get?_ofMembers (by simp)]
  simp [memberClasses, Json.ofList, Json.asArray?,
    List.lookup_cons]

/- The second version asks for classes and profiles as well. -/
theorem validateDocument_sharedV2_iff
    (hNow : now.IsPlain)
    (hSeconds :
      r.globalSettings.ocspFreshnessSeconds ≠ 0) :
    Validation.validateDocument .v2
        (Document.new .sharedParameters .v2 now
          (Table.ofList
            (sharedParts authorityWithProfile
              [("memberClasses", memberClasses r)] r))) =
        .ok () ↔
      r.IsSharable ∧ r.DeclaresClasses := by
  have hClasses := memberClasses_new authorityWithProfile r
    .v2 now
  have hNodup :
      (((sortByText MemberClass.code r.memberClasses).map
        memberClass).map (Rules.text "code")).Nodup ↔
      (r.memberClasses.map MemberClass.code).Nodup := by
    rw [List.map_map, sortByText, nodup_map_sortBy_iff]
    exact nodup_map_iff_of_injective fun a b => by simp
  rw [validateDocument_shared_iff
    (fun a => ∀ profile ∈ a.certificateProfileInfo,
      profile ≠ "")
    rfl showsAuthority_authorityWithProfile
    Schema.accepts_authorityWithProfile_iff hNow,
    Schema.accepts_recordOf_iff rfl (by simp),
    Rules.classes_eq_nil_iff, Rules.declaredClasses, hClasses,
    hNodup]
  refine and_congr_right fun _ => ?_
  simp only [Schema.settingsV2, Schema.settingsV1,
    memberClasses, sortByText, List.cons_append,
    List.nil_append, List.zip_cons_cons, List.zip_nil_right,
    List.forall_mem_cons, Schema.accepts_listOf_iff,
    Schema.accepts_memberClass_iff, mem_sortBy,
    accepts_seconds hSeconds, true_and]
  have hLate : Version.v2 ≤ Version.v2 := by decide
  simp only [List.not_mem_nil, false_implies, implies_true,
    and_true, hLate, true_implies, if_true, Option.mem_def,
    Option.some.injEq, forall_eq', List.mem_map, mem_sortBy,
    exists_exists_and_eq_and, Rules.code_memberClass]
  constructor
  · rintro ⟨hProfiles, hCodes, hDistinct, hDeclared⟩
    exact ⟨hCodes, hDistinct, hDeclared, hProfiles⟩
  · rintro ⟨hCodes, hDistinct, hDeclared, hProfiles⟩
    exact ⟨hProfiles, hCodes, hDistinct, hDeclared⟩

end Versions

end Content

------------------------------------------------------------
-- Digests
------------------------------------------------------------

/- A new document of exact parts has a digest. -/
theorem Document.digest_new_isOk
    {parts : List (String × Json)}
    (kind : DocumentKind)
    (version : Version)
    (now : Instant)
    (hParts : ∀ part ∈ parts, part.2.IsExact) :
    ∃ digest, (Document.new kind version now
      (Table.ofList parts)).digest = .ok digest := by
  apply Document.digest_isOk
  intro part hMem
  have hPart :=
    Table.mem_of_mem_ofList (List.mem_filter.mp hMem).1
  exact (hParts part hPart).noFloat

------------------------------------------------------------
-- Generators
------------------------------------------------------------

/- A generator whose content is shared parameters of some form. -/
theorem Generator.generated_shared_of_content
    {version : Version}
    {content : DocumentKind → Registry →
      Except GenerationFault Json.Members}
    {render : CertificationAuthority → Json}
    {shown : List (String × Json)}
    {now : Instant}
    {r : Registry}
    (Valid : Prop)
    (hContent : content .sharedParameters r =
      Content.shared render shown r)
    (hRender : ∀ a, (render a).IsExact)
    (hShown : ∀ part ∈ shown, part.2.IsExact)
    (hValid : r.globalSettings.ocspFreshnessSeconds ≠ 0 →
      (Validation.validateDocument version
        (Document.new .sharedParameters version now
          (Table.ofList
            (Content.sharedParts render shown r))) = .ok () ↔
        Valid)) :
    ((∃ d, (ofContent version content).generate
        .sharedParameters now r = .ok d) ↔
      r.globalSettings.ocspFreshnessSeconds ≠ 0) ∧
    ∀ d, (ofContent version content).generate
        .sharedParameters now r = .ok d →
      (∃ digest, d.digest = .ok digest) ∧
      ((ofContent version content).validate
        .sharedParameters d = .ok () ↔ Valid) := by
  constructor
  · rw [exists_generate_ofContent_iff, hContent]
    simp [Content.shared_eq_ok_iff]
  · intro d hGenerate
    rcases generate_ofContent_iff.mp hGenerate with
      ⟨members, hMembers, rfl⟩
    rw [hContent] at hMembers
    rcases Content.shared_eq_ok_iff.mp hMembers with
      ⟨hSeconds, rfl⟩
    exact ⟨Document.digest_new_isOk .sharedParameters version
        now
        (Content.isExact_sharedParts r hRender hShown),
      hValid hSeconds⟩

theorem Generator.valid_generated_sharedV1
    {now : Instant}
    {r : Registry}
    {d : Document .sharedParameters}
    (hNow : now.IsPlain)
    (hGenerate :
      v1.generate .sharedParameters now r = .ok d) :
    (∃ digest, d.digest = .ok digest) ∧
      (v1.validate .sharedParameters d = .ok () ↔
        r.IsSharable) :=
  (generated_shared_of_content _ rfl
    Content.isExact_authority (List.forall_mem_nil _)
    (Content.validateDocument_sharedV1_iff hNow)).2 d hGenerate

theorem Generator.valid_generated_sharedV2
    {now : Instant}
    {r : Registry}
    {d : Document .sharedParameters}
    (hNow : now.IsPlain)
    (hGenerate :
      v2.generate .sharedParameters now r = .ok d) :
    (∃ digest, d.digest = .ok digest) ∧
      (v2.validate .sharedParameters d = .ok () ↔
        r.IsSharable ∧ r.DeclaresClasses) :=
  (generated_shared_of_content _ rfl
    Content.isExact_authorityWithProfile
    (List.forall_mem_singleton.mpr
      (Content.isExact_memberClasses r))
    (Content.validateDocument_sharedV2_iff hNow)).2 d hGenerate

/- What is fit to be shared is generated and valid. -/
theorem Generator.exists_valid_sharedV2
    {now : Instant}
    {r : Registry}
    (hNow : now.IsPlain)
    (hSeconds : r.globalSettings.ocspFreshnessSeconds ≠ 0)
    (hSharable : r.IsSharable)
    (hDeclares : r.DeclaresClasses) :
    ∃ d, v2.generate .sharedParameters now r = .ok d ∧
      v2.validate .sharedParameters d = .ok () := by
  have hContent : Content.sharedV2 r = .ok _ :=
    Content.shared_eq_ok_iff.mpr ⟨hSeconds, rfl⟩
  have hGenerate : v2.generate .sharedParameters now r =
      .ok _ :=
    generate_ofContent_iff.mpr ⟨_, hContent, rfl⟩
  exact ⟨_, hGenerate,
    (valid_generated_sharedV2 hNow hGenerate).2.mpr
      ⟨hSharable, hDeclares⟩⟩

/-
  Shared parameters are generated if the age of a status is
  limited to some time. They have a digest, and are valid for
  just the registries that are fit to be shared, from the
  second version on with classes and profiles.
-/
theorem Generator.generated_shared_iff
    {g : Generator}
    (hBuiltin : g = .v1 ∨ g = .v2)
    {now : Instant}
    (hNow : now.IsPlain)
    (r : Registry) :
    ((∃ d, g.generate .sharedParameters now r = .ok d) ↔
      1 ≤ r.globalSettings.ocspFreshnessSeconds) ∧
    ∀ d, g.generate .sharedParameters now r = .ok d →
      (∃ digest, d.digest = .ok digest) ∧
      (g.validate .sharedParameters d = .ok () ↔
        r.IsSharable ∧
          (g.version = .v2 → r.DeclaresClasses)) := by
  have hPositive :
      1 ≤ r.globalSettings.ocspFreshnessSeconds ↔
        r.globalSettings.ocspFreshnessSeconds ≠ 0 := by
    rw [UInt64.le_iff_toNat_le, ne_eq, ← UInt64.toNat_inj]
    exact Nat.one_le_iff_ne_zero
  rw [hPositive]
  rcases hBuiltin with rfl | rfl
  · have hOther : Generator.v1.version ≠ Version.v2 := by
      decide
    refine generated_shared_of_content _ rfl
      Content.isExact_authority (List.forall_mem_nil _)
      fun hSeconds => ?_
    rw [Content.validateDocument_sharedV1_iff hNow hSeconds]
    simp [hOther]
  · have hSame : Generator.v2.version = Version.v2 := rfl
    refine generated_shared_of_content _ rfl
      Content.isExact_authorityWithProfile
      (List.forall_mem_singleton.mpr
        (Content.isExact_memberClasses r))
      fun hSeconds => ?_
    rw [Content.validateDocument_sharedV2_iff hNow hSeconds]
    simp [hSame]

/- The small registry is fit to be shared. -/
theorem Registry.isSharable_small (auth : CertificateBytes) :
    (Registry.small auth).IsSharable := by
  have hMember : (Registry.small auth).HasMember .small :=
    ⟨_, List.mem_singleton.mpr rfl, rfl⟩
  have hServer : (SecurityServer.small auth).IsSharable
      (Registry.small auth) :=
    ⟨⟨by simp [SecurityServer.small],
      by simp [SecurityServer.small]⟩,
      by simp [SecurityServer.small], hMember,
      by simp [SecurityServer.small]⟩
  exact {
    instanceIdentifier := ⟨by simp [small], by simp [small]⟩
    authorities := by simp [small]
    authorityNames := by simp [small]
    timestamping := by simp [small]
    members := List.forall_mem_singleton.mpr
      ⟨by decide, by simp⟩
    memberIds := by simp [small]
    servers := List.forall_mem_singleton.mpr hServer
    serverIds := by simp [small]
    hashes := List.pairwise_singleton _ _
    groups := by simp [small]
    groupCodes := by simp [small] }

theorem Registry.declaresClasses_small
    (auth : CertificateBytes) :
    (Registry.small auth).DeclaresClasses := by
  constructor
  · exact List.forall_mem_singleton.mpr
      ⟨by decide, by decide⟩
  · simp [small]
  · simp [small, MemberId.small]
  · simp [small]

/- At the start of 2025 the small registry can be shared. -/
theorem Generator.generated_shared_small :
    ((Generator.v2 = .v1 ∨ Generator.v2 = .v2) ∧
      Instant.IsPlain ⟨1735689600, 0⟩) ∧
    ∃ d, Generator.v2.generate .sharedParameters
        ⟨1735689600, 0⟩ (Registry.small .small) = .ok d ∧
      Generator.v2.validate .sharedParameters d =
        .ok () := by
  have hBuiltin : Generator.v2 = .v1 ∨ Generator.v2 = .v2 :=
    Or.inr rfl
  have hNow : Instant.IsPlain ⟨1735689600, 0⟩ :=
    ⟨by decide, by decide⟩
  rcases generated_shared_iff hBuiltin hNow
      (Registry.small .small) with
    ⟨hGenerate, hValid⟩
  rcases hGenerate.mpr (by decide) with ⟨d, hDocument⟩
  exact ⟨⟨hBuiltin, hNow⟩, d, hDocument,
    (hValid d hDocument).2.mpr
      ⟨Registry.isSharable_small .small,
        fun _ => Registry.declaresClasses_small .small⟩⟩

end Federation
