import Federation.Proofs.Ascending
import Federation.Proofs.Generation.Documents
import Federation.Proofs.Identity

/-
  Shared parameters lose nothing and invent nothing: every
  list of the registry is shown as a rearrangement of itself
  in the order of its ranks, and what an entry lists of texts
  or clients is shown as the strictly ascending list of the
  same elements.

  Main declarations:
    * `ClientId.rank`, `SecurityServer.rank`
    * `Content.ListsInOrder`
    * `Content.TellsShared`
    * `Generator.nothing_lost_or_invented`
-/

namespace Federation

------------------------------------------------------------
-- Ranks
------------------------------------------------------------

/- The class of a member decides its place before the code. -/
def MemberId.rank (m : MemberId) : String ×ₗ String :=
  toLex (m.memberClass, m.memberCode)

/- A member itself has its place before its subsystems. -/
def ClientId.codeRank : Option String → WithBot String
| none => ⊥
| some code => code

/- A client has its place by its member and then by its subsystem. -/
def ClientId.rank
    (c : ClientId) : (String ×ₗ String) ×ₗ WithBot String :=
  toLex (c.member.rank, codeRank c.subsystemCode)

/- A server has its place by its owner and then by its code. -/
def SecurityServer.rank
    (s : SecurityServer) : (String ×ₗ String) ×ₗ String :=
  toLex (s.owner.rank, s.serverCode)

/- An authority has its place by its name and then by its address. -/
def TimestampingAuthority.rank
    (t : TimestampingAuthority) : String ×ₗ String :=
  toLex (t.name, t.url)

theorem MemberId.comparesBy_rank :
    ComparesBy MemberId.compare MemberId.rank :=
  (comparesBy_text MemberId.memberClass).lex
    (comparesBy_text MemberId.memberCode)

theorem ClientId.comparesBy_codeRank :
    ComparesBy ClientId.compareCodes ClientId.codeRank := by
  intro a b
  cases a with
  | none =>
      cases b with
      | none => rfl
      | some code => exact WithBot.bot_lt_coe code
  | some code =>
      cases b with
      | none => exact WithBot.bot_lt_coe code
      | some other =>
          have hTexts : (Ord.compare code other).Compares
              code other :=
            comparesBy_text id code other
          rw [ClientId.compareCodes]
          cases hOrder : Ord.compare code other with
          | lt =>
              rw [hOrder] at hTexts
              exact WithBot.coe_lt_coe.mpr hTexts
          | eq =>
              rw [hOrder] at hTexts
              exact congrArg WithBot.some hTexts
          | gt =>
              rw [hOrder] at hTexts
              exact WithBot.coe_lt_coe.mpr hTexts

theorem ClientId.comparesBy_rank :
    ComparesBy ClientId.compare ClientId.rank :=
  (MemberId.comparesBy_rank.on ClientId.member).lex
    (ClientId.comparesBy_codeRank.on ClientId.subsystemCode)

/- Clients with the same rank are the same. -/
theorem ClientId.rank_injective :
    Function.Injective ClientId.rank := by
  intro a b hSame
  have hEqual : ClientId.compare a b = .eq :=
    (ClientId.comparesBy_rank a b).eq_eq.mpr hSame
  exact Std.LawfulEqCmp.eq_of_compare hEqual

theorem SecurityServer.comparesBy_rank :
    ComparesBy Content.compareServers SecurityServer.rank :=
  (MemberId.comparesBy_rank.on SecurityServer.owner).lex
    (comparesBy_text SecurityServer.serverCode)

theorem TimestampingAuthority.comparesBy_rank :
    ComparesBy Content.compareTimestamping
      TimestampingAuthority.rank :=
  (comparesBy_text TimestampingAuthority.name).lex
    (comparesBy_text TimestampingAuthority.url)

namespace Content

------------------------------------------------------------
-- Lists in Order
------------------------------------------------------------

section Lists

variable {α κ : Type} [LinearOrder κ]

/-
  A value is the array of what is told of each element of a
  list, rearranged to ascend in its ranks.
-/
def ListsInOrder
    (rank : α → κ)
    (tells : α → Json → Prop)
    (source : List α)
    (v : Json) : Prop :=
  ∃ sorted items,
    sorted.Perm source ∧
    sorted.Pairwise (fun a b => rank a ≤ rank b) ∧
    v = .array items ∧
    List.Forall₂ tells sorted items

theorem listsInOrder_sortBy
    {cmp : α → α → Ordering}
    {rank : α → κ}
    {tells : α → Json → Prop}
    {toJson : α → Json}
    (hCompares : ComparesBy cmp rank)
    (hTells : ∀ a, tells a (toJson a))
    (source : List α) :
    ListsInOrder rank tells source
      (Json.ofList toJson (sortBy cmp source)) := by
  refine ⟨sortBy cmp source, _, sortBy_perm cmp source,
    hCompares.sortBy_pairwise_le source, rfl, ?_⟩
  rw [List.forall₂_map_right_iff]
  exact List.forall₂_same.mpr fun a _ => hTells a

end Lists

theorem isSetOf_sortTexts (texts : List String) :
    IsSetOf id texts (sortTexts texts) :=
  (comparesBy_text id).isSetOf_sortOnce
    Function.injective_id texts

theorem isSetOf_sortClients (clients : List ClientId) :
    IsSetOf ClientId.rank clients (sortClients clients) :=
  ClientId.comparesBy_rank.isSetOf_sortOnce
    ClientId.rank_injective clients

------------------------------------------------------------
-- What Is Told of Entries
------------------------------------------------------------

/- A member is told with the set of its subsystems. -/
def TellsMember (m : Member) (v : Json) : Prop :=
  ∃ subsystems, IsSetOf id m.subsystems subsystems ∧
    v = .ofMembers
      [ ("memberClass", .string m.id.memberClass),
        ("memberCode", .string m.id.memberCode),
        ("name", .string m.name),
        ("subsystems", Json.ofList .string subsystems) ]

/-
  A server is told with the set of its certificates' hashes
  and the set of its clients.
-/
def TellsServer (s : SecurityServer) (v : Json) : Prop :=
  ∃ hashes clients,
    IsSetOf id
      (s.authCerts.map CertificateBytes.fingerprint) hashes ∧
    IsSetOf ClientId.rank s.clients clients ∧
    v = .ofMembers
      [ ("owner", s.owner.toJson),
        ("serverCode", .string s.serverCode),
        ("address", .string s.address),
        ("authCertHashes", Json.ofList .string hashes),
        ("clients", Json.ofList ClientId.toJson clients) ]

/- A group is told with the set of its members. -/
def TellsGroup (g : GlobalGroup) (v : Json) : Prop :=
  ∃ clients, IsSetOf ClientId.rank g.members clients ∧
    v = .ofMembers
      [ ("groupCode", .string g.groupCode),
        ("description", .string g.description),
        ("members", Json.ofList ClientId.toJson clients) ]

/-
  A certificate of an authority is told with all its
  responders, in the order of their addresses.
-/
def TellsInfo (c : CaInfo) (v : Json) : Prop :=
  ∃ ocsp,
    ListsInOrder OcspResponder.url
      (fun responder shown => shown = responder.toJson)
      c.ocsp ocsp ∧
    v = .ofMembers [("cert", c.cert.toJson), ("ocsp", ocsp)]

/- What is told of an authority's profile in a version. -/
def profileParts
    (version : Version)
    (a : CertificationAuthority) : Json.Members :=
  if version = .v1 then []
  else
    [ ("certificateProfileInfo",
        .string
          (a.certificateProfileInfo.getD defaultProfile)) ]

/-
  An authority is told with its certificates, the intermediate
  ones in the order in which they are registered.
-/
def TellsAuthority
    (version : Version)
    (a : CertificationAuthority)
    (v : Json) : Prop :=
  ∃ top intermediates,
    TellsInfo a.topCa top ∧
    List.Forall₂ TellsInfo a.intermediateCas intermediates ∧
    v = .ofMembers
      ([ ("name", .string a.name),
          ("authenticationOnly", .bool a.authenticationOnly),
          ("topCA", top),
          ("intermediateCAs", .array intermediates) ] ++
        profileParts version a)

/- The settings are told with the classes if the version has them. -/
def TellsSettings
    (version : Version)
    (r : Registry)
    (v : Json) : Prop :=
  ∃ classes,
    ListsInOrder MemberClass.code
      (fun c shown => shown = c.toJson)
      r.memberClasses classes ∧
    v = .ofMembers
      (("ocspFreshnessSeconds",
          .ofNat r.globalSettings.ocspFreshnessSeconds.toNat)
        :: if version = .v1 then []
          else [("memberClasses", classes)])

theorem tellsMember_member (m : Member) :
    TellsMember m (member m) :=
  ⟨sortTexts m.subsystems, isSetOf_sortTexts _, rfl⟩

theorem tellsServer_securityServer (s : SecurityServer) :
    TellsServer s (securityServer s) :=
  ⟨certHashes s, sortClients s.clients, isSetOf_sortTexts _,
    isSetOf_sortClients _, rfl⟩

theorem tellsGroup_globalGroup (g : GlobalGroup) :
    TellsGroup g (globalGroup g) :=
  ⟨sortClients g.members, isSetOf_sortClients _, rfl⟩

theorem tellsInfo_caInfo (c : CaInfo) :
    TellsInfo c (caInfo c) := by
  refine ⟨_, ?_, rfl⟩
  apply listsInOrder_sortBy (comparesBy_text OcspResponder.url)
  intro responder
  rfl

theorem forall₂_tellsInfo (infos : List CaInfo) :
    List.Forall₂ TellsInfo infos (infos.map caInfo) := by
  rw [List.forall₂_map_right_iff]
  exact List.forall₂_same.mpr fun c _ => tellsInfo_caInfo c

theorem tellsAuthority_authority (a : CertificationAuthority) :
    TellsAuthority .v1 a (authority a) :=
  ⟨caInfo a.topCa, _, tellsInfo_caInfo _,
    forall₂_tellsInfo _, rfl⟩

theorem tellsAuthority_authorityWithProfile
    (a : CertificationAuthority) :
    TellsAuthority .v2 a (authorityWithProfile a) :=
  ⟨caInfo a.topCa, _, tellsInfo_caInfo _,
    forall₂_tellsInfo _, rfl⟩

theorem listsInOrder_memberClasses (r : Registry) :
    ListsInOrder MemberClass.code
      (fun c shown => shown = c.toJson)
      r.memberClasses (memberClasses r) := by
  apply listsInOrder_sortBy (comparesBy_text MemberClass.code)
  intro c
  rfl

------------------------------------------------------------
-- Documents
------------------------------------------------------------

/- A table tells of something under a key. -/
def HasAt
    (table : Json.Members)
    (key : String)
    (tells : Json → Prop) : Prop :=
  ∃ v, table.lookup key = some v ∧ tells v

/-
  The content of shared parameters tells every entry of a
  registry, each as often as it is registered, and nothing
  else.
-/
structure TellsShared
    (version : Version)
    (r : Registry)
    (content : Json.Members) : Prop where
  identifier : content.lookup "instanceIdentifier" =
    some (.string r.instanceIdentifier)
  members : HasAt content "members"
    (ListsInOrder (fun m : Member => m.id.rank) TellsMember
      r.members)
  servers : HasAt content "securityServers"
    (ListsInOrder SecurityServer.rank TellsServer
      r.securityServers)
  groups : HasAt content "globalGroups"
    (ListsInOrder GlobalGroup.groupCode TellsGroup
      r.globalGroups)
  authorities : HasAt content "approvedCAs"
    (ListsInOrder CertificationAuthority.name
      (TellsAuthority version) r.certificationAuthorities)
  timestamping : HasAt content "approvedTSAs"
    (ListsInOrder TimestampingAuthority.rank
      (fun t shown => shown = t.toJson)
      r.timestampingAuthorities)
  settings : HasAt content "globalSettings"
    (TellsSettings version r)
  keys : (content.map Prod.fst).Perm
    [ "instanceIdentifier", "approvedCAs", "approvedTSAs",
      "members", "securityServers", "globalGroups",
      "globalSettings" ]

/-
  What the parts of shared parameters tell, if a version's
  authorities and settings tell what they should.
-/
theorem tellsShared_sharedParts
    {version : Version}
    {render : CertificationAuthority → Json}
    {settings : Json.Members}
    {r : Registry}
    (hRender : ∀ a, TellsAuthority version a (render a))
    (hSettings : TellsSettings version r
      (.ofMembers
        (("ocspFreshnessSeconds",
          .ofNat r.globalSettings.ocspFreshnessSeconds.toNat)
          :: settings))) :
    TellsShared version r
      (Table.ofList (sharedParts render settings r)) := by
  have hParts :
      ((sharedParts render settings r).map Prod.fst).Nodup := by
    simp [sharedParts]
  have hLookup := Table.lookup_ofList hParts
  constructor
  · exact hLookup _
  · refine ⟨_, hLookup _, ?_⟩
    exact listsInOrder_sortBy
      (MemberId.comparesBy_rank.on Member.id)
      tellsMember_member r.members
  · refine ⟨_, hLookup _, ?_⟩
    exact listsInOrder_sortBy SecurityServer.comparesBy_rank
      tellsServer_securityServer r.securityServers
  · refine ⟨_, hLookup _, ?_⟩
    exact listsInOrder_sortBy
      (comparesBy_text GlobalGroup.groupCode)
      tellsGroup_globalGroup r.globalGroups
  · refine ⟨_, hLookup _, ?_⟩
    exact listsInOrder_sortBy
      (comparesBy_text CertificationAuthority.name)
      hRender r.certificationAuthorities
  · refine ⟨_, hLookup _, ?_⟩
    apply listsInOrder_sortBy
      TimestampingAuthority.comparesBy_rank
    intro t
    rfl
  · exact ⟨_, hLookup _, hSettings⟩
  · exact (Table.ofList_perm hParts).map Prod.fst

end Content

------------------------------------------------------------
-- Generators
------------------------------------------------------------

namespace Generator

/- Shared parameters with the parts of a version are generated. -/
theorem tells_of_shared
    {version : Version}
    {content : DocumentKind → Registry →
      Except GenerationFault Json.Members}
    {render : CertificationAuthority → Json}
    {settings : Json.Members}
    {r : Registry}
    (hShared : content .sharedParameters r =
      Content.shared render settings r)
    (hSeconds : r.globalSettings.ocspFreshnessSeconds ≠ 0)
    (hTells : Content.TellsShared version r
      (Table.ofList (Content.sharedParts render settings r)))
    (now : Instant) :
    ∃ d, (ofContent version content).generate
        .sharedParameters now r = .ok d ∧
      Content.TellsShared version r d.content := by
  have hContent : content .sharedParameters r =
      .ok (Table.ofList
        (Content.sharedParts render settings r)) := by
    rw [hShared]
    exact Content.shared_eq_ok_iff.mpr ⟨hSeconds, rfl⟩
  refine ⟨_, generate_ofContent_iff.mpr
    ⟨_, hContent, rfl⟩, ?_⟩
  rw [Document.new_content .sharedParameters version now
    (by simp [Document.envelopeKeys, Content.sharedParts])]
  exact hTells

/-
  From every registry with a positive freshness, both versions
  generate shared parameters that lose nothing and invent
  nothing.
-/
theorem nothing_lost_or_invented
    {g : Generator}
    (hBuiltin : g = .v1 ∨ g = .v2)
    {r : Registry}
    (hSeconds : 0 < r.globalSettings.ocspFreshnessSeconds)
    (now : Instant) :
    ∃ d, g.generate .sharedParameters now r = .ok d ∧
      Content.TellsShared g.version r d.content := by
  have hNonzero :
      r.globalSettings.ocspFreshnessSeconds ≠ 0 :=
    (UInt64.ne_of_lt hSeconds).symm
  rcases hBuiltin with rfl | rfl
  · apply tells_of_shared rfl hNonzero
    apply Content.tellsShared_sharedParts
      Content.tellsAuthority_authority
    exact ⟨_, Content.listsInOrder_memberClasses r, rfl⟩
  · apply tells_of_shared rfl hNonzero
    apply Content.tellsShared_sharedParts
      Content.tellsAuthority_authorityWithProfile
    exact ⟨_, Content.listsInOrder_memberClasses r, rfl⟩

/-
  A registry with a member before the one that comes first,
  and with a subsystem that this member has twice.
-/
def unorderedRegistry : Registry :=
  { Registry.small .small with
    members :=
      [ ⟨⟨"GOV", "2", by decide, by decide⟩, "Office",
          ["b", "a", "b"]⟩,
        ⟨.small, "Acme", []⟩ ] }

/- Its shared parameters have both members, in order. -/
theorem nothing_lost_or_invented_unordered :
    (v2 = v1 ∨ v2 = v2) ∧
    0 < unorderedRegistry.globalSettings.ocspFreshnessSeconds ∧
    ∃ d, v2.generate .sharedParameters ⟨1735689600, 0⟩
        unorderedRegistry = .ok d ∧
      Content.TellsShared .v2 unorderedRegistry d.content :=
  ⟨Or.inr rfl, by decide,
    nothing_lost_or_invented (Or.inr rfl) (by decide)
      ⟨1735689600, 0⟩⟩

end Generator

end Federation
