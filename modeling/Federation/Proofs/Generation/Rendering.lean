import Federation.Proofs.Generation.Documents
import Federation.Proofs.Rules.Private
import Federation.Proofs.Rules.Shared
import Mathlib.Data.List.Nodup

/-
  What the rules read from the parts of generated documents:
  the keys of members, the codes, the hashes and the
  certificates that the registry has for them.

  Main declarations:
    * `MemberId.key`
    * `Rules.hasCertificates_caInfo_iff`
    * `Rules.isRegisteredClient_toJson_iff`
-/

namespace Federation

------------------------------------------------------------
-- Identifiers
------------------------------------------------------------

/- The key that documents name a member by. -/
def MemberId.key (m : MemberId) : MemberKey :=
  ⟨m.memberClass, m.memberCode⟩

@[simp] theorem MemberId.key_inj {m n : MemberId} :
    m.key = n.key ↔ m = n := by
  constructor
  · intro hKey
    cases m
    cases n
    simpa [key] using hKey
  · rintro rfl
    rfl

theorem MemberId.key_injective
    {m n : MemberId}
    (hKey : m.key = n.key) :
    m = n :=
  key_inj.mp hKey

namespace Rules

@[simp] theorem memberKey_memberId (m : MemberId) :
    memberKey m.toJson = m.key := by
  simp [memberKey, text, MemberId.toJson, MemberId.members,
    MemberId.key, Json.get?, Json.asString?, List.lookup_cons]

@[simp] theorem memberKey_clientId (c : ClientId) :
    memberKey c.toJson = c.member.key := by
  unfold ClientId.toJson
  cases c.subsystemCode with
  | none => exact memberKey_memberId c.member
  | some code =>
      simp [memberKey, text, MemberId.members, MemberId.key,
        Json.get?, Json.asString?, List.lookup_cons]

@[simp] theorem subsystemCode_clientId (c : ClientId) :
    (c.toJson.get? "subsystemCode").bind Json.asString? =
      c.subsystemCode := by
  unfold ClientId.toJson
  cases c.subsystemCode with
  | none =>
      simp [MemberId.toJson, MemberId.members, Json.get?,
        List.lookup_cons]
  | some code =>
      simp [MemberId.members, Json.get?, Json.asString?,
        List.lookup_cons]

------------------------------------------------------------
-- Members
------------------------------------------------------------

theorem member_get?
    (m : Member)
    (key : String) :
    (Content.member m).get? key =
      (m.id.members ++
        [ ("name", .string m.name),
          ("subsystems",
            Json.ofList .string
              (Content.sortTexts m.subsystems)) ]).lookup
        key :=
  Json.get?_ofMembers (by simp [MemberId.members]) key

@[simp] theorem memberKey_member (m : Member) :
    memberKey (Content.member m) = m.id.key := by
  simp [memberKey, text, member_get?, MemberId.members,
    MemberId.key, Json.asString?, List.lookup_cons]

@[simp] theorem subsystems_member (m : Member) :
    subsystems (Content.member m) =
      Content.sortTexts m.subsystems := by
  have hStrings : ∀ texts : List String,
      (texts.map Json.string).filterMap Json.asString? =
        texts := by
    intro texts
    rw [List.filterMap_map]
    exact List.filterMap_some
  simp [subsystems, items, member_get?, MemberId.members,
    Json.ofList, Json.asArray?, List.lookup_cons, hStrings]

theorem registeredMember?_eq_some
    {members : List Member}
    {key : MemberKey}
    {entry : Json}
    (hFound : registeredMember? (members.map Content.member)
      key = some entry) :
    ∃ m ∈ members, m.id.key = key ∧
      entry = Content.member m := by
  unfold registeredMember? at hFound
  have hMem := List.mem_of_find?_eq_some hFound
  have hKey := List.find?_some hFound
  rw [List.mem_reverse, List.mem_map] at hMem
  rcases hMem with ⟨m, hMember, rfl⟩
  exact ⟨m, hMember, by simpa using hKey, rfl⟩

theorem registeredMember?_isSome_iff
    {members : List Member}
    {key : MemberKey} :
    (registeredMember? (members.map Content.member)
        key).isSome ↔
      ∃ m ∈ members, m.id.key = key := by
  unfold registeredMember?
  rw [List.find?_isSome]
  simp

/-
  A client is registered if a member is that it belongs to,
  with the subsystem that it is, if it is one. No two members
  have one identifier, so that there is one entry to look at.
-/
theorem isRegisteredClient_toJson_iff
    {members : List Member}
    (hIds : (members.map Member.id).Nodup)
    (c : ClientId) :
    IsRegisteredClient (members.map Content.member)
        c.toJson ↔
      ∃ m ∈ members, m.id = c.member ∧
        ∀ code ∈ c.subsystemCode, code ∈ m.subsystems := by
  unfold IsRegisteredClient
  rw [memberKey_clientId, subsystemCode_clientId]
  constructor
  · rintro ⟨entry, hFound, hCodes⟩
    rcases registeredMember?_eq_some hFound with
      ⟨m, hMember, hKey, rfl⟩
    refine ⟨m, hMember, MemberId.key_injective hKey, ?_⟩
    simpa using hCodes
  · rintro ⟨m, hMember, hId, hCodes⟩
    have hSome : (registeredMember?
        (members.map Content.member) c.member.key).isSome :=
      registeredMember?_isSome_iff.mpr
        ⟨m, hMember, by rw [hId]⟩
    rcases Option.isSome_iff_exists.mp hSome with
      ⟨entry, hFound⟩
    rcases registeredMember?_eq_some hFound with
      ⟨n, hOther, hKey, rfl⟩
    have hSame : n = m := by
      apply List.inj_on_of_nodup_map hIds hOther hMember
      rw [hId]
      exact MemberId.key_injective hKey
    subst hSame
    exact ⟨_, hFound, by simpa using hCodes⟩

------------------------------------------------------------
-- Security Servers
------------------------------------------------------------

theorem securityServer_get?
    (s : SecurityServer)
    (key : String) :
    (Content.securityServer s).get? key =
      (Content.serverParts s ++
        [ ("clients",
            Json.ofList ClientId.toJson
              (Content.sortClients s.clients)) ]).lookup
        key :=
  Json.get?_ofMembers (by simp [Content.serverParts]) key

theorem operatorServer_get?
    (s : SecurityServer)
    (key : String) :
    (Content.operatorServer s).get? key =
      (Content.serverParts s).lookup key :=
  Json.get?_ofMembers (by simp [Content.serverParts]) key

@[simp] theorem serverKey_securityServer (s : SecurityServer) :
    serverKey (Content.securityServer s) =
      (s.owner.key, s.serverCode) := by
  simp [serverKey, part, text, securityServer_get?,
    Content.serverParts, Json.asString?, List.lookup_cons]

@[simp] theorem hashes_securityServer (s : SecurityServer) :
    hashes (Content.securityServer s) =
      (Content.certHashes s).map .string := by
  simp [hashes, items, securityServer_get?,
    Content.serverParts, Json.ofList, Json.asArray?,
    List.lookup_cons]

@[simp] theorem clients_securityServer (s : SecurityServer) :
    items "clients" (Content.securityServer s) =
      (Content.sortClients s.clients).map ClientId.toJson := by
  simp [items, securityServer_get?, Content.serverParts,
    Json.ofList, Json.asArray?, List.lookup_cons]

@[simp] theorem owner_operatorServer (s : SecurityServer) :
    memberKey (part "owner" (Content.operatorServer s)) =
      s.owner.key := by
  simp [part, operatorServer_get?, Content.serverParts]

@[simp] theorem code_operatorServer (s : SecurityServer) :
    text "serverCode" (Content.operatorServer s) =
      s.serverCode := by
  simp [text, operatorServer_get?, Content.serverParts,
    Json.asString?, List.lookup_cons]

------------------------------------------------------------
-- Groups and Classes
------------------------------------------------------------

theorem globalGroup_get?
    (g : GlobalGroup)
    (key : String) :
    (Content.globalGroup g).get? key =
      [ ("groupCode", .string g.groupCode),
        ("description", .string g.description),
        ("members",
          Json.ofList ClientId.toJson
            (Content.sortClients g.members)) ].lookup
        key :=
  Json.get?_ofMembers (by simp) key

@[simp] theorem code_globalGroup (g : GlobalGroup) :
    text "groupCode" (Content.globalGroup g) =
      g.groupCode := by
  simp [text, globalGroup_get?, Json.asString?]

@[simp] theorem members_globalGroup (g : GlobalGroup) :
    items "members" (Content.globalGroup g) =
      (Content.sortClients g.members).map
        ClientId.toJson := by
  simp [items, globalGroup_get?, Json.ofList,
    Json.asArray?, List.lookup_cons]

@[simp] theorem code_memberClass (c : MemberClass) :
    text "code" (Content.memberClass c) = c.code := by
  rw [text, Content.memberClass,
    Json.get?_ofMembers (by simp)]
  simp [Json.asString?]

------------------------------------------------------------
-- Trust Services
------------------------------------------------------------

@[simp] theorem cert_ocspResponder (o : OcspResponder) :
    o.toJson.get? "cert" =
      o.cert.map CertificateBytes.toJson := by
  unfold OcspResponder.toJson
  cases o.cert with
  | none =>
      rw [Json.get?_ofMembers (by simp)]
      simp [List.lookup_cons]
  | some cert =>
      rw [Json.get?_ofMembers (by simp)]
      simp [List.lookup_cons]

theorem caInfo_get?
    (c : CaInfo)
    (key : String) :
    (Content.caInfo c).get? key =
      [ ("cert", c.cert.toJson),
        ("ocsp",
          Json.ofList OcspResponder.toJson
            (Content.sortByText OcspResponder.url
              c.ocsp)) ].lookup key :=
  Json.get?_ofMembers (by simp) key

theorem hasCertificates_caInfo_iff (c : CaInfo) :
    HasCertificates (Content.caInfo c) ↔
      c.cert.IsDer ∧
        ∀ o ∈ c.ocsp, ∀ cert ∈ o.cert, cert.IsDer := by
  simp [HasCertificates, items, caInfo_get?, Json.ofList,
    Json.asArray?, List.lookup_cons, Content.sortByText]

@[simp] theorem cert_timestampingAuthority
    (t : TimestampingAuthority) :
    t.toJson.get? "cert" = some t.cert.toJson := by
  rw [TimestampingAuthority.toJson,
    Json.get?_ofMembers (by simp)]
  simp [List.lookup_cons]

end Rules

end Federation
