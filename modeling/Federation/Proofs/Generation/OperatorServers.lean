import Federation.Proofs.Generation.Passing
import Federation.Proofs.Identity
import Federation.Proofs.Json.Without
import Federation.Proofs.Ties

/-
  Both documents of the second version agree on the servers of
  the operator. The servers that private parameters show are
  those of the shared ones that the operator owns and that have
  a certificate, in the same order and without their clients.

  Main declarations:
    * `sortBy_filter`
    * `Content.serversOf`
    * `Content.serversOf_securityServers`
    * `Content.filter_identified`
    * `Generator.AgreeOnServers`
    * `Generator.IdentifiesServer`
    * `Generator.operator_servers_agree`
-/

namespace Federation

------------------------------------------------------------
-- Sorting and Filtering
------------------------------------------------------------

/-
  To keep some entries of a sorted list is to sort those that
  are kept, also where keys are equal: of each key, the same
  entries stand in the same order in both lists.
-/
theorem sortBy_filter
    {α κ : Type}
    [DecidableEq κ]
    {cmp : κ → κ → Ordering}
    [Std.TransCmp cmp] [Std.LawfulEqCmp cmp]
    (key : α → κ)
    (keeps : α → Bool)
    (xs : List α) :
    (sortBy (fun a b => cmp (key a) (key b)) xs).filter keeps =
      sortBy (fun a b => cmp (key a) (key b))
        (xs.filter keeps) := by
  have hTrans : Std.TransCmp fun a b => cmp (key a) (key b) :=
    transCmp_on cmp key
  have hKept : ((sortBy (fun a b => cmp (key a) (key b))
      xs).filter keeps).Pairwise fun a b =>
        (cmp (key a) (key b)).isLE = true :=
    (sortBy_pairwise xs).filter keeps
  have hTies : TiesAlike key id
      ((sortBy (fun a b => cmp (key a) (key b)) xs).filter
        keeps)
      (sortBy (fun a b => cmp (key a) (key b))
        (xs.filter keeps)) := by
    intro k
    have hSwap : ∀ list : List α,
        (list.filter keeps).filter (fun a => key a = k) =
          (list.filter fun a => key a = k).filter keeps := by
      intro list
      rw [List.filter_filter, List.filter_filter]
      simp only [Bool.and_comm]
    rw [List.map_id, List.map_id, filter_sortBy, hSwap, hSwap,
      filter_sortBy]
  exact eq_of_sorted_of_tiesAlike hKept (sortBy_pairwise _)
    hTies

------------------------------------------------------------
-- Servers as They Are Shown
------------------------------------------------------------

theorem MemberId.toJson_inj
    {m n : MemberId} :
    m.toJson = n.toJson ↔ m = n := by
  constructor
  · intro hSame
    apply MemberId.key_injective
    rw [← Rules.memberKey_memberId m,
      ← Rules.memberKey_memberId n, hSame]
  · intro hSame
    rw [hSame]

namespace Content

/-
  Of servers as they are shown, those that an owner has and
  that have the hash of a certificate, without their clients.
-/
def serversOf
    (owner : Json)
    (servers : List Json) : List Json :=
  (servers.filter fun server =>
    server.get? "owner" = some owner ∧
      Rules.items "authCertHashes" server ≠ []).map
    (Json.without "clients")

/- A server has a hash exactly if it has a certificate. -/
theorem certHashes_ne_nil_iff (s : SecurityServer) :
    certHashes s ≠ [] ↔ s.authCerts ≠ [] := by
  rw [not_iff_not, certHashes, sortTexts,
    List.eq_nil_iff_forall_not_mem]
  simp [List.eq_nil_iff_forall_not_mem]

theorem owner_securityServer (s : SecurityServer) :
    (securityServer s).get? "owner" = some s.owner.toJson := by
  rw [Rules.securityServer_get?]
  rfl

theorem code_securityServer (s : SecurityServer) :
    (securityServer s).get? "serverCode" =
      some (.string s.serverCode) := by
  rw [Rules.securityServer_get?]
  simp [serverParts, List.lookup_cons]

theorem without_clients (s : SecurityServer) :
    (securityServer s).without "clients" = operatorServer s :=
  Json.without_ofMembers _ (by simp [serverParts])

/- The operator's servers are found among all that are shown. -/
theorem serversOf_securityServers (r : Registry) :
    serversOf r.operator.toJson
        ((sortServers r.securityServers).map securityServer) =
      (operatorServers r).map operatorServer := by
  have hKept : ∀ s : SecurityServer,
      ((securityServer s).get? "owner" =
          some r.operator.toJson ∧
        Rules.items "authCertHashes" (securityServer s) ≠
          []) ↔
        s.owner = r.operator ∧ s.authCerts ≠ [] := by
    intro s
    have hHashes := Rules.hashes_securityServer s
    rw [Rules.hashes] at hHashes
    rw [owner_securityServer, hHashes, Option.some_inj,
      MemberId.toJson_inj, ne_eq, List.map_eq_nil_iff,
      ← certHashes_ne_nil_iff]
  rw [serversOf, List.filter_map, List.map_map,
    operatorServers, sortServers_eq, sortServers_eq,
    ← sortBy_filter]
  simp only [Function.comp_def, hKept, without_clients]

------------------------------------------------------------
-- The Server of the Management Service
------------------------------------------------------------

/- A server is identified by its owner and its code. -/
theorem filter_identified
    {r : Registry}
    {s : SecurityServer}
    (hSharable : r.IsSharable)
    (hServer : s ∈ r.securityServers) :
    (((sortServers r.securityServers).map
        securityServer).filter fun server =>
      server.get? "owner" = some s.owner.toJson ∧
        server.get? "serverCode" =
          some (.string s.serverCode)) =
      [securityServer s] := by
  have hSame : ∀ other : SecurityServer,
      ((securityServer other).get? "owner" =
          some s.owner.toJson ∧
        (securityServer other).get? "serverCode" =
          some (.string s.serverCode)) ↔
        serverKey other = serverKey s := by
    intro other
    rw [owner_securityServer, code_securityServer,
      Option.some_inj, MemberId.toJson_inj, serverKey,
      serverKey, Prod.mk.injEq]
    simp
  have hOnce := filter_key_eq_singleton serverKey
    hSharable.serverIds hServer
  rw [List.filter_map, sortServers_eq]
  simp only [Function.comp_def, hSame]
  rw [filter_sortBy, hOnce, List.map_singleton]

/- The owner of a server is among the members that are shown. -/
theorem exists_shown_owner
    {r : Registry}
    {s : SecurityServer}
    (hSharable : r.IsSharable)
    (hServer : s ∈ r.securityServers) :
    ∃ m ∈ (sortBy (fun a b => a.id.compare b.id)
        r.members).map member,
      ∀ part ∈ s.owner.members, m.get? part.1 = some part.2 := by
  rcases (hSharable.servers s hServer).owner with
    ⟨m, hMember, hId⟩
  refine ⟨member m, List.mem_map_of_mem
    (mem_sortBy.mpr hMember), ?_⟩
  rw [← hId]
  simp [MemberId.members, Rules.member_get?, List.lookup_cons]

end Content

------------------------------------------------------------
-- Documents
------------------------------------------------------------

namespace Generator

variable {t u : Instant} {r : Registry}

theorem content_privateV2
    {d : Document .privateParameters}
    (hGenerate : v2.generate .privateParameters t r = .ok d) :
    ∃ code, Content.managementServer r = .ok code ∧
      d.content =
        Table.ofList (Content.privatePartsV2 r code) := by
  rcases generate_ofContent_iff.mp hGenerate with
    ⟨content, hContent, rfl⟩
  rcases Content.privateV2_eq_ok_iff.mp hContent with
    ⟨-, code, hCode, rfl⟩
  exact ⟨code, hCode, Document.new_content _ _ _
    (Content.envelope_privatePartsV2_nodup r code)⟩

/-
  What private and shared content say of servers: who the
  operator is, the code of the management service's server, and
  the servers and members that are shown. The private ones show
  the servers of the operator among them.
-/
structure AgreeOnServers
    (own all : Json.Members)
    (operator : Json)
    (code : String)
    (servers members : List Json) : Prop where
  showsOperator : own.lookup "operator" = some operator
  showsCode : ∃ management,
    own.lookup "managementService" = some management ∧
      management.get? "managementRequestServiceServerCode" =
        some (.string code)
  showsServers : all.lookup "securityServers" =
    some (.array servers)
  showsMembers : all.lookup "members" = some (.array members)
  same : own.lookup "securityServers" =
    some (.array (Content.serversOf operator servers))

/-
  The operator is one of the members, of the same class and
  code, and with the operator the code is that of one server.
-/
structure IdentifiesServer
    (operator : Json)
    (code : String)
    (servers members : List Json) : Prop where
  listed : ∃ m ∈ members,
    ∀ key ∈ ["memberClass", "memberCode"],
      ∃ text, m.get? key = some (.string text) ∧
        operator.get? key = some (.string text)
  single : ∃ server, (servers.filter fun server =>
    server.get? "owner" = some operator ∧
      server.get? "serverCode" = some (.string code)) =
    [server]

theorem agreeOnServers_of_generate
    {d : Document .privateParameters}
    {e : Document .sharedParameters}
    {code : String}
    (hContent : d.content =
      Table.ofList (Content.privatePartsV2 r code))
    (hShared : v2.generate .sharedParameters u r = .ok e) :
    AgreeOnServers d.content e.content r.operator.toJson code
      ((Content.sortServers r.securityServers).map
        Content.securityServer)
      ((sortBy (fun a b => a.id.compare b.id) r.members).map
        Content.member) := by
  have hOwn : ∀ key, d.content.lookup key =
      (Content.privatePartsV2 r code).lookup key := by
    intro key
    rw [hContent]
    exact Table.lookup_ofList
      (by simp [Content.privatePartsV2]) key
  have hAll : ∀ key, e.content.lookup key =
      (Content.sharedParts Content.authorityWithProfile
        [("memberClasses", Content.memberClasses r)]
        r).lookup key := by
    intro key
    rw [content_shared rfl hShared]
    exact Table.lookup_ofList (by simp [Content.sharedParts])
      key
  constructor
  · rw [hOwn]
    simp [Content.privatePartsV2, List.lookup_cons]
  · refine ⟨.ofMembers
      (Content.managementParts r.managementService ++
        [ ("managementRequestServiceServerCode",
            .string code) ]), ?_, ?_⟩
    · rw [hOwn]
      simp [Content.privatePartsV2, List.lookup_cons]
    · rw [Json.get?_ofMembers
        (by simp [Content.managementParts])]
      simp [Content.managementParts, List.lookup_cons]
  · rw [hAll]
    rfl
  · rw [hAll]
    rfl
  · rw [hOwn, Content.serversOf_securityServers]
    rfl

/- A server of the operator is identified by its code. -/
theorem identifiesServer_of_isSharable
    {s : SecurityServer}
    (hSharable : r.IsSharable)
    (hServer : Content.IsOperatorServer r s) :
    IdentifiesServer r.operator.toJson s.serverCode
      ((Content.sortServers r.securityServers).map
        Content.securityServer)
      ((sortBy (fun a b => a.id.compare b.id) r.members).map
        Content.member) := by
  rcases hServer with ⟨hMem, hOwner, -⟩
  rw [← hOwner]
  refine ⟨?_, _, Content.filter_identified hSharable hMem⟩
  rcases Content.exists_shown_owner hSharable hMem with
    ⟨m, hMember, hParts⟩
  have hFound : ∀ part ∈ s.owner.members,
      s.owner.toJson.get? part.1 = some part.2 := by
    simp [MemberId.members, MemberId.toJson, Json.get?,
      List.lookup_cons]
  refine ⟨m, hMember, ?_⟩
  simp only [MemberId.members, List.forall_mem_cons,
    List.not_mem_nil, false_implies, implies_true,
    and_true] at hParts hFound ⊢
  exact ⟨⟨_, hParts.1, hFound.1⟩, _, hParts.2, hFound.2⟩

/-
  Private and shared parameters of the second version, however
  far apart they are generated, agree on the servers of the
  operator. If the shared ones are valid, the operator is one
  of the members that they show, and with the operator the code
  of the management service's server is that of one server.
-/
theorem operator_servers_agree
    {d : Document .privateParameters}
    {e : Document .sharedParameters}
    (hPrivate : v2.generate .privateParameters t r = .ok d)
    (hShared : v2.generate .sharedParameters u r = .ok e) :
    ∃ operator code servers members,
      AgreeOnServers d.content e.content operator code servers
        members ∧
      (v2.validate .sharedParameters e = .ok () →
        IdentifiesServer operator code servers members) := by
  rcases content_privateV2 hPrivate with
    ⟨code, hCode, hContent⟩
  refine ⟨_, _, _, _,
    agreeOnServers_of_generate hContent hShared, ?_⟩
  intro hValid
  have hPasses : v2.PassesAt .sharedParameters u r :=
    ⟨e, hShared, hValid⟩
  rcases passesAt_sharedV2_iff.mp hPasses with
    ⟨-, -, hSharable, -⟩
  rcases (Content.managementServer_eq_ok hCode).2 with
    ⟨server, hServer, rfl⟩
  exact identifiesServer_of_isSharable hSharable hServer

/-
  At the start of 2025 the small registry has both documents,
  and with its operator a single server has the named code.
-/
theorem operator_servers_agree_small :
    ∃ d e,
      v2.generate .privateParameters ⟨1735689600, 0⟩
        (Registry.small .small) = .ok d ∧
      v2.generate .sharedParameters ⟨1735689600, 0⟩
        (Registry.small .small) = .ok e ∧
      v2.validate .sharedParameters e = .ok () ∧
      ∃ operator code servers members,
        AgreeOnServers d.content e.content operator code
          servers members ∧
        IdentifiesServer operator code servers members := by
  rcases passesAt_small .privateParameters with
    ⟨d, hPrivate, -⟩
  rcases passesAt_small .sharedParameters with
    ⟨e, hShared, hValid⟩
  rcases operator_servers_agree hPrivate hShared with
    ⟨operator, code, servers, members, hAgree, hIdentifies⟩
  exact ⟨d, e, hPrivate, hShared, hValid, operator, code,
    servers, members, hAgree, hIdentifies hValid⟩

end Generator

end Federation
