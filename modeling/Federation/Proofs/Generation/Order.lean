import Federation.Proofs.Generation.Clock
import Federation.Proofs.Identity

/-
  The order of registration does not show. Registries with
  the same entries in some other order, and with the same
  lists in these entries in some other order, have the same
  parameters as soon as those of one of them are valid: what
  is valid has keys of its own, so that its lists can be
  sorted in one way only.

  Main declarations:
    * `Reordered`
    * `Registry.Reorders`
    * `Content.sharedV2_eq_of_reorders`
    * `Content.privateV2_eq_of_reorders`
    * `Generator.order_hidden`
-/

namespace Federation

------------------------------------------------------------
-- Lists in Another Order
------------------------------------------------------------

/- Related elements, one to one, in any order. -/
def Reordered
    {α : Type}
    (Same : α → α → Prop)
    (xs ys : List α) : Prop :=
  ∃ zs, xs.Perm zs ∧ List.Forall₂ Same zs ys

namespace Reordered

variable {α β κ : Type}
variable {Same : α → α → Prop}
variable {xs ys : List α}

theorem refl
    (hSame : ∀ a, Same a a)
    (xs : List α) :
    Reordered Same xs xs :=
  ⟨xs, .refl xs, List.forall₂_same.mpr fun a _ => hSame a⟩

theorem map_eq_of_forall₂
    {f : α → β}
    (hSame : List.Forall₂ Same xs ys)
    (hMap : ∀ a b, Same a b → f a = f b) :
    xs.map f = ys.map f := by
  have hEach : List.Forall₂ (· = ·) (xs.map f) (ys.map f) :=
    List.forall₂_map_left_iff.mpr
      (List.forall₂_map_right_iff.mpr (hSame.imp hMap))
  rwa [List.forall₂_eq_eq_eq] at hEach

/- Related elements keep their places in their lists. -/
theorem zipIdx_of_forall₂
    (hSame : List.Forall₂ Same xs ys)
    (first : Nat) :
    List.Forall₂ (fun a b => Same a.1 b.1 ∧ a.2 = b.2)
      (xs.zipIdx first) (ys.zipIdx first) := by
  induction hSame generalizing first with
  | nil => exact .nil
  | cons hFirst _ ih =>
      exact .cons ⟨hFirst, rfl⟩ (ih (first + 1))

theorem map_perm
    {f : α → β}
    (hReordered : Reordered Same xs ys)
    (hMap : ∀ a b, Same a b → f a = f b) :
    (xs.map f).Perm (ys.map f) := by
  rcases hReordered with ⟨zs, hPerm, hSame⟩
  rw [← map_eq_of_forall₂ hSame hMap]
  exact hPerm.map f

theorem filter
    {test : α → Bool}
    (hReordered : Reordered Same xs ys)
    (hTest : ∀ a b, Same a b → test a = test b) :
    Reordered Same (xs.filter test) (ys.filter test) := by
  rcases hReordered with ⟨zs, hPerm, hSame⟩
  refine ⟨zs.filter test, hPerm.filter test, ?_⟩
  refine List.rel_filter (fun {a b} hRelated => ?_) hSame
  simp only [hTest a b hRelated]

/-
  What is made of elements is the same in the order of their
  keys if related elements make the same and no key is there
  twice.
-/
theorem map_sortBy_eq
    {cmp : κ → κ → Ordering}
    [Std.TransCmp cmp]
    [Std.LawfulEqCmp cmp]
    {key : α → κ}
    {f : α → β}
    (hReordered : Reordered Same xs ys)
    (hKey : ∀ a b, Same a b → key a = key b)
    (hMap : ∀ a b, Same a b → f a = f b)
    (hKeys : (xs.map key).Nodup) :
    (sortBy (fun a b => cmp (key a) (key b)) xs).map f =
      (sortBy (fun a b => cmp (key a) (key b)) ys).map f := by
  refine map_sortBy_eq_of_perm (hReordered.map_perm ?_) hKeys
  intro a b hSame
  rw [hKey a b hSame, hMap a b hSame]

end Reordered

------------------------------------------------------------
-- Entries in Another Order
------------------------------------------------------------

/- A member with its subsystems in any order. -/
structure Member.Reorders (m m' : Member) : Prop where
  id : m.id = m'.id
  name : m.name = m'.name
  subsystems : m.subsystems.Perm m'.subsystems

@[refl] theorem Member.Reorders.refl
    (m : Member) :
    m.Reorders m :=
  ⟨rfl, rfl, .refl _⟩

/- A server with its certificates and clients in any order. -/
structure SecurityServer.Reorders
    (s s' : SecurityServer) : Prop where
  owner : s.owner = s'.owner
  serverCode : s.serverCode = s'.serverCode
  address : s.address = s'.address
  authCerts : s.authCerts.Perm s'.authCerts
  clients : s.clients.Perm s'.clients

@[refl] theorem SecurityServer.Reorders.refl
    (s : SecurityServer) :
    s.Reorders s :=
  ⟨rfl, rfl, rfl, .refl _, .refl _⟩

/- A group with its members in any order. -/
structure GlobalGroup.Reorders (g g' : GlobalGroup) : Prop where
  groupCode : g.groupCode = g'.groupCode
  description : g.description = g'.description
  members : g.members.Perm g'.members

@[refl] theorem GlobalGroup.Reorders.refl
    (g : GlobalGroup) :
    g.Reorders g :=
  ⟨rfl, rfl, .refl _⟩

/- A source with its certificates in any order. -/
structure ConfigurationSource.Reorders
    (s s' : ConfigurationSource) : Prop where
  downloadUrl : s.downloadUrl = s'.downloadUrl
  verificationCerts :
    s.verificationCerts.Perm s'.verificationCerts

@[refl] theorem ConfigurationSource.Reorders.refl
    (s : ConfigurationSource) :
    s.Reorders s :=
  ⟨rfl, .refl _⟩

namespace Registry

/-
  Registries that differ in nothing but the order of classes,
  members, servers, certification authorities and groups, and
  of what members, servers, groups and sources list.
-/
structure Reorders (r r' : Registry) : Prop where
  instanceIdentifier :
    r.instanceIdentifier = r'.instanceIdentifier
  memberClasses : r.memberClasses.Perm r'.memberClasses
  members : Reordered Member.Reorders r.members r'.members
  servers : Reordered SecurityServer.Reorders
    r.securityServers r'.securityServers
  authorities : r.certificationAuthorities.Perm
    r'.certificationAuthorities
  timestamping :
    r.timestampingAuthorities = r'.timestampingAuthorities
  groups : Reordered GlobalGroup.Reorders
    r.globalGroups r'.globalGroups
  sources : List.Forall₂ ConfigurationSource.Reorders
    r.configurationSources r'.configurationSources
  management : r.managementService = r'.managementService
  settings : r.globalSettings = r'.globalSettings

theorem Reorders.operator
    {r r' : Registry}
    (hSame : r.Reorders r') :
    r.operator = r'.operator := by
  rw [Registry.operator, Registry.operator, hSame.management]

end Registry

------------------------------------------------------------
-- What Entries Show
------------------------------------------------------------

namespace Content

theorem member_eq_of_reorders
    {m m' : Member}
    (hSame : m.Reorders m') :
    member m = member m' := by
  rw [member, member, hSame.id, hSame.name,
    sortTexts_eq_of_perm hSame.subsystems]

theorem certHashes_eq_of_reorders
    {s s' : SecurityServer}
    (hSame : s.Reorders s') :
    certHashes s = certHashes s' :=
  sortTexts_eq_of_perm (hSame.authCerts.map _)

theorem serverParts_eq_of_reorders
    {s s' : SecurityServer}
    (hSame : s.Reorders s') :
    serverParts s = serverParts s' := by
  rw [serverParts, serverParts, hSame.owner,
    hSame.serverCode, hSame.address,
    certHashes_eq_of_reorders hSame]

theorem securityServer_eq_of_reorders
    {s s' : SecurityServer}
    (hSame : s.Reorders s') :
    securityServer s = securityServer s' := by
  have hClients : sortClients s.clients =
      sortClients s'.clients :=
    sortOnce_eq_of_perm hSame.clients
  rw [securityServer, securityServer,
    serverParts_eq_of_reorders hSame, hClients]

theorem operatorServer_eq_of_reorders
    {s s' : SecurityServer}
    (hSame : s.Reorders s') :
    operatorServer s = operatorServer s' := by
  rw [operatorServer, operatorServer,
    serverParts_eq_of_reorders hSame]

theorem serverKey_eq_of_reorders
    {s s' : SecurityServer}
    (hSame : s.Reorders s') :
    serverKey s = serverKey s' := by
  rw [serverKey, serverKey, hSame.owner, hSame.serverCode]

theorem globalGroup_eq_of_reorders
    {g g' : GlobalGroup}
    (hSame : g.Reorders g') :
    globalGroup g = globalGroup g' := by
  have hMembers : sortClients g.members =
      sortClients g'.members :=
    sortOnce_eq_of_perm hSame.members
  rw [globalGroup, globalGroup, hSame.groupCode,
    hSame.description, hMembers]

theorem anchorSource_eq_of_reorders
    {s s' : ConfigurationSource}
    (hSame : s.Reorders s')
    (place : Nat) :
    anchorSource allCerts (s, place) =
      anchorSource allCerts (s', place) := by
  have hCerts := hSame.verificationCerts
  unfold anchorSource
  cases hFirst : s.verificationCerts with
  | nil =>
      rw [hFirst] at hCerts
      have hNone : s'.verificationCerts = [] :=
        hCerts.nil_eq.symm
      simp only [hNone]
  | cons cert certs =>
      cases hSecond : s'.verificationCerts with
      | nil =>
          rw [hFirst, hSecond] at hCerts
          cases hCerts.eq_nil
      | cons cert' certs' =>
          rw [hFirst, hSecond] at hCerts
          simp only [allCerts, hSame.downloadUrl,
            sortTexts_eq_of_perm (hCerts.map _)]

/- A server has a certificate in any order of them. -/
theorem isUsable_eq_of_reorders
    {s s' : SecurityServer}
    (hSame : s.Reorders s')
    (operator : MemberId) :
    decide (s.owner = operator ∧ s.authCerts ≠ []) =
      decide (s'.owner = operator ∧ s'.authCerts ≠ []) := by
  have hNone : s.authCerts = [] ↔ s'.authCerts = [] := by
    rw [← List.length_eq_zero_iff, hSame.authCerts.length_eq,
      List.length_eq_zero_iff]
  simp only [hSame.owner, ne_eq, hNone]

------------------------------------------------------------
-- Shared Parameters
------------------------------------------------------------

section Registries

variable {r r' : Registry}

theorem memberClasses_eq_of_reorders
    (hSame : r.Reorders r')
    (hDistinct : (r.memberClasses.map MemberClass.code).Nodup) :
    memberClasses r = memberClasses r' :=
  congrArg Json.array (map_sortBy_eq_of_perm
    (hSame.memberClasses.map _) hDistinct)

/-
  Servers are told apart by what they are ordered by, so that
  what is made of them comes in one order only.
-/
theorem map_sortServers_eq
    {β : Type}
    {f : SecurityServer → β}
    {xs ys : List SecurityServer}
    (hSame : Reordered SecurityServer.Reorders xs ys)
    (hMap : ∀ a b, a.Reorders b → f a = f b)
    (hKeys : (xs.map serverKey).Nodup) :
    (sortServers xs).map f = (sortServers ys).map f := by
  rw [sortServers_eq, sortServers_eq]
  exact hSame.map_sortBy_eq
    (fun _ _ => serverKey_eq_of_reorders) hMap hKeys

theorem shared_eq_of_reorders
    {render : CertificationAuthority → Json}
    {shown : List (String × Json)}
    (hSame : r.Reorders r')
    (hSharable : r.IsSharable) :
    shared render shown r = shared render shown r' := by
  have hAuthorities : authorities render r =
      authorities render r' :=
    congrArg Json.array (map_sortBy_eq_of_perm
      (hSame.authorities.map _) hSharable.authorityNames)
  have hMembers : members r = members r' :=
    congrArg Json.array (hSame.members.map_sortBy_eq
      (fun _ _ => Member.Reorders.id)
      (fun _ _ => member_eq_of_reorders) hSharable.memberIds)
  have hServers : securityServers r = securityServers r' :=
    congrArg Json.array (map_sortServers_eq hSame.servers
      (fun _ _ => securityServer_eq_of_reorders)
      hSharable.serverIds)
  have hGroups : globalGroups r = globalGroups r' :=
    congrArg Json.array (hSame.groups.map_sortBy_eq
      (fun _ _ => GlobalGroup.Reorders.groupCode)
      (fun _ _ => globalGroup_eq_of_reorders)
      hSharable.groupCodes)
  have hTimestamping : timestamping r = timestamping r' := by
    rw [timestamping, timestamping, hSame.timestamping]
  rw [shared, shared, ocspFreshness, ocspFreshness,
    hSame.instanceIdentifier, hSame.settings, hAuthorities,
    hTimestamping, hMembers, hServers, hGroups]

theorem sharedV2_eq_of_reorders
    (hSame : r.Reorders r')
    (hSharable : r.IsSharable)
    (hDeclares : r.DeclaresClasses) :
    sharedV2 r = sharedV2 r' := by
  have hClasses :=
    memberClasses_eq_of_reorders hSame hDeclares.distinct
  rw [sharedV2, sharedV2, ← hClasses]
  exact shared_eq_of_reorders hSame hSharable

------------------------------------------------------------
-- Private Parameters
------------------------------------------------------------

/-
  The operator's servers have one owner, so that their codes
  tell them apart.
-/
theorem map_operatorServers_eq
    {β : Type}
    {f : SecurityServer → β}
    (hSame : r.Reorders r')
    (hValid : r.HasValidServers)
    (hMap : ∀ a b, a.Reorders b → f a = f b) :
    (operatorServers r).map f =
      (operatorServers r').map f := by
  have hKeys := List.Nodup.of_map Prod.snd
    (l := (r.securityServers.filter fun s =>
      s.owner = r.operator ∧ s.authCerts ≠ []).map serverKey)
    (by rw [List.map_map]; exact hValid.distinct)
  rw [operatorServers, operatorServers, ← hSame.operator]
  refine map_sortServers_eq (hSame.servers.filter ?_) hMap
    hKeys
  intro a b hRelated
  exact isUsable_eq_of_reorders hRelated r.operator

/- The server is chosen among the codes of these servers. -/
theorem managementServer_congr
    (hManagement : r.managementService = r'.managementService)
    (hCodes : (operatorServers r).map
        SecurityServer.serverCode =
      (operatorServers r').map SecurityServer.serverCode) :
    managementServer r = managementServer r' := by
  have hAny : ∀ (code : String) (servers : List SecurityServer),
      servers.any (fun s => s.serverCode == code) =
        (servers.map SecurityServer.serverCode).any
          (· == code) := by
    intro code servers
    rw [List.any_map]
    rfl
  unfold managementServer
  cases hFirst : operatorServers r with
  | nil =>
      rw [hFirst] at hCodes
      have hNone : operatorServers r' = [] :=
        List.map_eq_nil_iff.mp hCodes.symm
      simp only [hNone, Registry.operator, hManagement]
  | cons s rest =>
      cases hSecond : operatorServers r' with
      | nil => simp [hFirst, hSecond] at hCodes
      | cons s' rest' =>
          rw [hFirst, hSecond] at hCodes
          have hCode : s.serverCode = s'.serverCode :=
            (List.cons.inj hCodes).1
          simp only [hAny, hCodes, hCode, hManagement,
            Registry.operator]

/- Sources keep their places, and show what they showed. -/
theorem anchorSources_eq_of_reorders
    (hSame : r.Reorders r') :
    anchorSources allCerts r = anchorSources allCerts r' := by
  have hEntries := Reordered.map_eq_of_forall₂
    (Reordered.zipIdx_of_forall₂ hSame.sources 0)
    (f := fun entry =>
      (entry.1.downloadUrl, anchorSource allCerts entry))
    (by
      rintro ⟨s, place⟩ ⟨s', _⟩ ⟨hSource, rfl⟩
      rw [anchorSource_eq_of_reorders hSource,
        hSource.downloadUrl])
  have hSources : (sortedSources r).map
        (anchorSource allCerts) =
      (sortedSources r').map (anchorSource allCerts) := by
    rw [sortedSources, sortedSources, sortByText, sortByText,
      map_sortBy _ _ r.configurationSources.zipIdx,
      map_sortBy _ _ r'.configurationSources.zipIdx, hEntries]
  have hShown := congrArg (List.mapM id) hSources
  simp only [List.mapM_map, Function.id_comp] at hShown
  rw [anchorSources, anchorSources, hShown]

theorem requireSources_eq_of_reorders
    (hSame : r.Reorders r') :
    requireSources r = requireSources r' := by
  simp only [requireSources, List.isEmpty_iff,
    ← List.length_eq_zero_iff, hSame.sources.length_eq]

theorem privateV2_eq_of_reorders
    (hSame : r.Reorders r')
    (hValid : r.HasValidServers) :
    privateV2 r = privateV2 r' := by
  have hServers : Json.ofList operatorServer
        (operatorServers r) =
      Json.ofList operatorServer (operatorServers r') :=
    congrArg Json.array (map_operatorServers_eq hSame hValid
      fun _ _ => operatorServer_eq_of_reorders)
  have hCode : managementServer r = managementServer r' :=
    managementServer_congr hSame.management
      (map_operatorServers_eq hSame hValid
        fun _ _ => SecurityServer.Reorders.serverCode)
  rw [privateV2, privateV2, timestampingInterval,
    timestampingInterval, requireSources_eq_of_reorders hSame,
    anchorSources_eq_of_reorders hSame, hCode, hServers,
    hSame.operator, hSame.instanceIdentifier, hSame.settings,
    hSame.management]

end Registries

end Content

------------------------------------------------------------
-- Small Registries
------------------------------------------------------------

/- The small registry with some classes of members. -/
def Registry.smallWith (classes : List MemberClass) : Registry :=
  { Registry.small .small with memberClasses := classes }

theorem Registry.isSharable_smallWith
    (classes : List MemberClass) :
    (smallWith classes).IsSharable := by
  have hSmall := isSharable_small .small
  exact { hSmall with
    servers := fun s hs =>
      have hServer := hSmall.servers s hs
      ⟨hServer.code, hServer.address, hServer.owner,
        hServer.clients⟩
    groups := fun _ hGroup =>
      absurd hGroup List.not_mem_nil }

theorem Generator.exists_valid_smallWith
    {now : Instant}
    {classes : List MemberClass}
    (hNow : now.IsPlain)
    (hDeclares :
      (Registry.smallWith classes).DeclaresClasses) :
    ∃ d, v2.generate .sharedParameters now
        (Registry.smallWith classes) = .ok d ∧
      v2.validate .sharedParameters d = .ok () := by
  have hSeconds : (Registry.smallWith
      classes).globalSettings.ocspFreshnessSeconds ≠ 0 := by
    simp [Registry.smallWith, Registry.small,
      GlobalSettings.initial]
  exact exists_valid_sharedV2 hNow hSeconds
    (Registry.isSharable_smallWith classes) hDeclares

/- The small registry with two classes, in either order. -/
def Registry.smallForward : Registry :=
  smallWith [⟨"COM", "Commercial"⟩, ⟨"GOV", "Government"⟩]

def Registry.smallBackward : Registry :=
  smallWith [⟨"GOV", "Government"⟩, ⟨"COM", "Commercial"⟩]

------------------------------------------------------------
-- Generators
------------------------------------------------------------

namespace Generator

variable {g : Generator} {kind : DocumentKind}
variable {now : Instant} {r r' : Registry}

theorem generate_ofContent_congr
    {version : Version}
    {content : DocumentKind → Registry →
      Except GenerationFault Json.Members}
    (hContent : content kind r = content kind r') :
    (ofContent version content).generate kind now r =
      (ofContent version content).generate kind now r' := by
  simp only [ofContent, hContent]

/-
  What is valid tells the entries of every list apart, so that
  there is one document for all of their orders.
-/
theorem generate_eq_of_reorders
    {d : Document kind}
    (hBuiltin : g = .v1 ∨ g = .v2)
    (hKind : kind = .privateParameters → g = .v2)
    (hSame : r.Reorders r')
    (hNow : now.IsPlain)
    (hGenerate : g.generate kind now r = .ok d)
    (hValid : g.validate kind d = .ok ()) :
    (∃ digest, d.digest = .ok digest) ∧
      ∀ later, g.generate kind later r =
        g.generate kind later r' := by
  cases kind with
  | privateParameters =>
      cases hKind rfl
      have hJudged := valid_generated_privateV2 hNow hGenerate
      have hServers := (hJudged.2.mp hValid).2
      exact ⟨hJudged.1, fun _ => generate_ofContent_congr
        (Content.privateV2_eq_of_reorders hSame hServers)⟩
  | sharedParameters =>
      rcases hBuiltin with rfl | rfl
      · have hJudged := valid_generated_sharedV1 hNow hGenerate
        have hSharable := hJudged.2.mp hValid
        exact ⟨hJudged.1, fun _ => generate_ofContent_congr
          (Content.shared_eq_of_reorders hSame hSharable)⟩
      · have hJudged := valid_generated_sharedV2 hNow hGenerate
        rcases hJudged.2.mp hValid with
          ⟨hSharable, hDeclares⟩
        exact ⟨hJudged.1, fun _ => generate_ofContent_congr
          (Content.sharedV2_eq_of_reorders hSame hSharable
            hDeclares)⟩

/-
  Shared parameters of each version, and private parameters
  of the second one, do not show the order of registration:
  if those of a registry are valid, then a registry that
  differs in the order of its entries has parameters at any
  instant, with the same content and digest. At an instant
  that documents can show they are valid too.
-/
theorem order_hidden
    {later : Instant}
    {d : Document kind}
    (hBuiltin : g = .v1 ∨ g = .v2)
    (hKind : kind = .privateParameters → g = .v2)
    (hSame : r.Reorders r')
    (hGenerate : g.generate kind now r = .ok d)
    (hValid : g.validate kind d = .ok ()) :
    ∃ e, g.generate kind later r' = .ok e ∧
      d.SameContent e ∧
      (∃ digest, d.digest = .ok digest ∧
        e.digest = .ok digest) ∧
      (later.IsPlain → g.validate kind e = .ok ()) := by
  -- At the start of 1970 validity says what the registry is.
  have hStart : Instant.IsPlain ⟨0, 0⟩ :=
    ⟨by decide, by decide⟩
  have hClock : g.HidesClock kind := hidesClock hBuiltin
  rcases hClock now r d hGenerate ⟨0, 0⟩ with ⟨first, hFirst⟩
  rcases generate_eq_of_reorders hBuiltin hKind hSame hStart
    hFirst.generated (hFirst.valid hStart hValid) with
    ⟨⟨digest, hDigest⟩, hEqual⟩
  rcases hClock now r d hGenerate later with ⟨e, hAgain⟩
  rw [hFirst.digest] at hDigest
  refine ⟨e, ?_, hAgain.content, ⟨digest, hDigest, ?_⟩, ?_⟩
  · rw [← hEqual later, hAgain.generated]
  · rw [hAgain.digest, hDigest]
  · intro hLater
    exact hAgain.valid hLater hValid

/-
  Two classes are registered in one order and in the other.
  The shared parameters of the start of 2025 and of the start
  of 2026 do not tell which.
-/
theorem order_hidden_small :
    Registry.smallForward ≠ Registry.smallBackward ∧
    Registry.smallForward.Reorders Registry.smallBackward ∧
    ∃ d e, v2.generate .sharedParameters ⟨1735689600, 0⟩
          Registry.smallForward = .ok d ∧
        v2.validate .sharedParameters d = .ok () ∧
        v2.generate .sharedParameters ⟨1767225600, 0⟩
          Registry.smallBackward = .ok e ∧
        d.SameContent e ∧
        v2.validate .sharedParameters e = .ok () := by
  have hNow : Instant.IsPlain ⟨1735689600, 0⟩ :=
    ⟨by decide, by decide⟩
  have hLater : Instant.IsPlain ⟨1767225600, 0⟩ :=
    ⟨by decide, by decide⟩
  have hSame : Registry.smallForward.Reorders .smallBackward :=
    { instanceIdentifier := rfl
      memberClasses := .swap _ _ _
      members := Reordered.refl Member.Reorders.refl _
      servers := Reordered.refl SecurityServer.Reorders.refl _
      authorities := .nil
      timestamping := rfl
      groups := Reordered.refl GlobalGroup.Reorders.refl _
      sources := List.forall₂_same.mpr fun s _ =>
        ConfigurationSource.Reorders.refl s
      management := rfl
      settings := rfl }
  have hDeclares : Registry.smallForward.DeclaresClasses :=
    { codes := by
        simp [Registry.smallForward, Registry.smallWith,
          Schema.IsCode]
      distinct := by decide
      declared := List.forall_mem_singleton.mpr (by decide)
      profiles := List.forall_mem_nil _ }
  rcases exists_valid_smallWith hNow hDeclares with
    ⟨d, hGenerate, hValid⟩
  rcases order_hidden (Or.inr rfl) (fun _ => rfl) hSame
    hGenerate hValid with ⟨e, hAgain, hContent, -, hPasses⟩
  exact ⟨by decide, hSame, d, e, hGenerate, hValid, hAgain,
    hContent, hPasses hLater⟩

end Generator

end Federation
