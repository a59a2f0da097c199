import Federation.Proofs.Canonical
import Federation.Proofs.Generation.Documents
import Federation.Proofs.Json.Normal

/-
  The content of the library's own documents is exact: made
  of strings, truth values and small numbers, with the
  members of every object in order. Such content can be
  digested, and it is read back as it is written.

  Main declarations:
    * `Json.IsExact`
    * `Content.isExact_privatePartsV1`
    * `Content.isExact_privatePartsV2`
    * `Content.isExact_sharedParts`
-/

namespace Federation

------------------------------------------------------------
-- Exact Values
------------------------------------------------------------

namespace Json

/- A normal value without a float. -/
structure IsExact (value : Json) : Prop where
  normal : value.IsNormal
  noFloat : Canonical.HasNoFloat value

@[simp] theorem isExact_null : IsExact .null :=
  ⟨.null, Canonical.hasNoFloat_null⟩

@[simp] theorem isExact_bool (b : Bool) : IsExact (.bool b) :=
  ⟨.bool b, Canonical.hasNoFloat_bool b⟩

@[simp] theorem isExact_string (s : String) :
    IsExact (.string s) :=
  ⟨.string s, Canonical.hasNoFloat_string s⟩

@[simp] theorem isExact_seconds (seconds : UInt64) :
    IsExact (.ofNat seconds.toNat) := by
  have hBounded := seconds.toNat_lt
  refine ⟨.integer ?_, Canonical.hasNoFloat_ofNat _⟩
  simp only [integerInRange, Bool.and_eq_true,
    decide_eq_true_eq]
  omega

theorem isExact_object
    {members : List (String × Json)}
    (hKeys : (members.map Prod.fst).Pairwise (· < ·))
    (hMembers : ∀ m ∈ members, m.2.IsExact) :
    IsExact (.object members) where
  normal := .object (Table.isOrdered_of_keys hKeys)
    fun m hMem => (hMembers m hMem).normal
  noFloat := (Canonical.hasNoFloat_object members).mpr
    fun m hMem => (hMembers m hMem).noFloat

theorem isExact_ofMembers
    {members : List (String × Json)}
    (hMembers : ∀ m ∈ members, m.2.IsExact) :
    IsExact (.ofMembers members) where
  normal := .object (Table.ofList_isOrdered members)
    fun m hMem =>
      (hMembers m (Table.mem_of_mem_ofList hMem)).normal
  noFloat := Canonical.hasNoFloat_ofMembers
    fun m hMem => (hMembers m hMem).noFloat

@[simp] theorem isExact_ofList
    {α : Type}
    {toJson : α → Json}
    {values : List α}
    (hValues : ∀ a ∈ values, (toJson a).IsExact) :
    IsExact (.ofList toJson values) where
  normal := by
    refine .array ?_
    intro item hMem
    rcases List.mem_map.mp hMem with ⟨a, hValue, rfl⟩
    exact (hValues a hValue).normal
  noFloat := Canonical.hasNoFloat_ofList
    fun a hMem => (hValues a hMem).noFloat

end Json

namespace Content

open Json (IsExact isExact_object isExact_ofMembers)

------------------------------------------------------------
-- Registered Parts
------------------------------------------------------------

@[simp] theorem isExact_certificate (c : CertificateBytes) :
    IsExact c.toJson :=
  Json.isExact_string _

@[simp] theorem isExact_memberId (m : MemberId) :
    IsExact m.toJson := by
  have hKeys :
      ["memberClass", "memberCode"].Pairwise (· < ·) := by
    decide
  refine isExact_object hKeys ?_
  simp [MemberId.members]

@[simp] theorem isExact_clientId (c : ClientId) :
    IsExact c.toJson := by
  rw [ClientId.toJson]
  cases c.subsystemCode with
  | none => exact isExact_memberId c.member
  | some code =>
      have hKeys : [ "memberClass", "memberCode",
          "subsystemCode" ].Pairwise (· < ·) := by
        decide
      refine isExact_object hKeys ?_
      simp [MemberId.members]

@[simp] theorem isExact_member (m : Member) :
    IsExact (member m) := by
  apply isExact_ofMembers
  simp [MemberId.members]

@[simp] theorem isExact_memberClass (c : MemberClass) :
    IsExact (memberClass c) := by
  apply isExact_ofMembers
  simp

theorem isExact_serverParts (s : SecurityServer) :
    ∀ part ∈ serverParts s, IsExact part.2 := by
  simp [serverParts]

@[simp] theorem isExact_securityServer (s : SecurityServer) :
    IsExact (securityServer s) := by
  apply isExact_ofMembers
  rw [List.forall_mem_append]
  exact ⟨isExact_serverParts s, by simp⟩

@[simp] theorem isExact_operatorServer (s : SecurityServer) :
    IsExact (operatorServer s) :=
  isExact_ofMembers (isExact_serverParts s)

@[simp] theorem isExact_globalGroup (g : GlobalGroup) :
    IsExact (globalGroup g) := by
  apply isExact_ofMembers
  simp

@[simp] theorem isExact_responder (o : OcspResponder) :
    IsExact o.toJson := by
  apply isExact_ofMembers
  cases o.cert <;> simp

@[simp] theorem isExact_caInfo (c : CaInfo) :
    IsExact (caInfo c) := by
  apply isExact_ofMembers
  simp

theorem isExact_authorityParts (a : CertificationAuthority) :
    ∀ part ∈ authorityParts a, IsExact part.2 := by
  simp [authorityParts]

theorem isExact_authority (a : CertificationAuthority) :
    IsExact (authority a) :=
  isExact_ofMembers (isExact_authorityParts a)

theorem isExact_authorityWithProfile
    (a : CertificationAuthority) :
    IsExact (authorityWithProfile a) := by
  apply isExact_ofMembers
  rw [List.forall_mem_append]
  exact ⟨isExact_authorityParts a, by simp⟩

@[simp] theorem isExact_timestampingAuthority
    (t : TimestampingAuthority) :
    IsExact t.toJson := by
  apply isExact_ofMembers
  simp

theorem isExact_memberClasses (r : Registry) :
    IsExact (memberClasses r) := by
  simp [memberClasses]

theorem isExact_managementParts (m : ManagementService) :
    ∀ part ∈ managementParts m, IsExact part.2 := by
  simp [managementParts]

theorem isExact_anchorJson
    {render : CertificateBytes → List CertificateBytes →
      String × Json}
    (hRender : ∀ cert certs, IsExact (render cert certs).2)
    (r : Registry) :
    IsExact (anchorJson render r) := by
  have hSources : IsExact
      (Json.ofList (fun entry => sourceJson render entry.1)
        (sortedSources r)) := by
    apply Json.isExact_ofList
    intro entry _
    rw [sourceJson]
    cases entry.1.verificationCerts with
    | nil => exact Json.isExact_null
    | cons cert certs =>
        apply isExact_ofMembers
        simp [hRender]
  exact isExact_ofMembers
    (List.forall_mem_singleton.mpr hSources)

------------------------------------------------------------
-- Contents
------------------------------------------------------------

theorem isExact_privatePartsV1 (r : Registry) :
    ∀ part ∈ privatePartsV1 r, IsExact part.2 := by
  have hAnchor : IsExact (anchorJson firstCert r) :=
    isExact_anchorJson (fun _ _ => Json.isExact_string _) r
  have hManagement := isExact_ofMembers
    (isExact_managementParts r.managementService)
  simp [privatePartsV1, hAnchor, hManagement]

theorem isExact_privatePartsV2
    (r : Registry)
    (code : String) :
    ∀ part ∈ privatePartsV2 r code, IsExact part.2 := by
  have hAnchor : IsExact (anchorJson allCerts r) := by
    apply isExact_anchorJson
    simp [allCerts]
  have hManagement : IsExact
      (.ofMembers
        (managementParts r.managementService ++
          [ ("managementRequestServiceServerCode",
              .string code) ])) := by
    apply isExact_ofMembers
    rw [List.forall_mem_append]
    exact ⟨isExact_managementParts _, by simp⟩
  simp [privatePartsV2, hAnchor, hManagement]

theorem isExact_sharedParts
    {render : CertificationAuthority → Json}
    {settings : List (String × Json)}
    (r : Registry)
    (hRender : ∀ a, IsExact (render a))
    (hSettings : ∀ part ∈ settings, IsExact part.2) :
    ∀ part ∈ sharedParts render settings r,
      IsExact part.2 := by
  have hGlobal : IsExact
      (.ofMembers
        (("ocspFreshnessSeconds",
          .ofNat
            r.globalSettings.ocspFreshnessSeconds.toNat)
          :: settings)) := by
    apply isExact_ofMembers
    rw [List.forall_mem_cons]
    exact ⟨Json.isExact_seconds _, hSettings⟩
  simp [sharedParts, authorities, timestamping, members,
    securityServers, globalGroups, hRender, hGlobal]

end Content

end Federation
