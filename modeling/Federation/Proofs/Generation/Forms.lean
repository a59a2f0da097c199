import Federation.Proofs.Generation.Documents
import Federation.Proofs.Schema.Acceptance

/-
  The parts of generated documents and the schemas of their
  places: which conditions on the registry the form of each
  part asks for.

  Main declarations:
    * `Schema.accepts_member_iff`
    * `Schema.accepts_securityServer_iff`
    * `Schema.accepts_operatorServer_iff`
    * `Schema.accepts_authorityParts_iff`
-/

namespace Federation

namespace Schema

/- A text is the address of a service. -/
def IsUrl (text : String) : Prop :=
  urlPattern.accepts text.toList = true

------------------------------------------------------------
-- Identifiers
------------------------------------------------------------

theorem accepts_memberId (m : MemberId) :
    Accepts memberId m.toJson := by
  refine (accepts_recordOf_iff_of_perm (.refl m.members)
    rfl (by simp [MemberId.members])).mpr ?_
  simp [memberParts, MemberId.members,
    accepts_code_of_isPart m.isClass,
    accepts_code_of_isPart m.isCode]

theorem accepts_clientId (c : ClientId) :
    Accepts clientId c.toJson := by
  have hClass := accepts_code_of_isPart c.member.isClass
  have hCode := accepts_code_of_isPart c.member.isCode
  unfold ClientId.toJson
  cases hSubsystem : c.subsystemCode with
  | none =>
      apply (accepts_record_iff_of_perm
        (.refl c.member.members)).mpr
      simp [memberParts, MemberId.members, AcceptsProperty,
        hClass, hCode]
  | some text =>
      have hText := accepts_code_of_isPart
        (c.isSubsystem text (by simp [hSubsystem]))
      apply (accepts_record_iff_of_perm (.refl _)).mpr
      simp [memberParts, MemberId.members, AcceptsProperty,
        hClass, hCode, hText, List.lookup_cons]

------------------------------------------------------------
-- Members
------------------------------------------------------------

theorem accepts_member_iff (m : Member) :
    Accepts member (Content.member m) ↔
      m.name ≠ "" ∧ ∀ text ∈ m.subsystems, IsCode text := by
  rw [member, Content.member,
    accepts_recordOf_iff rfl (by simp [MemberId.members])]
  simp [memberParts, MemberId.members, setOf,
    accepts_code_of_isPart m.id.isClass,
    accepts_code_of_isPart m.id.isCode, accepts_name_iff,
    accepts_strings_iff (Content.sortTexts_nodup _),
    accepts_code_iff]

theorem accepts_memberClass_iff (c : MemberClass) :
    Accepts
        (recordOf [("code", code), ("description", anyText)])
        (Content.memberClass c) ↔
      IsCode c.code := by
  rw [Content.memberClass, accepts_recordOf_iff rfl (by simp)]
  simp [accepts_code_iff, accepts_anyText]

------------------------------------------------------------
-- Security Servers
------------------------------------------------------------

/- Hashes always have the form of hashes, and none is repeated. -/
theorem accepts_certHashes_iff
    {minItems : Nat}
    (s : SecurityServer) :
    Accepts (.list hash minItems true)
        (Json.ofList .string (Content.certHashes s)) ↔
      minItems ≤ (Content.certHashes s).length := by
  rw [Content.certHashes,
    accepts_strings_iff (Content.sortTexts_nodup _)]
  refine and_iff_right fun text hText => ?_
  rw [Content.mem_sortTexts, List.mem_map] at hText
  rcases hText with ⟨c, -, rfl⟩
  exact accepts_hash c.bytes

theorem accepts_securityServer_iff (s : SecurityServer) :
    Accepts securityServer (Content.securityServer s) ↔
      IsCode s.serverCode ∧ s.address ≠ "" := by
  rw [securityServer, Content.securityServer,
    accepts_recordOf_iff rfl
      (by simp [Content.serverParts])]
  simp [Content.serverParts, accepts_memberId,
    accepts_code_iff, accepts_name_iff, setOf,
    accepts_certHashes_iff, accepts_listOf_iff,
    accepts_clientId]

theorem accepts_operatorServer_iff (s : SecurityServer) :
    Accepts operatorServer (Content.operatorServer s) ↔
      IsCode s.serverCode ∧ s.address ≠ "" ∧
        s.authCerts ≠ [] := by
  have hLength : 1 ≤ (Content.certHashes s).length ↔
      s.authCerts ≠ [] := by
    rw [Nat.one_le_iff_ne_zero, ne_eq, ne_eq, not_iff_not,
      List.length_eq_zero_iff, Content.certHashes,
      List.eq_nil_iff_forall_not_mem]
    simp [List.eq_nil_iff_forall_not_mem]
  rw [operatorServer, Content.operatorServer,
    accepts_recordOf_iff rfl
      (by simp [Content.serverParts])]
  simp [Content.serverParts, accepts_memberId,
    accepts_code_iff, accepts_name_iff,
    accepts_certHashes_iff, hLength]

------------------------------------------------------------
-- Groups
------------------------------------------------------------

theorem accepts_globalGroup_iff (g : GlobalGroup) :
    Accepts globalGroup (Content.globalGroup g) ↔
      IsCode g.groupCode := by
  rw [globalGroup, Content.globalGroup,
    accepts_recordOf_iff rfl (by simp)]
  simp [accepts_code_iff, accepts_anyText,
    accepts_listOf_iff, accepts_clientId]

------------------------------------------------------------
-- Trust Services
------------------------------------------------------------

theorem accepts_ocspResponder_iff (o : OcspResponder) :
    Accepts ocspResponder o.toJson ↔
      IsUrl o.url ∧ ∀ c ∈ o.cert, c.bytes ≠ [] := by
  unfold OcspResponder.toJson Json.ofMembers
  cases hCert : o.cert with
  | none =>
      rw [ocspResponder, recordWith,
        accepts_record_iff_of_perm (Table.ofList_perm
          (by simp))]
      simp [AcceptsProperty, accepts_url_iff, IsUrl]
  | some c =>
      rw [ocspResponder, recordWith,
        accepts_record_iff_of_perm (Table.ofList_perm
          (by simp))]
      simp [AcceptsProperty, accepts_url_iff, IsUrl,
        accepts_certificate_iff]

theorem accepts_caInfo_iff (c : CaInfo) :
    Accepts caInfo (Content.caInfo c) ↔
      c.cert.bytes ≠ [] ∧
        ∀ o ∈ c.ocsp, IsUrl o.url ∧
          ∀ cert ∈ o.cert, cert.bytes ≠ [] := by
  rw [caInfo, Content.caInfo,
    accepts_recordOf_iff rfl (by simp)]
  simp [accepts_certificate_iff, accepts_listOf_iff,
    accepts_ocspResponder_iff, Content.sortByText]

/- What the form of an authority asks for in every version. -/
def AuthorityForm (a : CertificationAuthority) : Prop :=
  a.name ≠ "" ∧
    ∀ info ∈ a.topCa :: a.intermediateCas,
      info.cert.bytes ≠ [] ∧
        ∀ o ∈ info.ocsp, IsUrl o.url ∧
          ∀ cert ∈ o.cert, cert.bytes ≠ []

theorem accepts_authority_iff (a : CertificationAuthority) :
    Accepts (recordOf authorityV1) (Content.authority a) ↔
      AuthorityForm a := by
  rw [Content.authority, accepts_recordOf_iff rfl
    (by simp [Content.authorityParts])]
  simp [authorityV1, Content.authorityParts,
    accepts_name_iff, Accepts, accepts_caInfo_iff,
    accepts_listOf_iff, AuthorityForm]

theorem accepts_authorityWithProfile_iff
    (a : CertificationAuthority) :
    Accepts (recordOf authorityV2)
        (Content.authorityWithProfile a) ↔
      AuthorityForm a ∧
        ∀ profile ∈ a.certificateProfileInfo,
          profile ≠ "" := by
  have hProfile :
      a.certificateProfileInfo.getD Content.defaultProfile ≠
          "" ↔
        ∀ profile ∈ a.certificateProfileInfo,
          profile ≠ "" := by
    cases a.certificateProfileInfo with
    | none => simp [Content.defaultProfile]
    | some profile => simp
  rw [Content.authorityWithProfile, accepts_recordOf_iff rfl
    (by simp [Content.authorityParts])]
  simp [authorityV2, authorityV1, Content.authorityParts,
    accepts_name_iff, Accepts, accepts_caInfo_iff,
    accepts_listOf_iff, AuthorityForm, and_assoc, hProfile]

theorem accepts_timestampingAuthority_iff
    (t : TimestampingAuthority) :
    Accepts timestampingAuthority t.toJson ↔
      t.name ≠ "" ∧ IsUrl t.url ∧ t.cert.bytes ≠ [] := by
  rw [timestampingAuthority, TimestampingAuthority.toJson,
    accepts_recordOf_iff rfl (by simp)]
  simp [accepts_name_iff, accepts_url_iff,
    accepts_certificate_iff, IsUrl]

end Schema

end Federation
