import Federation.Proofs.Rules.Findings
import Federation.Proofs.Rules.Items
import Federation.Validation

/-
  The places of certificates in documents, and what the rules
  say about them: exactly the fields whose text is not the
  base64 of a certificate are told of.

  Main declarations:
    * `Rules.IsCertificateField`
    * `Rules.IsFailing`
    * `Rules.mem_findings_iff_of_certificate`
-/

namespace Federation

/- A fault that the rule for certificates tells of. -/
def RuleFault.IsOfCertificate (fault : RuleFault) : Prop :=
  fault = .notBase64 ∨ fault = .notCertificate

namespace Rules

------------------------------------------------------------
-- Failing Texts
------------------------------------------------------------

/- Why a text is not the base64 of a certificate. -/
inductive IsFailing (encoded : String) : RuleFault → Prop where
| notBase64 {refusal : Refusal} :
    CertificateBytes.ofBase64 encoded = .error refusal →
    IsFailing encoded .notBase64
| notCertificate {c : CertificateBytes} :
    CertificateBytes.ofBase64 encoded = .ok c →
    ¬ c.IsDer →
    IsFailing encoded .notCertificate

theorem IsFailing.isOfCertificate
    {encoded : String}
    {fault : RuleFault}
    (hFailing : IsFailing encoded fault) :
    fault.IsOfCertificate := by
  cases hFailing
  · exact Or.inl rfl
  · exact Or.inr rfl

/- The text of a part of a value is not one of a certificate. -/
def HasFailing
    (v : Json)
    (p : Pointer)
    (fault : RuleFault) : Prop :=
  ∃ encoded, p.resolve? v = some (.string encoded) ∧
    IsFailing encoded fault

theorem hasFailing_part_iff
    {key : String}
    {v : Json}
    {p : Pointer}
    {fault : RuleFault} :
    HasFailing (part key v) p fault ↔
      HasFailing v (.key key :: p) fault := by
  have hNull : ∀ encoded : String,
      p.resolve? .null ≠ some (.string encoded) := by
    cases p with
    | nil => simp
    | cons step p =>
        cases step <;>
          simp [Pointer.resolve?_cons, Pointer.step?,
            Json.get?, Json.asArray?]
  unfold HasFailing part
  rw [Pointer.resolve?_cons, Pointer.step?]
  cases v.get? key with
  | some w => simp
  | none => simp [hNull]

theorem hasFailing_item_iff
    {key : String}
    {v : Json}
    {i : Nat}
    {p : Pointer}
    {fault : RuleFault} :
    HasFailing v (.key key :: .index i :: p) fault ↔
      ∃ x, (items key v)[i]? = some x ∧
        HasFailing x p fault := by
  unfold HasFailing
  simp only [resolve?_item_of_key]
  grind

------------------------------------------------------------
-- Rules for Certificates
------------------------------------------------------------

theorem mem_certificate_iff
    {p place : Pointer}
    {value : Option Json}
    {fault : RuleFault} :
    (p, fault) ∈ certificate place value ↔
      p = place ∧ ∃ encoded, value = some (.string encoded) ∧
        IsFailing encoded fault := by
  unfold certificate
  split
  · rename_i encoded
    cases hRead : CertificateBytes.ofBase64 encoded with
    | error refusal =>
        constructor
        · intro hFound
          cases List.mem_singleton.mp hFound
          exact ⟨rfl, encoded, rfl, .notBase64 hRead⟩
        · rintro ⟨rfl, _, hValue, hFailing⟩
          cases hValue
          cases hFailing with
          | notBase64 hError => exact List.mem_singleton_self _
          | notCertificate hOk hDer =>
              rw [hRead] at hOk
              cases hOk
    | ok c =>
        have hNone : (Certificate.ofDer? c.bytes).isNone =
            true ↔ ¬ c.IsDer := by
          simp [CertificateBytes.IsDer]
        simp only [mem_whenever_iff, hNone, Prod.mk.injEq]
        constructor
        · rintro ⟨hDer, rfl, rfl⟩
          exact ⟨rfl, encoded, rfl, .notCertificate hRead hDer⟩
        · rintro ⟨rfl, _, hValue, hFailing⟩
          cases hValue
          cases hFailing with
          | notBase64 hError =>
              rw [hRead] at hError
              cases hError
          | notCertificate hOk hDer =>
              rw [hRead] at hOk
              cases hOk
              exact ⟨hDer, rfl, rfl⟩
  · rename_i hNoText
    simp only [List.not_mem_nil, false_iff, not_and]
    rintro - ⟨encoded, rfl, -⟩
    exact hNoText encoded rfl

theorem mem_certificate_of_key_iff
    {p place : Pointer}
    {key : String}
    {v : Json}
    {fault : RuleFault} :
    (p, fault) ∈ certificate place (v.get? key) ↔
      p = place ∧ HasFailing v [.key key] fault := by
  rw [mem_certificate_iff, HasFailing, Pointer.resolve?_single,
    Pointer.step?]

/-
  A rule that tells of some fields of every item tells of the
  same fields of the items in the list of a value.
-/
theorem mem_overItems_of_fields
    {rule : List Json → Nat → Json → List Finding}
    {place p : Pointer}
    {IsField : Pointer → Prop}
    {key : String}
    {v : Json}
    {fault : RuleFault}
    (hRule : ∀ earlier i x, (p, fault) ∈ rule earlier i x ↔
      ∃ q, IsField q ∧ p = place.index i ++ q ∧
        HasFailing x q fault) :
    (p, fault) ∈ overItems rule (items key v) ↔
      ∃ i q, IsField q ∧ p = place.index i ++ q ∧
        HasFailing v (.key key :: .index i :: q) fault := by
  simp only [mem_overItems_iff, hRule, hasFailing_item_iff]
  grind

------------------------------------------------------------
-- Fields of Shared Parameters
------------------------------------------------------------

/- The certificates of an authority and of its responders. -/
inductive IsAuthorityField : Pointer → Prop where
| own : IsAuthorityField [.key "cert"]
| responder (i : Nat) :
    IsAuthorityField [.key "ocsp", .index i, .key "cert"]

/- The certificates below an approved authority. -/
inductive IsApprovedField : Pointer → Prop where
| top {q : Pointer} :
    IsAuthorityField q →
    IsApprovedField (.key "topCA" :: q)
| intermediate (k : Nat) {q : Pointer} :
    IsAuthorityField q →
    IsApprovedField (.key "intermediateCAs" :: .index k :: q)

theorem mem_authorityCertificates_iff
    {p place : Pointer}
    {v : Json}
    {fault : RuleFault} :
    (p, fault) ∈ authorityCertificates place v ↔
      ∃ q, IsAuthorityField q ∧ p = place ++ q ∧
        HasFailing v q fault := by
  have hResponder : ∀ (_ : List Json) (i : Nat) (x : Json),
      (p, fault) ∈
          certificate
            (((place.key "ocsp").index i).key "cert")
            (x.get? "cert") ↔
        ∃ q, q = [.key "cert"] ∧
          p = (place.key "ocsp").index i ++ q ∧
          HasFailing x q fault := by
    simp [mem_certificate_of_key_iff, Pointer.key]
  rw [authorityCertificates, List.mem_append,
    mem_certificate_of_key_iff,
    mem_overItems_of_fields hResponder]
  constructor
  · rintro (⟨rfl, hFailing⟩ | ⟨i, q, rfl, rfl, hFailing⟩)
    · exact ⟨_, .own, rfl, hFailing⟩
    · exact ⟨_, .responder i,
        by simp [Pointer.key, Pointer.index], hFailing⟩
  · rintro ⟨q, hField, rfl, hFailing⟩
    cases hField with
    | own => exact Or.inl ⟨rfl, hFailing⟩
    | responder i =>
        exact Or.inr ⟨i, _, rfl,
          by simp [Pointer.key, Pointer.index], hFailing⟩

theorem mem_authority_iff_of_certificate
    {p : Pointer}
    {earlier : List Json}
    {i : Nat}
    {v : Json}
    {fault : RuleFault}
    (hFault : fault.IsOfCertificate) :
    (p, fault) ∈ authority earlier i v ↔
      ∃ q, IsApprovedField q ∧
        p = (at_ "approvedCAs").index i ++ q ∧
        HasFailing v q fault := by
  have hName : ∀ name, fault ≠ .repeatedAuthority name := by
    rcases hFault with rfl | rfl <;> simp
  have hInfo : ∀ (_ : List Json) (k : Nat) (x : Json),
      (p, fault) ∈
          authorityCertificates
            ((((at_ "approvedCAs").index i).key
              "intermediateCAs").index k) x ↔
        ∃ q, IsAuthorityField q ∧
          p = (((at_ "approvedCAs").index i).key
            "intermediateCAs").index k ++ q ∧
          HasFailing x q fault :=
    fun _ _ _ => mem_authorityCertificates_iff
  simp only [authority, List.mem_append, mem_whenever_iff,
    Prod.mk.injEq, hName, and_false, false_or,
    mem_authorityCertificates_iff, hasFailing_part_iff,
    mem_overItems_of_fields hInfo]
  constructor
  · rintro (⟨q, hField, rfl, hFailing⟩ |
      ⟨k, q, hField, rfl, hFailing⟩)
    · exact ⟨_, .top hField, by simp [Pointer.key], hFailing⟩
    · exact ⟨_, .intermediate k hField,
        by simp [Pointer.key, Pointer.index], hFailing⟩
  · rintro ⟨q, hField, rfl, hFailing⟩
    cases hField with
    | top hField =>
        exact Or.inl ⟨_, hField, by simp [Pointer.key],
          hFailing⟩
    | intermediate k hField =>
        exact Or.inr ⟨k, _, hField,
          by simp [Pointer.key, Pointer.index], hFailing⟩

------------------------------------------------------------
-- Fields of Documents
------------------------------------------------------------

/- The certificates of a source of configuration. -/
inductive IsSourceField : Version → Pointer → Prop where
| only : IsSourceField .v1 [.key "verificationCert"]
| listed {version : Version} (j : Nat) :
    version ≠ .v1 →
    IsSourceField version
      [.key "verificationCerts", .index j]

/- The places of certificates in the documents of a version. -/
inductive IsCertificateField :
    DocumentKind → Version → Pointer → Prop where
| approved {version : Version} (i : Nat) {q : Pointer} :
    IsApprovedField q →
    IsCertificateField .sharedParameters version
      (.key "approvedCAs" :: .index i :: q)
| timestamping {version : Version} (i : Nat) :
    IsCertificateField .sharedParameters version
      [.key "approvedTSAs", .index i, .key "cert"]
| management {version : Version} :
    IsCertificateField .privateParameters version
      [.key "managementService", .key "authCertRegServiceCert"]
| source {version : Version} (i : Nat) {q : Pointer} :
    IsSourceField version q →
    IsCertificateField .privateParameters version
      (.key "configurationAnchor" :: .key "sources" ::
        .index i :: q)

------------------------------------------------------------
-- Rules for References
------------------------------------------------------------

/- What the rules of references tell of is no certificate. -/
def TellsNoCertificate (found : List Finding) : Prop :=
  ∀ f ∈ found, ¬ f.2.IsOfCertificate

theorem TellsNoCertificate.append
    {found others : List Finding}
    (hFound : TellsNoCertificate found)
    (hOthers : TellsNoCertificate others) :
    TellsNoCertificate (found ++ others) :=
  List.forall_mem_append.mpr ⟨hFound, hOthers⟩

theorem TellsNoCertificate.whenever
    {condition : Bool}
    {place : Pointer}
    {fault : RuleFault}
    (hFault : ¬ fault.IsOfCertificate) :
    TellsNoCertificate (whenever condition place fault) := by
  intro f hFound
  rw [(mem_whenever_iff.mp hFound).2]
  exact hFault

theorem TellsNoCertificate.overItems
    {α : Type}
    {rule : List α → Nat → α → List Finding}
    {xs : List α}
    (hRule : ∀ earlier i x,
      TellsNoCertificate (rule earlier i x)) :
    TellsNoCertificate (overItems rule xs) := by
  intro f hFound
  rcases mem_overItems_iff.mp hFound with ⟨i, x, -, hItem⟩
  exact hRule _ i x f hItem

theorem tellsNoCertificate_classes
    (version : Version)
    (document : Json) :
    TellsNoCertificate (classes version document) := by
  unfold classes
  split
  · exact .overItems fun earlier i v =>
      .whenever (by simp [RuleFault.IsOfCertificate])
  · exact List.forall_mem_nil _

theorem tellsNoCertificate_member
    (declared : Option (List String))
    (earlier : List Json)
    (i : Nat)
    (v : Json) :
    TellsNoCertificate (member declared earlier i v) :=
  .append (.whenever (by simp [RuleFault.IsOfCertificate]))
    (.whenever (by simp [RuleFault.IsOfCertificate]))

theorem tellsNoCertificate_clients
    (members : List Json)
    (place : Pointer)
    (values : List Json) :
    TellsNoCertificate (clients members place values) := by
  refine .overItems fun earlier i v => ?_
  rintro ⟨p, fault⟩ hFound
  rcases (mem_client_iff.mp hFound).2 with
    ⟨-, rfl⟩ | ⟨entry, code, -, -, -, rfl⟩ <;>
    simp [RuleFault.IsOfCertificate]

theorem tellsNoCertificate_hashes
    (servers : List Json)
    (place : Pointer)
    (values : List Json) :
    TellsNoCertificate
      (overItems (certificateHash servers place) values) := by
  refine .overItems fun earlier j hash => ?_
  rintro ⟨p, fault⟩ hFound
  rcases mem_certificateHash_iff.mp hFound with
    ⟨-, -, -, k, -, rfl⟩
  simp [RuleFault.IsOfCertificate]

theorem tellsNoCertificate_securityServer
    (members earlier : List Json)
    (i : Nat)
    (server : Json) :
    TellsNoCertificate
      (securityServer members earlier i server) := by
  refine .append (.append (.append ?_ ?_) ?_) ?_
  · exact .whenever (by simp [RuleFault.IsOfCertificate])
  · exact .whenever (by simp [RuleFault.IsOfCertificate])
  · exact tellsNoCertificate_hashes _ _ _
  · exact tellsNoCertificate_clients _ _ _

theorem tellsNoCertificate_globalGroup
    (members earlier : List Json)
    (i : Nat)
    (group : Json) :
    TellsNoCertificate (globalGroup members earlier i group) :=
  .append (.whenever (by simp [RuleFault.IsOfCertificate]))
    (tellsNoCertificate_clients _ _ _)

theorem tellsNoCertificate_operatorParts (document : Json) :
    TellsNoCertificate (operatorParts document) := by
  refine .append (.overItems fun earlier i server => ?_) ?_
  · exact .append
      (.whenever (by simp [RuleFault.IsOfCertificate]))
      (.whenever (by simp [RuleFault.IsOfCertificate]))
  · exact .append
      (.whenever (by simp [RuleFault.IsOfCertificate]))
      (.whenever (by simp [RuleFault.IsOfCertificate]))

------------------------------------------------------------
-- Certificates in Documents
------------------------------------------------------------

theorem mem_shared_iff_of_certificate
    {version : Version}
    {document : Json}
    {p : Pointer}
    {fault : RuleFault}
    (hFault : fault.IsOfCertificate) :
    (p, fault) ∈ sharedParameters version document ↔
      IsCertificateField .sharedParameters version p ∧
        HasFailing document p fault := by
  have hClasses :
      (p, fault) ∉ classes version document :=
    fun hFound =>
      tellsNoCertificate_classes _ _ _ hFound hFault
  have hMembers : ∀ declared members,
      (p, fault) ∉ overItems (member declared) members :=
    fun _ _ hFound => TellsNoCertificate.overItems
      (tellsNoCertificate_member _) _ hFound hFault
  have hServers : ∀ members servers,
      (p, fault) ∉ overItems (securityServer members) servers :=
    fun _ _ hFound => TellsNoCertificate.overItems
      (tellsNoCertificate_securityServer _) _ hFound hFault
  have hGroups : ∀ members groups,
      (p, fault) ∉ overItems (globalGroup members) groups :=
    fun _ _ hFound => TellsNoCertificate.overItems
      (tellsNoCertificate_globalGroup _) _ hFound hFault
  have hTimestamping : ∀ (_ : List Json) (i : Nat) (x : Json),
      (p, fault) ∈ timestamping i x ↔
        ∃ q, q = [.key "cert"] ∧
          p = (at_ "approvedTSAs").index i ++ q ∧
          HasFailing x q fault := by
    simp [timestamping, mem_certificate_of_key_iff,
      Pointer.key]
  simp only [sharedParameters, List.mem_append, hClasses,
    hMembers, hServers, hGroups, false_or,
    mem_overItems_of_fields fun _ _ _ =>
      mem_authority_iff_of_certificate hFault,
    mem_overItems_of_fields hTimestamping]
  constructor
  · rintro (⟨i, q, hField, rfl, hFailing⟩ |
      ⟨i, q, rfl, rfl, hFailing⟩)
    · exact ⟨.approved i hField, hFailing⟩
    · exact ⟨.timestamping i, hFailing⟩
  · rintro ⟨hField, hFailing⟩
    cases hField with
    | approved i hField =>
        exact Or.inl ⟨i, _, hField, rfl, hFailing⟩
    | timestamping i =>
        exact Or.inr ⟨i, _, rfl, rfl, hFailing⟩

theorem mem_certificates_iff
    {p place : Pointer}
    {key : String}
    {v : Json}
    {fault : RuleFault} :
    (p, fault) ∈ certificates place (items key v) ↔
      ∃ j, p = place.index j ∧
        HasFailing v [.key key, .index j] fault := by
  have hItem : ∀ (_ : List Json) (i : Nat) (x : Json),
      (p, fault) ∈ certificate (place.index i) (some x) ↔
        ∃ q, q = [] ∧ p = place.index i ++ q ∧
          HasFailing x q fault := by
    simp [mem_certificate_iff, HasFailing]
  rw [certificates, mem_overItems_of_fields hItem]
  simp

theorem mem_source_iff
    {version : Version}
    {p place : Pointer}
    {v : Json}
    {fault : RuleFault} :
    (p, fault) ∈ source version place v ↔
      ∃ q, IsSourceField version q ∧ p = place ++ q ∧
        HasFailing v q fault := by
  unfold source
  split
  · rename_i hFirst
    subst hFirst
    rw [mem_certificate_of_key_iff]
    constructor
    · rintro ⟨rfl, hFailing⟩
      exact ⟨_, .only, rfl, hFailing⟩
    · rintro ⟨q, hField, rfl, hFailing⟩
      cases hField with
      | only => exact ⟨rfl, hFailing⟩
      | listed j hVersion => exact absurd rfl hVersion
  · rename_i hVersion
    rw [mem_certificates_iff]
    constructor
    · rintro ⟨j, rfl, hFailing⟩
      exact ⟨_, .listed j hVersion,
        by simp [Pointer.key, Pointer.index], hFailing⟩
    · rintro ⟨q, hField, rfl, hFailing⟩
      cases hField with
      | only => exact absurd rfl hVersion
      | listed j hVersion =>
          exact ⟨j, by simp [Pointer.key, Pointer.index],
            hFailing⟩

/- What the rules for certificates find in private parameters. -/
def privateCertificates
    (version : Version)
    (document : Json) : List Finding :=
  sources version document ++
    certificate
      ((at_ "managementService").key "authCertRegServiceCert")
      ((part "managementService" document).get?
        "authCertRegServiceCert")

theorem privateParameters_eq
    (version : Version)
    (document : Json) :
    privateParameters version document =
      privateCertificates version document ++
        if Version.v2 ≤ version then operatorParts document
        else [] :=
  rfl

theorem mem_privateCertificates_iff
    {version : Version}
    {document : Json}
    {p : Pointer}
    {fault : RuleFault} :
    (p, fault) ∈ privateCertificates version document ↔
      IsCertificateField .privateParameters version p ∧
        HasFailing document p fault := by
  have hSource : ∀ (_ : List Json) (i : Nat) (x : Json),
      (p, fault) ∈ source version
          (((at_ "configurationAnchor").key "sources").index i)
          x ↔
        ∃ q, IsSourceField version q ∧
          p = ((at_ "configurationAnchor").key "sources").index
            i ++ q ∧
          HasFailing x q fault :=
    fun _ _ _ => mem_source_iff
  simp only [privateCertificates, sources, List.mem_append,
    mem_overItems_of_fields hSource,
    mem_certificate_of_key_iff, hasFailing_part_iff]
  constructor
  · rintro (⟨i, q, hField, rfl, hFailing⟩ | ⟨rfl, hFailing⟩)
    · exact ⟨.source i hField, hFailing⟩
    · exact ⟨.management, hFailing⟩
  · rintro ⟨hField, hFailing⟩
    cases hField with
    | source i hField =>
        exact Or.inl ⟨i, _, hField, rfl, hFailing⟩
    | management => exact Or.inr ⟨rfl, hFailing⟩

theorem mem_private_iff_of_certificate
    {version : Version}
    {document : Json}
    {p : Pointer}
    {fault : RuleFault}
    (hFault : fault.IsOfCertificate) :
    (p, fault) ∈ privateParameters version document ↔
      IsCertificateField .privateParameters version p ∧
        HasFailing document p fault := by
  have hOperator :
      (p, fault) ∉
        if Version.v2 ≤ version then operatorParts document
        else [] := by
    split
    · exact fun hFound =>
        tellsNoCertificate_operatorParts _ _ hFound hFault
    · exact List.not_mem_nil
  rw [privateParameters_eq, List.mem_append,
    or_iff_left hOperator, mem_privateCertificates_iff]

/-
  The rules tell of exactly the fields of certificates whose
  text is not the base64 of one.
-/
theorem mem_findings_iff_of_certificate
    {kind : DocumentKind}
    {version : Version}
    {document : Json}
    {p : Pointer}
    {fault : RuleFault}
    (hFault : fault.IsOfCertificate) :
    (p, fault) ∈ findings kind version document ↔
      IsCertificateField kind version p ∧
        HasFailing document p fault := by
  cases kind with
  | sharedParameters =>
      exact mem_shared_iff_of_certificate hFault
  | privateParameters =>
      exact mem_private_iff_of_certificate hFault

end Rules

end Federation
