import Federation.Proofs.Generation.CertificateHashes
import Federation.Proofs.Generation.PrivateParameters
import Federation.Proofs.Generation.WellFormed
import Federation.Proofs.Rules.CertificateFields
import Federation.Proofs.Schema.Places

/-
  The gate of a registry and that of its documents: what
  passes the first keeps the schema of certificates, and the
  rules tell of it only if it is registered in textual form,
  which the second gate does not read.

  Main declarations:
    * `Registry.Holds`
    * `Registry.Renders`
    * `Registry.certificate_violations_iff`
-/

namespace Federation

------------------------------------------------------------
-- Registered Certificates
------------------------------------------------------------

namespace Registry

/- A certificate is among those of a registry. -/
def Holds
    (r : Registry)
    (c : CertificateBytes) : Prop :=
  ∃ place : Pointer, (place, c) ∈ r.certificates

end Registry

theorem Occurrence.exists_mem_inItems
    {α : Type}
    (place : Pointer)
    (occurrences : Pointer → α → List Occurrence)
    {items : List α}
    {item : α}
    {c : CertificateBytes}
    (hItem : item ∈ items)
    (hFound : ∀ inner : Pointer, ∃ found : Pointer,
      (found, c) ∈ occurrences inner item) :
    ∃ found : Pointer,
      (found, c) ∈ inItems place occurrences items := by
  rcases List.mem_iff_getElem?.mp hItem with ⟨i, hi⟩
  rcases hFound (place.index i) with ⟨found, hMem⟩
  exact ⟨found, mem_inItems place occurrences hi hMem⟩

/- A certificate of an authority, or of a responder of it. -/
def CaInfo.Shows
    (info : CaInfo)
    (c : CertificateBytes) : Prop :=
  c = info.cert ∨ ∃ o ∈ info.ocsp, c ∈ o.cert

theorem CaInfo.exists_mem_certificates
    {info : CaInfo}
    {c : CertificateBytes}
    (hShows : info.Shows c)
    (place : Pointer) :
    ∃ found : Pointer, (found, c) ∈ info.certificates place := by
  rcases hShows with rfl | ⟨o, hResponder, hCert⟩
  · exact ⟨_, List.mem_cons_self⟩
  · have hFound : ∀ inner : Pointer, ∃ found : Pointer,
        (found, c) ∈ o.certificates inner := by
      intro inner
      refine ⟨inner.key "cert", List.mem_map.mpr ⟨c, ?_, rfl⟩⟩
      exact Option.mem_toList.mpr hCert
    rcases Occurrence.exists_mem_inItems (place.key "ocsp")
      OcspResponder.certificates hResponder hFound with
      ⟨found, hMem⟩
    exact ⟨found, List.mem_cons_of_mem _ hMem⟩

namespace Registry

variable {r : Registry} {c : CertificateBytes}

theorem holds_of_source
    {s : ConfigurationSource}
    (hSource : s ∈ r.configurationSources)
    (hCert : c ∈ s.verificationCerts) :
    r.Holds c := by
  rcases Occurrence.exists_mem_inItems
      [.key "configurationSources"]
      (fun place (source : ConfigurationSource) =>
        Occurrence.inCerts place "verificationCerts"
          source.verificationCerts)
      hSource
      (fun inner => Occurrence.exists_mem_inItems
        (inner.key "verificationCerts") Occurrence.single hCert
        fun place => ⟨place, List.mem_singleton.mpr rfl⟩) with
    ⟨found, hMem⟩
  exact ⟨found, List.mem_append_left _ (List.mem_append_left _
    (List.mem_append_left _ (List.mem_append_left _ hMem)))⟩

theorem holds_management :
    r.Holds r.managementService.authCertRegServiceCert :=
  ⟨_, List.mem_append_left _ (List.mem_append_left _
    (List.mem_append_left _ (List.mem_append_right _
      (List.mem_singleton.mpr rfl))))⟩

theorem exists_mem_authority
    {a : CertificationAuthority}
    {info : CaInfo}
    (hInfo : info ∈ a.topCa :: a.intermediateCas)
    (hShows : info.Shows c)
    (place : Pointer) :
    ∃ found : Pointer, (found, c) ∈ a.certificates place := by
  rcases List.mem_cons.mp hInfo with rfl | hIntermediate
  · rcases CaInfo.exists_mem_certificates hShows
      (place.key "topCa") with ⟨found, hMem⟩
    exact ⟨found, List.mem_append_left _ hMem⟩
  · rcases Occurrence.exists_mem_inItems
      (place.key "intermediateCas") CaInfo.certificates
      hIntermediate (CaInfo.exists_mem_certificates hShows) with
      ⟨found, hMem⟩
    exact ⟨found, List.mem_append_right _ hMem⟩

theorem holds_of_authority
    {a : CertificationAuthority}
    {info : CaInfo}
    (hAuthority : a ∈ r.certificationAuthorities)
    (hInfo : info ∈ a.topCa :: a.intermediateCas)
    (hShows : info.Shows c) :
    r.Holds c := by
  rcases Occurrence.exists_mem_inItems
      [.key "certificationAuthorities"]
      CertificationAuthority.certificates hAuthority
      (exists_mem_authority hInfo hShows) with
    ⟨found, hMem⟩
  exact ⟨found, List.mem_append_left _
    (List.mem_append_right _ hMem)⟩

theorem holds_of_timestamping
    {t : TimestampingAuthority}
    (hAuthority : t ∈ r.timestampingAuthorities) :
    r.Holds t.cert := by
  rcases Occurrence.exists_mem_inItems
      [.key "timestampingAuthorities"]
      (fun place (authority : TimestampingAuthority) =>
        Occurrence.single (place.key "cert") authority.cert)
      hAuthority
      (fun inner => ⟨_, List.mem_singleton.mpr rfl⟩) with
    ⟨found, hMem⟩
  exact ⟨found, List.mem_append_right _ hMem⟩

end Registry

------------------------------------------------------------
-- Shown Certificates
------------------------------------------------------------

namespace Content

open Rules

theorem shown_of_isAuthorityField
    {info : CaInfo}
    {q : Pointer}
    {v : Json}
    (hField : IsAuthorityField q)
    (hPart : q.resolve? (caInfo info) = some v) :
    ∃ c, info.Shows c ∧ v = c.toJson := by
  cases hField with
  | own =>
      refine ⟨info.cert, Or.inl rfl, ?_⟩
      simpa [Pointer.step?, caInfo_get?, eq_comm] using hPart
  | responder i =>
      rcases resolve?_item_of_key.mp hPart with
        ⟨x, hItem, hCert⟩
      have hItems : items "ocsp" (caInfo info) =
          (sortByText OcspResponder.url info.ocsp).map
            OcspResponder.toJson := by
        simp [items, caInfo_get?, Json.ofList, Json.asArray?,
          List.lookup_cons]
      rw [hItems] at hItem
      rcases List.mem_map.mp (List.mem_of_getElem? hItem) with
        ⟨o, hResponder, rfl⟩
      rw [Pointer.resolve?_single, Pointer.step?,
        cert_ocspResponder] at hCert
      cases hFound : o.cert with
      | none => simp [hFound] at hCert
      | some c =>
          rw [sortByText, mem_sortBy] at hResponder
          refine ⟨c, Or.inr ⟨o, hResponder, hFound⟩, ?_⟩
          simpa [hFound, eq_comm] using hCert

theorem shown_of_isApprovedField
    {render : CertificationAuthority → Json}
    {a : CertificationAuthority}
    {q : Pointer}
    {v : Json}
    (hShows : ShowsAuthority render)
    (hField : IsApprovedField q)
    (hPart : q.resolve? (render a) = some v) :
    ∃ info ∈ a.topCa :: a.intermediateCas,
      ∃ c, info.Shows c ∧ v = c.toJson := by
  cases hField with
  | top hField =>
      have hInner := resolve?_part hPart
      rw [hShows.topCa] at hInner
      exact ⟨a.topCa, List.mem_cons_self,
        shown_of_isAuthorityField hField hInner⟩
  | intermediate k hField =>
      rcases resolve?_item_of_key.mp hPart with
        ⟨x, hItem, hInner⟩
      rw [hShows.intermediateCas] at hItem
      rcases List.mem_map.mp (List.mem_of_getElem? hItem) with
        ⟨info, hMem, rfl⟩
      exact ⟨info, List.mem_cons_of_mem _ hMem,
        shown_of_isAuthorityField hField hInner⟩

/- What shared parameters show as certificates is registered. -/
theorem shown_of_shared
    {render : CertificationAuthority → Json}
    {r : Registry}
    {version : Version}
    {document v : Json}
    {p : Pointer}
    (hAuthority : ShowsAuthority render)
    (hShows : ShowsShared render r document)
    (hField : IsCertificateField .sharedParameters version p)
    (hPart : p.resolve? document = some v) :
    ∃ c, r.Holds c ∧ v = c.toJson := by
  cases hField with
  | approved i hField =>
      rcases resolve?_item_of_key.mp hPart with
        ⟨x, hItem, hInner⟩
      rw [hShows.authorities] at hItem
      rcases List.mem_map.mp (List.mem_of_getElem? hItem) with
        ⟨a, hMem, rfl⟩
      rw [sortByText, mem_sortBy] at hMem
      rcases shown_of_isApprovedField hAuthority hField
        hInner with ⟨info, hInfo, c, hCert, rfl⟩
      exact ⟨c, Registry.holds_of_authority hMem hInfo hCert,
        rfl⟩
  | timestamping i =>
      rcases resolve?_item_of_key.mp hPart with
        ⟨x, hItem, hInner⟩
      rw [hShows.timestamping] at hItem
      rcases List.mem_map.mp (List.mem_of_getElem? hItem) with
        ⟨t, hMem, rfl⟩
      rw [mem_sortBy] at hMem
      refine ⟨t.cert, Registry.holds_of_timestamping hMem, ?_⟩
      rw [Pointer.resolve?_single, Pointer.step?,
        cert_timestampingAuthority] at hInner
      simpa [eq_comm] using hInner

------------------------------------------------------------
-- Private Parameters
------------------------------------------------------------

/- A version's certificates of a source are the source's own. -/
def ShowsOwnCertificates
    (version : Version)
    (render : CertificateBytes → List CertificateBytes →
      String × Json) : Prop :=
  ∀ (s : ConfigurationSource) (q : Pointer) (v : Json),
    IsSourceField version q →
    q.resolve? (sourceJson render s) = some v →
    ∃ c ∈ s.verificationCerts, v = c.toJson

theorem showsOwnCertificates_firstCert :
    ShowsOwnCertificates .v1 firstCert := by
  intro s q v hField hPart
  cases hField with
  | listed j hVersion => exact absurd rfl hVersion
  | only =>
      unfold sourceJson at hPart
      cases hCerts : s.verificationCerts with
      | nil =>
          rw [hCerts] at hPart
          cases hPart
      | cons cert certs =>
          rw [hCerts] at hPart
          refine ⟨cert, List.mem_cons_self, ?_⟩
          simpa [Pointer.step?, firstCert, Json.get?_ofMembers,
            List.lookup_cons, eq_comm] using hPart

theorem showsOwnCertificates_allCerts :
    ShowsOwnCertificates .v2 allCerts := by
  intro s q v hField hPart
  cases hField with
  | listed j hVersion =>
      rcases resolve?_item_of_key.mp hPart with
        ⟨x, hItem, hRoot⟩
      cases hRoot
      have hSome : s.verificationCerts ≠ [] := by
        intro hNone
        rw [sourceJson, hNone] at hItem
        cases hItem
      rw [items_allCerts hSome] at hItem
      rcases List.mem_map.mp (List.mem_of_getElem? hItem) with
        ⟨encoded, hMem, rfl⟩
      rcases List.mem_map.mp (mem_sortTexts.mp hMem) with
        ⟨c, hCert, rfl⟩
      exact ⟨c, hCert, rfl⟩

/- What private parameters show of the sources and the service. -/
structure ShowsPrivate
    (render : CertificateBytes → List CertificateBytes →
      String × Json)
    (r : Registry)
    (document : Json) : Prop where
  management :
    (part "managementService" document).get?
        "authCertRegServiceCert" =
      some r.managementService.authCertRegServiceCert.toJson
  anchor : part "configurationAnchor" document =
    anchorJson render r

theorem showsPrivate_v1
    (r : Registry)
    (now : Instant) :
    ShowsPrivate firstCert r
      (Document.new .privateParameters .v1 now
        (Table.ofList (privatePartsV1 r))).toJson := by
  have hGet := Document.get?_toJson_new .privateParameters
    .v1 now (envelope_privatePartsV1_nodup r)
  constructor
  · simp only [part, hGet]
    simp [Document.envelopeMembers, privatePartsV1,
      List.lookup_cons, Json.get?_ofMembers, managementParts]
  · simp only [part, hGet]
    simp [Document.envelopeMembers, privatePartsV1,
      List.lookup_cons]

theorem showsPrivate_v2
    (r : Registry)
    (code : String)
    (now : Instant) :
    ShowsPrivate allCerts r
      (Document.new .privateParameters .v2 now
        (Table.ofList (privatePartsV2 r code))).toJson := by
  have hShows := showsOperator_new r code now
  constructor
  · rw [hShows.management,
      Json.get?_ofMembers (by simp [managementParts])]
    simp [managementParts, List.lookup_cons]
  · exact hShows.anchor

/- What private parameters show as certificates is registered. -/
theorem shown_of_private
    {render : CertificateBytes → List CertificateBytes →
      String × Json}
    {r : Registry}
    {version : Version}
    {document v : Json}
    {p : Pointer}
    (hSources : ShowsOwnCertificates version render)
    (hShows : ShowsPrivate render r document)
    (hField : IsCertificateField .privateParameters version p)
    (hPart : p.resolve? document = some v) :
    ∃ c, r.Holds c ∧ v = c.toJson := by
  cases hField with
  | management =>
      have hInner := resolve?_part hPart
      rw [Pointer.resolve?_single, Pointer.step?,
        hShows.management] at hInner
      exact ⟨_, Registry.holds_management,
        by simpa [eq_comm] using hInner⟩
  | source i hField =>
      have hInner := resolve?_part hPart
      rw [hShows.anchor] at hInner
      rcases resolve?_item_of_key.mp hInner with
        ⟨x, hItem, hCert⟩
      rw [items_sources] at hItem
      rcases List.mem_map.mp (List.mem_of_getElem? hItem) with
        ⟨entry, hEntry, rfl⟩
      have hSource : entry.1 ∈ r.configurationSources :=
        List.mem_of_getElem? (mem_sortedSources.mp hEntry)
      rcases hSources entry.1 _ v hField hCert with
        ⟨c, hMem, rfl⟩
      exact ⟨c, Registry.holds_of_source hSource hMem, rfl⟩

/- The place of a source's list of certificates. -/
def sourceListAt (i : Nat) : Pointer :=
  [ .key "configurationAnchor", .key "sources", .index i,
    .key "verificationCerts" ]

/- A shown list of certificates is one of a source. -/
theorem shown_of_sourceList
    {r : Registry}
    {document v : Json}
    {i : Nat}
    (hShows : ShowsPrivate allCerts r document)
    (hPart : (sourceListAt i).resolve? document = some v) :
    ∃ s ∈ r.configurationSources, s.verificationCerts ≠ [] ∧
      v = .array
        ((sortTexts
          (s.verificationCerts.map
            CertificateBytes.toBase64)).map .string) := by
  have hInner := resolve?_part hPart
  rw [hShows.anchor] at hInner
  rcases resolve?_item_of_key.mp hInner with ⟨x, hItem, hList⟩
  rw [items_sources] at hItem
  rcases List.mem_map.mp (List.mem_of_getElem? hItem) with
    ⟨entry, hEntry, rfl⟩
  have hGet : (sourceJson allCerts entry.1).get?
      "verificationCerts" = some v := by
    simpa [Pointer.step?] using hList
  have hSome : entry.1.verificationCerts ≠ [] := by
    intro hNone
    rw [sourceJson, hNone] at hGet
    cases hGet
  refine ⟨entry.1,
    List.mem_of_getElem? (mem_sortedSources.mp hEntry), hSome,
    ?_⟩
  rw [get?_allCerts hSome] at hGet
  exact (Option.some.inj hGet).symm

end Content

------------------------------------------------------------
-- The Two Gates
------------------------------------------------------------

theorem CertificateBytes.IsAccepted.bytes_ne_nil
    {c : CertificateBytes}
    (hAccepted : c.IsAccepted) :
    c.bytes ≠ [] := by
  rcases hAccepted with ⟨cert, hAccept⟩
  have hRead := (Certificate.accept_general_iff.mp
    (hAccept "")).2
  have hNone : Certificate.ofBytes? [] = none := by
    decide +kernel
  intro hEmpty
  rw [hEmpty, hNone] at hRead
  cases hRead

/-
  The rules read what the gate accepts unless it is in textual
  form, for they read the binary form only.
-/
theorem Rules.isFailing_iff_of_isAccepted
    {c : CertificateBytes}
    {fault : RuleFault}
    (hAccepted : c.IsAccepted) :
    IsFailing c.toBase64 fault ↔
      fault = .notCertificate ∧
        Pem.looksLike c.bytes = true := by
  rcases hAccepted with ⟨cert, hAccept⟩
  have hRead := (Certificate.accept_general_iff.mp
    (hAccept "")).2
  have hForms : ¬ c.IsDer ↔ Pem.looksLike c.bytes = true := by
    rw [CertificateBytes.IsDer, Option.isSome_iff_exists]
    constructor
    · intro hNone
      by_contra hBinary
      rw [Bool.not_eq_true] at hBinary
      rw [Certificate.ofBytes?_eq_ofDer? hBinary] at hRead
      exact hNone ⟨cert, hRead⟩
    · rintro hText ⟨other, hDer⟩
      have hBinary := Certificate.not_looksLike_of_ofDer? hDer
      rw [hText] at hBinary
      cases hBinary
  constructor
  · intro hFailing
    cases hFailing with
    | notBase64 hError =>
        rw [CertificateBytes.ofBase64_toBase64] at hError
        cases hError
    | notCertificate hOk hDer =>
        rw [CertificateBytes.ofBase64_toBase64] at hOk
        cases hOk
        exact ⟨rfl, hForms.mp hDer⟩
  · rintro ⟨rfl, hText⟩
    exact .notCertificate
      (CertificateBytes.ofBase64_toBase64 c)
      (hForms.mpr hText)

/- Behind the gate of a registry all it holds is accepted. -/
theorem Registry.verify_iff_holds (r : Registry) :
    r.verify = .ok () ↔ ∀ c, r.Holds c → c.IsAccepted := by
  rw [verify_eq_ok_iff]
  constructor
  · rintro hAll c ⟨place, hMem⟩
    exact hAll (place, c) hMem
  · rintro hAll ⟨place, c⟩ hMem
    exact hAll c ⟨place, hMem⟩

/- The schema of every field of a certificate is that of one. -/
theorem Schema.resolve?_of_isCertificateField
    {kind : DocumentKind}
    {version : Version}
    {schema : ParameterSchema}
    {p : Pointer}
    (hSchema : ParameterSchema.find? kind version = some schema)
    (hField : Rules.IsCertificateField kind version p) :
    resolve? p schema.root = some certificate := by
  have hMem := List.mem_of_find?_eq_some hSchema
  have hKind := List.find?_some hSchema
  simp only [decide_eq_true_eq] at hKind
  rcases hKind with ⟨rfl, rfl⟩
  simp only [ParameterSchema.all, List.mem_cons,
    List.not_mem_nil, or_false] at hMem
  rcases hMem with rfl | rfl | rfl | rfl
  · cases hField with
    | management => rfl
    | source i hField =>
        cases hField with
        | only => rfl
        | listed j hVersion => exact absurd rfl hVersion
  · cases hField with
    | management => rfl
    | source i hField =>
        cases hField with
        | listed j hVersion => rfl
  · cases hField with
    | approved i hField =>
        rcases hField with hField | ⟨k, hField⟩ <;>
          cases hField <;> rfl
    | timestamping i => rfl
  · cases hField with
    | approved i hField =>
        rcases hField with hField | ⟨k, hField⟩ <;>
          cases hField <;> rfl
    | timestamping i => rfl

------------------------------------------------------------
-- Generated Documents
------------------------------------------------------------

/- The documents of a registry by kind and version. -/
inductive Registry.Renders
    (r : Registry)
    (now : Instant) :
    (kind : DocumentKind) → Version → Document kind → Prop where
| privateV1 :
    Renders r now .privateParameters .v1
      (Document.new .privateParameters .v1 now
        (Table.ofList (Content.privatePartsV1 r)))
| privateV2 (code : String) :
    Renders r now .privateParameters .v2
      (Document.new .privateParameters .v2 now
        (Table.ofList (Content.privatePartsV2 r code)))
| sharedV1 :
    Renders r now .sharedParameters .v1
      (Document.new .sharedParameters .v1 now
        (Table.ofList
          (Content.sharedParts Content.authority [] r)))
| sharedV2 :
    Renders r now .sharedParameters .v2
      (Document.new .sharedParameters .v2 now
        (Table.ofList
          (Content.sharedParts Content.authorityWithProfile
            [("memberClasses", Content.memberClasses r)] r)))

namespace Registry

variable {r : Registry} {now : Instant}
variable {kind : DocumentKind} {version : Version}
variable {d : Document kind}

theorem renders_of_generate
    {g : Generator}
    (hGenerator : g ∈ [Generator.v1, Generator.v2])
    (hGenerate : g.generate kind now r = .ok d) :
    r.Renders now kind g.version d := by
  simp only [List.mem_cons, List.not_mem_nil,
    or_false] at hGenerator
  rcases hGenerator with rfl | rfl <;>
    rcases Generator.generate_ofContent_iff.mp hGenerate with
      ⟨content, hContent, rfl⟩ <;>
    cases kind
  · rcases Content.privateV1_eq_ok_iff.mp hContent with
      ⟨-, rfl⟩
    exact .privateV1
  · rcases Content.shared_eq_ok_iff.mp hContent with ⟨-, rfl⟩
    exact .sharedV1
  · rcases Content.privateV2_eq_ok_iff.mp hContent with
      ⟨-, code, -, rfl⟩
    exact .privateV2 code
  · rcases Content.shared_eq_ok_iff.mp hContent with ⟨-, rfl⟩
    exact .sharedV2

/- What documents show as certificates is registered. -/
theorem Renders.holds
    (hRenders : r.Renders now kind version d)
    {p : Pointer}
    {v : Json}
    (hField : Rules.IsCertificateField kind version p)
    (hPart : p.resolve? d.toJson = some v) :
    ∃ c, r.Holds c ∧ v = c.toJson := by
  cases hRenders with
  | privateV1 =>
      exact Content.shown_of_private
        Content.showsOwnCertificates_firstCert
        (Content.showsPrivate_v1 r now) hField hPart
  | privateV2 code =>
      exact Content.shown_of_private
        Content.showsOwnCertificates_allCerts
        (Content.showsPrivate_v2 r code now) hField hPart
  | sharedV1 =>
      exact Content.shown_of_shared
        Content.showsAuthority_authority
        (Content.showsShared_new _ _ r _ now) hField hPart
  | sharedV2 =>
      exact Content.shown_of_shared
        Content.showsAuthority_authorityWithProfile
        (Content.showsShared_new _ _ r _ now) hField hPart

theorem Renders.isNormal
    (hRenders : r.Renders now kind version d) :
    d.toJson.IsNormal := by
  have hFormed : ∀ {parts : List (String × Json)},
      (∀ part ∈ parts, part.2.IsExact) →
      (Document.new kind version now
        (Table.ofList parts)).toJson.IsNormal := by
    intro parts hParts
    refine Document.isNormal_toJson fun m hMem => ?_
    exact (Content.isFormed_ofList hParts).normal m
      (List.mem_filter.mp hMem).1
  cases hRenders with
  | privateV1 => exact hFormed (Content.isExact_privatePartsV1 r)
  | privateV2 code =>
      exact hFormed (Content.isExact_privatePartsV2 r code)
  | sharedV1 =>
      exact hFormed (Content.isExact_sharedParts r
        Content.isExact_authority (by simp))
  | sharedV2 =>
      exact hFormed (Content.isExact_sharedParts r
        Content.isExact_authorityWithProfile
        (List.forall_mem_singleton.mpr
          (Content.isExact_memberClasses r)))

/- The place of a certificate, or of a list of certificates. -/
inductive IsCertificatePlace :
    DocumentKind → Version → Pointer → Prop where
| field {kind : DocumentKind} {version : Version}
    {p : Pointer} :
    Rules.IsCertificateField kind version p →
    IsCertificatePlace kind version p
| sources (i : Nat) :
    IsCertificatePlace .privateParameters .v2
      (Content.sourceListAt i)

/- A source's list of certificates is accepted. -/
theorem accepts_sourceList
    {s : ConfigurationSource}
    (hSome : s.verificationCerts ≠ [])
    (hBytes : ∀ c ∈ s.verificationCerts, c.bytes ≠ []) :
    Schema.Accepts (.list Schema.certificate 1 false)
      (.array
        ((Content.sortTexts
          (s.verificationCerts.map
            CertificateBytes.toBase64)).map .string)) := by
  rcases List.exists_mem_of_ne_nil _ hSome with ⟨cert, hCert⟩
  refine Schema.accepts_list_ofList_iff.mpr ⟨?_, ?_⟩
  · intro encoded hMem
    rcases List.mem_map.mp
      (Content.mem_sortTexts.mp hMem) with ⟨c, hOwn, rfl⟩
    exact Schema.accepts_certificate_iff.mpr (hBytes c hOwn)
  · exact List.length_pos_of_mem (Content.mem_sortTexts.mpr
      (List.mem_map_of_mem hCert))

/- Certificates keep the schema of their places. -/
theorem Renders.accepts
    {schema : ParameterSchema}
    {p : Pointer}
    (hRenders : r.Renders now kind version d)
    (hBytes : ∀ c, r.Holds c → c.bytes ≠ [])
    (hSchema : ParameterSchema.find? kind version = some schema)
    (hPlace : IsCertificatePlace kind version p) :
    ∃ sub, Schema.resolve? p schema.root = some sub ∧
      ∀ part, p.resolve? d.toJson = some part →
        Schema.Accepts sub part := by
  cases hPlace with
  | field hField =>
      refine ⟨Schema.certificate,
        Schema.resolve?_of_isCertificateField hSchema hField,
        fun part hPart => ?_⟩
      rcases hRenders.holds hField hPart with ⟨c, hHolds, rfl⟩
      exact Schema.accepts_certificate_iff.mpr
        (hBytes c hHolds)
  | sources i =>
      cases hSchema
      refine ⟨.list Schema.certificate 1 false, rfl,
        fun part hPart => ?_⟩
      cases hRenders with
      | privateV2 code =>
          rcases Content.shown_of_sourceList
            (Content.showsPrivate_v2 r code now) hPart with
            ⟨s, hSource, hSome, rfl⟩
          exact accepts_sourceList hSome fun c hCert =>
            hBytes c (holds_of_source hSource hCert)

/- The small registry with a certificate of the service. -/
def withManagement (cert : CertificateBytes) : Registry :=
  { small .small with
    managementService :=
      ⟨"http://m", cert, MemberId.small.asClient, none⟩ }

theorem eq_of_holds_withManagement
    {cert c : CertificateBytes}
    (hHolds : (withManagement cert).Holds c) :
    c = .small ∨ c = cert := by
  rcases hHolds with ⟨place, hMem⟩
  simp only [certificates, withManagement, Registry.small,
    SecurityServer.small, Occurrence.inItems,
    Occurrence.inCerts, Occurrence.single] at hMem
  revert hMem
  simp +contextual [List.zipIdx, or_imp]

theorem verify_withManagement
    {cert : CertificateBytes}
    (hAccepted : cert.IsAccepted) :
    (withManagement cert).verify = .ok () := by
  refine (verify_iff_holds _).mpr fun c hHolds => ?_
  rcases eq_of_holds_withManagement hHolds with rfl | rfl
  · exact CertificateBytes.small_accepted
  · exact hAccepted

theorem hasPrivateParts_withManagement
    (cert : CertificateBytes) :
    Content.HasPrivateParts (withManagement cert) where
  sources := by simp [withManagement, small]
  interval := by
    have hSome : GlobalSettings.initial.timeStampingIntervalSeconds
        ≠ 0 := by
      decide
    exact hSome
  certificates :=
    List.forall_mem_singleton.mpr (List.cons_ne_nil _ _)

/- The private parameters of the registry, first version. -/
def managementDocument
    (cert : CertificateBytes)
    (now : Instant) : Document .privateParameters :=
  Document.new .privateParameters .v1 now
    (Table.ofList
      (Content.privatePartsV1 (withManagement cert)))

theorem generate_withManagement
    (cert : CertificateBytes)
    (now : Instant) :
    Generator.v1.generate .privateParameters now
        (withManagement cert) =
      .ok (managementDocument cert now) :=
  Generator.generate_ofContent_iff.mpr
    ⟨_, Content.privateV1_eq_ok_iff.mpr
      ⟨hasPrivateParts_withManagement cert, rfl⟩, rfl⟩

theorem accepts_managementDocument
    {cert : CertificateBytes}
    {now : Instant}
    (hNow : now.IsPlain)
    (hBytes : cert.bytes ≠ []) :
    Schema.Accepts (Schema.recordOf Schema.privateV1)
      (managementDocument cert now).toJson := by
  have hContent :
      Schema.IsCode (small .small).instanceIdentifier ∧
      (∀ s ∈ (small .small).configurationSources,
        Schema.IsUrl s.downloadUrl ∧
          ∀ c ∈ Content.firstCerts s, c.bytes ≠ []) ∧
      (Schema.IsUrl "http://m" ∧ cert.bytes ≠ []) := by
    unfold Schema.IsCode Schema.IsUrl
    exact ⟨by decide, by decide, by decide, hBytes⟩
  have hKeys := Content.envelope_privatePartsV1_nodup
    (withManagement cert)
  exact (Validation.accepts_new_iff hKeys rfl).mpr
    ((Content.accepts_privatePartsV1_iff hNow
      (hasPrivateParts_withManagement cert)).mpr hContent)

/- The private parameters show the service's certificate. -/
theorem resolve?_managementDocument
    (cert : CertificateBytes)
    (now : Instant) :
    Pointer.resolve?
        [ .key "managementService",
          .key "authCertRegServiceCert" ]
        (managementDocument cert now).toJson =
      some cert.toJson := by
  have hShown := (Content.showsPrivate_v1
    (withManagement cert) now).management
  have hSteps := Pointer.resolve?_key
    [.key "managementService"] "authCertRegServiceCert"
    (managementDocument cert now).toJson
  rw [Rules.get?_part] at hShown
  rw [Pointer.resolve?_single, Pointer.step?] at hSteps
  exact hSteps.trans hShown

theorem mem_findings_managementDocument
    {cert : CertificateBytes}
    (hAccepted : cert.IsAccepted)
    (hText : Pem.looksLike cert.bytes = true)
    (now : Instant) :
    ( [ .key "managementService",
        .key "authCertRegServiceCert" ],
      RuleFault.notCertificate) ∈
      Rules.findings .privateParameters .v1
        (managementDocument cert now).toJson :=
  (Rules.mem_findings_iff_of_certificate (Or.inr rfl)).mpr
    ⟨.management, cert.toBase64,
      resolve?_managementDocument cert now,
      (Rules.isFailing_iff_of_isAccepted hAccepted).mpr
        ⟨rfl, hText⟩⟩

/-
  Documents of a registry that passes the gate are told of no
  mismatch and of no bad base64 where they show certificates.
  They are told that a certificate is none exactly where they
  show one that is registered in textual form.
-/
theorem certificate_violations_iff
    {g : Generator}
    {schema : ParameterSchema}
    (hVerify : r.verify = .ok ())
    (hGenerator : g ∈ [Generator.v1, Generator.v2])
    (hGenerate : g.generate kind now r = .ok d)
    (hSchema : ParameterSchema.find? kind g.version =
      some schema) :
    (∀ f ∈ Schema.mismatches schema.root [] d.toJson,
      ∀ p, IsCertificatePlace kind g.version p →
        ¬ p <+: f.1) ∧
    (∀ p, (p, RuleFault.notBase64) ∉
      Rules.findings kind g.version d.toJson) ∧
    ∀ p, (p, RuleFault.notCertificate) ∈
        Rules.findings kind g.version d.toJson ↔
      Rules.IsCertificateField kind g.version p ∧
        ∃ c, r.Holds c ∧
          p.resolve? d.toJson = some c.toJson ∧
          Pem.looksLike c.bytes = true := by
  have hRenders := renders_of_generate hGenerator hGenerate
  have hAccepted := (verify_iff_holds r).mp hVerify
  have hFailing : ∀ p fault,
      Rules.IsCertificateField kind g.version p →
      (Rules.HasFailing d.toJson p fault ↔
        ∃ c, r.Holds c ∧
          p.resolve? d.toJson = some c.toJson ∧
          fault = .notCertificate ∧
          Pem.looksLike c.bytes = true) := by
    intro p fault hField
    constructor
    · rintro ⟨encoded, hText, hFails⟩
      rcases hRenders.holds hField hText with
        ⟨c, hHolds, hShown⟩
      cases hShown
      exact ⟨c, hHolds, hText,
        (Rules.isFailing_iff_of_isAccepted
          (hAccepted c hHolds)).mp hFails⟩
    · rintro ⟨c, hHolds, hText, hFault⟩
      exact ⟨c.toBase64, hText,
        (Rules.isFailing_iff_of_isAccepted
          (hAccepted c hHolds)).mpr hFault⟩
  refine ⟨?_, ?_, ?_⟩
  · intro f hFound p hPlace
    rcases hRenders.accepts
        (fun c hHolds => (hAccepted c hHolds).bytes_ne_nil)
        hSchema hPlace with ⟨sub, hSub, hAccepts⟩
    exact Schema.not_prefix_of_mismatch hRenders.isNormal
      hFound hSub hAccepts
  · intro p hFound
    rcases (Rules.mem_findings_iff_of_certificate
      (Or.inl rfl)).mp hFound with ⟨hField, hFails⟩
    rcases (hFailing p _ hField).mp hFails with
      ⟨c, -, -, hFault, -⟩
    cases hFault
  · intro p
    rw [Rules.mem_findings_iff_of_certificate (Or.inr rfl)]
    refine and_congr_right fun hField => ?_
    rw [hFailing p _ hField]
    simp

/-
  With a certificate of the service in binary form the rules
  find every certificate to be one.
-/
theorem certificate_violations_small :
    (withManagement .small).verify = .ok () ∧
    ∃ d, Generator.v1.generate .privateParameters ⟨0, 0⟩
        (withManagement .small) = .ok d ∧
      ∀ p, (p, RuleFault.notCertificate) ∉
        Rules.findings .privateParameters .v1 d.toJson := by
  have hVerify :=
    verify_withManagement CertificateBytes.small_accepted
  have hGenerate := generate_withManagement .small ⟨0, 0⟩
  have hBinary :
      Pem.looksLike CertificateBytes.small.bytes = false := by
    decide
  refine ⟨hVerify, _, hGenerate, fun p hFound => ?_⟩
  have hAll := certificate_violations_iff hVerify
    List.mem_cons_self hGenerate rfl
  rcases (hAll.2.2 p).mp hFound with ⟨-, c, hHolds, -, hText⟩
  have hSmall : c = .small :=
    (eq_of_holds_withManagement hHolds).elim id id
  rw [hSmall, hBinary] at hText
  cases hText

/-
  With one in textual form the registry passes the gate, and
  its private parameters, which have the form that they must
  have, are rejected for a certificate that is none.
-/
theorem certificate_violation_of_textual :
    ∃ r d, Registry.verify r = .ok () ∧
      Generator.v1.generate .privateParameters
          ⟨1735689600, 0⟩ r = .ok d ∧
      ∃ violations,
        Generator.v1.validate .privateParameters d =
          .error (.semantic .privateParameters .v1
            violations) ∧
        ⟨"/managementService/authCertRegServiceCert",
          "certificate is not a well-formed X.509 certificate"⟩
            ∈ violations := by
  have hText := CertificateBytes.looksLike_smallText
  have hAccepted : CertificateBytes.smallText.IsAccepted :=
    CertificateBytes.smallText_accepted.imp fun _ hCert =>
      hCert.2
  have hNow : Instant.IsPlain ⟨1735689600, 0⟩ :=
    ⟨by decide, by decide⟩
  have hSchema : ParameterSchema.find? .privateParameters .v1 =
      some ⟨.privateParameters, .v1, Schema.privateV1⟩ := rfl
  have hForm := accepts_managementDocument hNow
    hAccepted.bytes_ne_nil
  have hFound := mem_findings_managementDocument hAccepted
    hText ⟨1735689600, 0⟩
  refine ⟨withManagement .smallText, _,
    verify_withManagement hAccepted,
    generate_withManagement .smallText ⟨1735689600, 0⟩, _,
    Validation.validate_eq_semantic hSchema
      (Validation.declaredVersion?_new
        (Content.envelope_privatePartsV1_nodup _)) hForm
      (List.ne_nil_of_mem hFound), ?_⟩
  exact List.mem_map.mpr ⟨_, hFound, by decide⟩

end Registry

end Federation
