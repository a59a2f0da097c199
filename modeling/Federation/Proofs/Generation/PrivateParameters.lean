import Federation.Proofs.Generation.SharedParameters

/-
  Private parameters that are generated: when there are any,
  which source is blamed if there are none, and for which
  registries they are valid.

  Main declarations:
    * `Registry.HasValidParts`
    * `Registry.HasValidServers`
    * `Generator.generated_private_iff`
-/

namespace Federation

------------------------------------------------------------
-- Registries
------------------------------------------------------------

namespace Registry

/-
  What valid private parameters of every version ask for,
  with the certificates of a source that a version shows.
-/
structure HasValidParts
    (r : Registry)
    (certs : ConfigurationSource → List CertificateBytes) :
    Prop where
  instanceIdentifier : Schema.IsCode r.instanceIdentifier
  downloadUrls : ∀ s ∈ r.configurationSources,
    Schema.IsUrl s.downloadUrl
  sourceCerts : ∀ s ∈ r.configurationSources,
    ∀ c ∈ certs s, c.IsDer
  managementAddress :
    Schema.IsUrl r.managementService.authCertRegServiceAddress
  managementCert :
    r.managementService.authCertRegServiceCert.IsDer

/- What they ask for beside that from the second version on. -/
structure HasValidServers (r : Registry) : Prop where
  codes : ∀ s, Content.IsOperatorServer r s →
    Schema.IsCode s.serverCode
  addresses : ∀ s, Content.IsOperatorServer r s →
    s.address ≠ ""
  distinct :
    ((r.securityServers.filter fun s =>
        s.owner = r.operator ∧ s.authCerts ≠ []).map
      SecurityServer.serverCode).Nodup

end Registry

namespace Content

------------------------------------------------------------
-- Forms
------------------------------------------------------------

/- A version's way to show the certificates of a source. -/
structure ShowsSource
    (version : Version)
    (schema : List (String × Schema))
    (render : CertificateBytes → List CertificateBytes →
      String × Json)
    (certs : ConfigurationSource → List CertificateBytes) :
    Prop where
  form : ∀ s, s.verificationCerts ≠ [] →
    (Schema.Accepts (Schema.recordOf schema)
        (sourceJson render s) ↔
      Schema.IsUrl s.downloadUrl ∧
        ∀ c ∈ certs s, c.bytes ≠ [])
  rules : ∀ s, s.verificationCerts ≠ [] →
    ((∀ v ∈ Rules.sourceCertificates version
        (sourceJson render s), Rules.IsCertificateText v) ↔
      ∀ c ∈ certs s, c.IsDer)

/- The first certificate of a source. -/
def firstCerts
    (s : ConfigurationSource) : List CertificateBytes :=
  s.verificationCerts.head?.toList

theorem showsSource_firstCert :
    ShowsSource .v1
      [ ("downloadUrl", Schema.url),
        ("verificationCert", Schema.certificate) ]
      firstCert firstCerts := by
  constructor
  · intro s hSome
    rcases List.exists_cons_of_ne_nil hSome with
      ⟨cert, certs, hCerts⟩
    rw [sourceJson, hCerts]
    simp only [firstCert]
    rw [Schema.accepts_recordOf_iff rfl (by simp)]
    simp [Schema.accepts_url_iff, Schema.IsUrl, firstCerts,
      hCerts, Schema.accepts_certificate_iff]
  · intro s hSome
    rcases List.exists_cons_of_ne_nil hSome with
      ⟨cert, certs, hCerts⟩
    rw [sourceJson, hCerts]
    simp [Rules.sourceCertificates, firstCert, firstCerts,
      hCerts, Json.get?_ofMembers, List.lookup_cons]

/- The texts of all certificates of a source. -/
theorem get?_allCerts
    {s : ConfigurationSource}
    (hSome : s.verificationCerts ≠ []) :
    (sourceJson allCerts s).get? "verificationCerts" =
      some (.array
        ((sortTexts
          (s.verificationCerts.map
            CertificateBytes.toBase64)).map .string)) := by
  rcases List.exists_cons_of_ne_nil hSome with
    ⟨cert, certs, hCerts⟩
  rw [sourceJson, hCerts]
  simp [allCerts, Json.get?_ofMembers, Json.ofList,
    List.lookup_cons]

theorem items_allCerts
    {s : ConfigurationSource}
    (hSome : s.verificationCerts ≠ []) :
    Rules.items "verificationCerts" (sourceJson allCerts s) =
      (sortTexts
        (s.verificationCerts.map
          CertificateBytes.toBase64)).map .string := by
  rw [Rules.items, get?_allCerts hSome]
  rfl

theorem showsSource_allCerts :
    ShowsSource .v2
      [ ("downloadUrl", Schema.url),
        ("verificationCerts",
          .list Schema.certificate 1 false) ]
      allCerts ConfigurationSource.verificationCerts := by
  have hTexts : ∀ (P : Json → Prop)
      (certs : List CertificateBytes),
      (∀ text ∈ sortTexts (certs.map CertificateBytes.toBase64),
        P (.string text)) ↔ ∀ c ∈ certs, P c.toJson := by
    intro P certs
    simp [CertificateBytes.toJson]
  constructor
  · intro s hSome
    rcases List.exists_cons_of_ne_nil hSome with
      ⟨cert, certs, hCerts⟩
    have hLength : 1 ≤ (sortTexts
        ((cert :: certs).map
          CertificateBytes.toBase64)).length := by
      refine List.length_pos_of_mem
        (mem_sortTexts.mpr (List.mem_map.mpr
          ⟨cert, List.mem_cons_self, rfl⟩))
    rw [sourceJson, hCerts]
    simp only [allCerts]
    rw [Schema.accepts_recordOf_iff rfl (by simp)]
    simp only [List.zip_cons_cons, List.zip_nil_right,
      List.forall_mem_cons, Schema.accepts_list_ofList_iff,
      hTexts (Schema.Accepts Schema.certificate),
      Schema.accepts_url_iff, Schema.accepts_certificate_iff,
      hLength, and_true]
    simp [Schema.IsUrl]
  · intro s hSome
    have hLate : Version.v2 ≠ Version.v1 := by decide
    rw [Rules.sourceCertificates, if_neg hLate,
      items_allCerts hSome,
      List.forall_mem_map,
      hTexts Rules.IsCertificateText]
    simp

/- The sources that an anchor shows. -/
theorem items_sources
    (render : CertificateBytes → List CertificateBytes →
      String × Json)
    (r : Registry) :
    Rules.items "sources" (anchorJson render r) =
      (sortedSources r).map fun entry =>
        sourceJson render entry.1 := by
  rw [Rules.items, anchorJson, Json.get?_ofMembers (by simp)]
  simp [Json.asArray?]

/- The schema of the sources' anchor. -/
def anchorSchema (source : List (String × Schema)) : Schema :=
  Schema.recordOf
    [("sources", .list (Schema.recordOf source) 1 false)]

section Anchor

variable
  {version : Version}
  {schema : List (String × Schema)}
  {render : CertificateBytes → List CertificateBytes →
    String × Json}
  {certs : ConfigurationSource → List CertificateBytes}
  {r : Registry}

theorem accepts_anchor_iff
    (hShows : ShowsSource version schema render certs)
    (hParts : HasPrivateParts r) :
    Schema.Accepts (anchorSchema schema)
        (anchorJson render r) ↔
      ∀ s ∈ r.configurationSources,
        Schema.IsUrl s.downloadUrl ∧
          ∀ c ∈ certs s, c.bytes ≠ [] := by
  have hLength : 1 ≤ (sortedSources r).length := by
    rcases List.exists_mem_of_ne_nil _ hParts.sources with
      ⟨s, hMem⟩
    rcases List.mem_iff_getElem?.mp hMem with ⟨i, hi⟩
    have hEntry : (s, i) ∈ sortedSources r :=
      mem_sortedSources.mpr hi
    exact List.length_pos_of_mem hEntry
  rw [anchorSchema, anchorJson,
    Schema.accepts_recordOf_iff rfl (by simp)]
  have hList : Json.array
      ((sortedSources r).map fun entry =>
        sourceJson render entry.1) =
      Json.ofList
        (fun entry : ConfigurationSource × Nat =>
          sourceJson render entry.1)
        (sortedSources r) :=
    rfl
  simp only [List.zip_cons_cons, List.zip_nil_right,
    List.forall_mem_singleton, hList,
    Schema.accepts_list_ofList_iff, hLength, and_true]
  rw [forall_sortedSources_iff
    (P := fun s => Schema.Accepts (Schema.recordOf schema)
      (sourceJson render s))]
  exact forall₂_congr fun s hs =>
    hShows.form s (hParts.certificates s hs)

theorem anchor_rules_iff
    (hShows : ShowsSource version schema render certs)
    (hParts : HasPrivateParts r) :
    (∀ v ∈ Rules.items "sources" (anchorJson render r),
      ∀ cert ∈ Rules.sourceCertificates version v,
        Rules.IsCertificateText cert) ↔
      ∀ s ∈ r.configurationSources,
        ∀ c ∈ certs s, c.IsDer := by
  rw [items_sources, List.forall_mem_map,
    forall_sortedSources_iff
      (P := fun s => ∀ cert ∈
        Rules.sourceCertificates version
          (sourceJson render s),
        Rules.IsCertificateText cert)]
  exact forall₂_congr fun s hs =>
    hShows.rules s (hParts.certificates s hs)

end Anchor

theorem managementParts_accepts_iff
    (m : ManagementService) :
    (∀ p ∈ Schema.managementV1.zip (managementParts m),
      Schema.Accepts p.1.2 p.2.2) ↔
      Schema.IsUrl m.authCertRegServiceAddress ∧
        m.authCertRegServiceCert.bytes ≠ [] := by
  simp [Schema.managementV1, managementParts,
    Schema.accepts_url_iff, Schema.IsUrl,
    Schema.accepts_certificate_iff, Schema.accepts_clientId]

------------------------------------------------------------
-- Versions
------------------------------------------------------------

theorem envelope_privatePartsV1_nodup (r : Registry) :
    (Document.envelopeKeys ++
      (privatePartsV1 r).map Prod.fst).Nodup := by
  simp [Document.envelopeKeys, privatePartsV1]

theorem envelope_privatePartsV2_nodup
    (r : Registry)
    (code : String) :
    (Document.envelopeKeys ++
      (privatePartsV2 r code).map Prod.fst).Nodup := by
  simp [Document.envelopeKeys, privatePartsV2]

/- Whether a certificate is one settles whether it has bytes. -/
theorem forall_isDer_iff
    {certs : List CertificateBytes} :
    ((∀ c ∈ certs, c.bytes ≠ []) ∧ ∀ c ∈ certs, c.IsDer) ↔
      ∀ c ∈ certs, c.IsDer :=
  and_iff_right_of_imp fun hAll c hMem =>
    CertificateBytes.bytes_ne_nil_of_isDer (hAll c hMem)

/-
  Form and rules of what private parameters of every version
  show are conditions on the registry.
-/
theorem hasValidParts_iff
    {r : Registry}
    {certs : ConfigurationSource → List CertificateBytes} :
    (Schema.IsCode r.instanceIdentifier ∧
      (∀ s ∈ r.configurationSources,
        Schema.IsUrl s.downloadUrl ∧
          ∀ c ∈ certs s, c.bytes ≠ []) ∧
      (Schema.IsUrl
        r.managementService.authCertRegServiceAddress ∧
        r.managementService.authCertRegServiceCert.bytes ≠
          [])) ∧
    (∀ s ∈ r.configurationSources, ∀ c ∈ certs s, c.IsDer) ∧
      r.managementService.authCertRegServiceCert.IsDer ↔
      r.HasValidParts certs := by
  constructor
  · rintro ⟨⟨hInstance, hSources, hAddress, -⟩, hCerts, hCert⟩
    exact ⟨hInstance, fun s hs => (hSources s hs).1, hCerts,
      hAddress, hCert⟩
  · rintro ⟨hInstance, hUrls, hCerts, hAddress, hCert⟩
    exact ⟨⟨hInstance,
      fun s hs => ⟨hUrls s hs,
        (forall_isDer_iff.mpr (hCerts s hs)).1⟩,
      hAddress, CertificateBytes.bytes_ne_nil_of_isDer hCert⟩,
      hCerts, hCert⟩

/- The form of what the first version shows. -/
theorem accepts_privatePartsV1_iff
    {now : Instant}
    {r : Registry}
    (hNow : now.IsPlain)
    (hParts : HasPrivateParts r) :
    (∀ p ∈ Schema.privateV1.zip
        (Document.envelopeMembers .v1 now ++
          privatePartsV1 r),
      Schema.Accepts p.1.2 p.2.2) ↔
    Schema.IsCode r.instanceIdentifier ∧
    (∀ s ∈ r.configurationSources,
      Schema.IsUrl s.downloadUrl ∧
        ∀ c ∈ firstCerts s, c.bytes ≠ []) ∧
    (Schema.IsUrl
      r.managementService.authCertRegServiceAddress ∧
      r.managementService.authCertRegServiceCert.bytes ≠
        []) := by
  have hAnchorForm :
      Schema.Accepts Schema.anchorV1
          (anchorJson firstCert r) ↔ _ :=
    accepts_anchor_iff showsSource_firstCert hParts
  have hManagementForm :
      Schema.Accepts (Schema.recordOf Schema.managementV1)
          (.ofMembers
            (managementParts r.managementService)) ↔ _ :=
    (Schema.accepts_recordOf_iff rfl
      (by simp [managementParts])).trans
      (managementParts_accepts_iff r.managementService)
  have hInterval := accepts_seconds hParts.interval
  apply (Schema.accepts_envelope_append_iff .v1 hNow).trans
  simp only [List.zip_cons_cons, List.zip_nil_right,
    List.forall_mem_cons, List.not_mem_nil, false_implies,
    implies_true, and_true, hAnchorForm, hManagementForm,
    hInterval]

theorem validateDocument_privateV1_iff
    {now : Instant}
    {r : Registry}
    (hNow : now.IsPlain)
    (hParts : HasPrivateParts r) :
    Validation.validateDocument .v1
        (Document.new .privateParameters .v1 now
          (Table.ofList (privatePartsV1 r))) = .ok () ↔
      r.HasValidParts firstCerts := by
  have hEarly : ¬ Version.v2 ≤ Version.v1 := by decide
  have hGet := Document.get?_toJson_new .privateParameters
    .v1 now (envelope_privatePartsV1_nodup r)
  have hAnchor :
      Rules.part "configurationAnchor"
        (Document.new .privateParameters .v1 now
          (Table.ofList (privatePartsV1 r))).toJson =
        anchorJson firstCert r := by
    simp only [Rules.part, hGet]
    simp [Document.envelopeMembers, privatePartsV1,
      List.lookup_cons]
  have hManagement :
      (Rules.part "managementService"
        (Document.new .privateParameters .v1 now
          (Table.ofList
            (privatePartsV1 r))).toJson).get?
          "authCertRegServiceCert" =
        some r.managementService.authCertRegServiceCert.toJson
          := by
    simp only [Rules.part, hGet]
    simp [Document.envelopeMembers, privatePartsV1,
      List.lookup_cons, Json.get?_ofMembers, managementParts]
  rw [Validation.validateDocument_new_eq_ok_iff rfl rfl
      (envelope_privatePartsV1_nodup r),
    accepts_privatePartsV1_iff hNow hParts, Rules.findings,
    Rules.privateParameters_eq_nil_iff, hAnchor, hManagement,
    anchor_rules_iff showsSource_firstCert hParts,
    ← hasValidParts_iff]
  simp [hEarly]

------------------------------------------------------------
-- The Operator's Servers
------------------------------------------------------------

theorem accepts_operatorServers_iff
    {r : Registry}
    (hSome : ∃ s, IsOperatorServer r s) :
    Schema.Accepts (.list Schema.operatorServer 1 false)
        (Json.ofList operatorServer (operatorServers r)) ↔
      ∀ s, IsOperatorServer r s →
        Schema.IsCode s.serverCode ∧ s.address ≠ "" := by
  rcases hSome with ⟨some, hServer⟩
  have hLength : 1 ≤ (operatorServers r).length :=
    List.length_pos_of_mem (mem_operatorServers.mpr hServer)
  rw [Schema.accepts_list_ofList_iff]
  simp only [hLength, and_true, mem_operatorServers,
    Schema.accepts_operatorServer_iff]
  exact forall₂_congr fun s hs => by simp [hs.2.2]

/- What the rules of the operator read from a document. -/
structure ShowsOperator
    (r : Registry)
    (code : String)
    (document : Json) : Prop where
  operator : Rules.part "operator" document =
    r.operator.toJson
  servers : Rules.items "securityServers" document =
    (operatorServers r).map operatorServer
  management : Rules.part "managementService" document =
    .ofMembers
      (managementParts r.managementService ++
        [ ("managementRequestServiceServerCode",
            .string code) ])
  anchor : Rules.part "configurationAnchor" document =
    anchorJson allCerts r

theorem showsOperator_new
    (r : Registry)
    (code : String)
    (now : Instant) :
    ShowsOperator r code
      (Document.new .privateParameters .v2 now
        (Table.ofList (privatePartsV2 r code))).toJson := by
  have hGet := Document.get?_toJson_new .privateParameters
    .v2 now (envelope_privatePartsV2_nodup r code)
  constructor <;>
    simp only [Rules.part, Rules.items, hGet] <;>
    simp [Document.envelopeMembers, privatePartsV2,
      Json.ofList, Json.asArray?, List.lookup_cons]

/-
  Servers and provider are the operator's by construction, so
  that the codes of the servers are all there is to judge.
-/
theorem ShowsOperator.isAtOperator_iff
    {r : Registry}
    {code : String}
    {document : Json}
    (hShows : ShowsOperator r code document)
    (hCode : ∃ s, IsOperatorServer r s ∧
      s.serverCode = code) :
    Rules.IsAtOperator document ↔
      ((r.securityServers.filter fun s =>
          s.owner = r.operator ∧ s.authCerts ≠ []).map
        SecurityServer.serverCode).Nodup := by
  have hCodes :
      ((Rules.items "securityServers" document).map
        (Rules.text "serverCode")).Nodup ↔
      ((r.securityServers.filter fun s =>
          s.owner = r.operator ∧ s.authCerts ≠ []).map
        SecurityServer.serverCode).Nodup := by
    rw [hShows.servers, List.map_map, operatorServers,
      sortServers, nodup_map_sortBy_iff]
    exact nodup_map_iff_of_injective fun a b => by simp
  have hGet : ∀ key,
      (Json.ofMembers
        (managementParts r.managementService ++
          [ ("managementRequestServiceServerCode",
              .string code) ])).get? key =
        (managementParts r.managementService ++
          [ ("managementRequestServiceServerCode",
              Json.string code) ]).lookup key :=
    Json.get?_ofMembers (by simp [managementParts])
  rw [← hCodes]
  refine ⟨fun h => h.codes, fun hNodup => ?_⟩
  rcases hCode with ⟨server, hServer, hServerCode⟩
  constructor
  · rw [hShows.servers, hShows.operator]
    intro v hMem
    rcases List.mem_map.mp hMem with ⟨s, hs, rfl⟩
    rw [Rules.owner_operatorServer, Rules.memberKey_memberId,
      (mem_operatorServers.mp hs).2.1]
  · exact hNodup
  · rw [hShows.management, hShows.operator, Rules.part,
      hGet]
    simp [managementParts, List.lookup_cons, Registry.operator]
  · rw [hShows.management, hShows.servers, Rules.text, hGet,
      List.map_map]
    refine List.mem_map.mpr ⟨server,
      mem_operatorServers.mpr hServer, ?_⟩
    simp [managementParts, Json.asString?, List.lookup_cons,
      hServerCode]

/- The form of what the second version shows. -/
theorem accepts_privatePartsV2_iff
    {now : Instant}
    {r : Registry}
    {code : String}
    (hNow : now.IsPlain)
    (hParts : HasPrivateParts r)
    (hSome : ∃ s, IsOperatorServer r s) :
    (∀ p ∈ Schema.privateV2.zip
        (Document.envelopeMembers .v2 now ++
          privatePartsV2 r code),
      Schema.Accepts p.1.2 p.2.2) ↔
    Schema.IsCode r.instanceIdentifier ∧
    (∀ s, IsOperatorServer r s →
      Schema.IsCode s.serverCode ∧ s.address ≠ "") ∧
    (∀ s ∈ r.configurationSources,
      Schema.IsUrl s.downloadUrl ∧
        ∀ c ∈ s.verificationCerts, c.bytes ≠ []) ∧
    (Schema.IsUrl
      r.managementService.authCertRegServiceAddress ∧
      r.managementService.authCertRegServiceCert.bytes ≠
        []) ∧
    Schema.IsCode code := by
  have hAnchorForm :
      Schema.Accepts Schema.anchorV2
          (anchorJson allCerts r) ↔ _ :=
    accepts_anchor_iff showsSource_allCerts hParts
  have hServersForm := accepts_operatorServers_iff hSome
  have hManagementForm :
      Schema.Accepts (Schema.recordOf Schema.managementV2)
          (.ofMembers
            (managementParts r.managementService ++
              [ ("managementRequestServiceServerCode",
                  .string code) ])) ↔
        (Schema.IsUrl
          r.managementService.authCertRegServiceAddress ∧
          r.managementService.authCertRegServiceCert.bytes ≠
            []) ∧ Schema.IsCode code := by
    rw [Schema.accepts_recordOf_iff rfl
      (by simp [managementParts])]
    simp [Schema.managementV2, Schema.managementV1,
      managementParts, Schema.accepts_url_iff,
      Schema.IsUrl, Schema.accepts_certificate_iff,
      Schema.accepts_clientId, Schema.accepts_code_iff,
      and_assoc]
  have hInterval := accepts_seconds hParts.interval
  apply (Schema.accepts_envelope_append_iff .v2 hNow).trans
  simp only [List.zip_cons_cons, List.zip_nil_right,
    List.forall_mem_cons, List.not_mem_nil, false_implies,
    implies_true, and_true, hAnchorForm, hServersForm,
    hManagementForm, hInterval,
    Schema.accepts_memberId, true_and]

theorem validateDocument_privateV2_iff
    {now : Instant}
    {r : Registry}
    {code : String}
    (hNow : now.IsPlain)
    (hParts : HasPrivateParts r)
    (hCode : ∃ s, IsOperatorServer r s ∧
      s.serverCode = code) :
    Validation.validateDocument .v2
        (Document.new .privateParameters .v2 now
          (Table.ofList (privatePartsV2 r code))) = .ok () ↔
      r.HasValidParts
          ConfigurationSource.verificationCerts ∧
        r.HasValidServers := by
  have hLate : Version.v2 ≤ Version.v2 := by decide
  have hSome := hCode.imp fun s hs => hs.1
  have hShows := showsOperator_new r code now
  have hManagement :
      (Json.ofMembers
        (managementParts r.managementService ++
          [ ("managementRequestServiceServerCode",
              .string code) ])).get?
          "authCertRegServiceCert" =
        some r.managementService.authCertRegServiceCert.toJson
          := by
    rw [Json.get?_ofMembers (by simp [managementParts])]
    simp [managementParts, List.lookup_cons]
  rw [Validation.validateDocument_new_eq_ok_iff rfl rfl
      (envelope_privatePartsV2_nodup r code),
    accepts_privatePartsV2_iff hNow hParts hSome,
    Rules.findings, Rules.privateParameters_eq_nil_iff,
    hShows.anchor, hShows.management, hManagement,
    anchor_rules_iff showsSource_allCerts hParts,
    hShows.isAtOperator_iff hCode, ← hasValidParts_iff]
  simp only [hLate, true_implies, Option.mem_def,
    Option.some.injEq, forall_eq',
    Rules.isCertificateText_toJson_iff]
  constructor
  · rintro ⟨⟨hInstance, hServers, hSources, hService, -⟩,
      hCerts, hCert, hDistinct⟩
    exact ⟨⟨⟨hInstance, hSources, hService⟩, hCerts, hCert⟩,
      fun s hs => (hServers s hs).1,
      fun s hs => (hServers s hs).2, hDistinct⟩
  · rintro ⟨⟨⟨hInstance, hSources, hService⟩, hCerts, hCert⟩,
      hCodes, hAddresses, hDistinct⟩
    rcases hCode with ⟨server, hServer, rfl⟩
    exact ⟨⟨hInstance,
      fun s hs => ⟨hCodes s hs, hAddresses s hs⟩, hSources,
      hService, hCodes server hServer⟩, hCerts, hCert,
      hDistinct⟩

end Content

------------------------------------------------------------
-- Faults
------------------------------------------------------------

namespace Content

/-
  A fault that names a source names one, by its place in the
  registry, that has no certificate, and with all else in
  order there is no other fault.
-/
structure BlamesSource
    (r : Registry)
    (otherwise : Prop)
    (fault : GenerationFault) : Prop where
  named : ∀ i, fault = .noCertificate i →
    fault.path = s!"configurationSources[{i}]" ∧
      ∃ s, r.configurationSources[i]? = some s ∧
        s.verificationCerts = []
  only : otherwise → ∃ i, fault = .noCertificate i

/- What private parameters ask for before any source. -/
def HasSourcesAndInterval (r : Registry) : Prop :=
  r.configurationSources ≠ [] ∧
    r.globalSettings.timeStampingIntervalSeconds ≠ 0

theorem privateSteps_blamesSource
    {render : CertificateBytes → List CertificateBytes →
      String × Json}
    {r : Registry}
    {finish : Json → Json → Json.Members}
    {fault : GenerationFault}
    (hError :
      (do
        requireSources r
        let interval ← timestampingInterval r
        let anchor ← anchorSources render r
        return finish interval anchor :
          Except GenerationFault Json.Members) =
        .error fault) :
    BlamesSource r (HasSourcesAndInterval r) fault := by
  rcases privateSteps_eq_error hError with
    ⟨hNone, rfl⟩ | ⟨hZero, rfl⟩ | ⟨i, s, hPlace, hCerts, rfl⟩
  · constructor
    · intro i hSame
      cases hSame
    · rintro ⟨hSome, -⟩
      exact absurd hNone hSome
  · constructor
    · intro i hSame
      cases hSame
    · rintro ⟨-, hPositive⟩
      exact absurd hZero hPositive
  · constructor
    · intro j hSame
      have hIndex : i = j :=
        GenerationFault.noCertificate.inj hSame
      subst hIndex
      exact ⟨rfl, s, hPlace, hCerts⟩
    · intro _
      exact ⟨i, rfl⟩

theorem privateV2_blamesSource
    {r : Registry}
    {fault : GenerationFault}
    (hError : privateV2 r = .error fault) :
    BlamesSource r
      (HasSourcesAndInterval r ∧ HasManagementServer r)
      fault := by
  unfold privateV2 at hError
  cases hCode : managementServer r with
  | error inner =>
      rw [hCode] at hError
      have hSame : inner = fault := Except.error.inj hError
      subst hSame
      rcases managementServer_eq_error hCode with ⟨hNot, hOther⟩
      constructor
      · intro i hSame
        exact absurd hSame (hOther i)
      · rintro ⟨-, hServer⟩
        exact absurd hServer hNot
  | ok code =>
      rw [hCode] at hError
      have hBlames := privateSteps_blamesSource hError
      exact ⟨hBlames.named, fun h => hBlames.only h.1⟩

end Content

theorem Generator.generate_ofContent_eq_error
    {version : Version}
    {content : DocumentKind → Registry →
      Except GenerationFault Json.Members}
    {kind : DocumentKind}
    {now : Instant}
    {r : Registry}
    {e : GenerationError}
    (hError :
      (ofContent version content).generate kind now r =
        .error e) :
    content kind r = .error e.fault := by
  simp only [ofContent] at hError
  cases hContent : content kind r with
  | ok members => simp [hContent] at hError
  | error fault =>
      simp only [hContent, Except.error.injEq] at hError
      rw [← hError]

------------------------------------------------------------
-- Generators
------------------------------------------------------------

theorem Generator.valid_generated_privateV1
    {now : Instant}
    {r : Registry}
    {d : Document .privateParameters}
    (hNow : now.IsPlain)
    (hGenerate :
      v1.generate .privateParameters now r = .ok d) :
    (∃ digest, d.digest = .ok digest) ∧
      (v1.validate .privateParameters d = .ok () ↔
        r.HasValidParts Content.firstCerts) := by
  rcases generate_ofContent_iff.mp hGenerate with
    ⟨members, hContent, rfl⟩
  rcases Content.privateV1_eq_ok_iff.mp hContent with
    ⟨hParts, hMembers⟩
  clear hGenerate hContent
  subst hMembers
  refine ⟨Document.digest_new_isOk .privateParameters .v1 now
    (Content.isExact_privatePartsV1 r), ?_⟩
  have hJudge : v1.validate .privateParameters =
      Validation.validateDocument .v1 :=
    rfl
  rw [hJudge]
  exact Content.validateDocument_privateV1_iff hNow hParts

theorem Generator.valid_generated_privateV2
    {now : Instant}
    {r : Registry}
    {d : Document .privateParameters}
    (hNow : now.IsPlain)
    (hGenerate :
      v2.generate .privateParameters now r = .ok d) :
    (∃ digest, d.digest = .ok digest) ∧
      (v2.validate .privateParameters d = .ok () ↔
        r.HasValidParts
            ConfigurationSource.verificationCerts ∧
          r.HasValidServers) := by
  rcases generate_ofContent_iff.mp hGenerate with
    ⟨members, hContent, rfl⟩
  rcases Content.privateV2_eq_ok_iff.mp hContent with
    ⟨hParts, code, hCode, hMembers⟩
  clear hGenerate hContent
  subst hMembers
  refine ⟨Document.digest_new_isOk .privateParameters .v2 now
    (Content.isExact_privatePartsV2 r code), ?_⟩
  have hJudge : v2.validate .privateParameters =
      Validation.validateDocument .v2 :=
    rfl
  rw [hJudge]
  exact Content.validateDocument_privateV2_iff hNow hParts
    (Content.managementServer_eq_ok hCode).2

/- What both steps ask for is generated and valid. -/
theorem Generator.exists_valid_privateV2
    {now : Instant}
    {r : Registry}
    (hNow : now.IsPlain)
    (hParts : Content.HasPrivateParts r)
    (hServer : Content.HasManagementServer r)
    (hValid :
      r.HasValidParts ConfigurationSource.verificationCerts)
    (hServers : r.HasValidServers) :
    ∃ d, v2.generate .privateParameters now r = .ok d ∧
      v2.validate .privateParameters d = .ok () := by
  rcases Content.exists_privateV2_iff.mpr ⟨hParts, hServer⟩
    with ⟨members, hContent⟩
  have hGenerate : v2.generate .privateParameters now r =
      .ok _ :=
    generate_ofContent_iff.mpr ⟨members, hContent, rfl⟩
  exact ⟨_, hGenerate,
    (valid_generated_privateV2 hNow hGenerate).2.mpr
      ⟨hValid, hServers⟩⟩

------------------------------------------------------------
-- The Small Registry
------------------------------------------------------------

namespace Registry

theorem isOperatorServer_small_iff
    {s : SecurityServer} :
    Content.IsOperatorServer (small .small) s ↔
      s = .small .small := by
  constructor
  · exact fun hServer => List.mem_singleton.mp hServer.1
  · rintro rfl
    exact ⟨List.mem_singleton.mpr rfl, rfl, by decide⟩

theorem hasPrivateParts_small :
    Content.HasPrivateParts (small .small) :=
  ⟨by simp [small], by decide,
    List.forall_mem_singleton.mpr (by simp)⟩

theorem hasManagementServer_small :
    Content.HasManagementServer (small .small) :=
  ⟨⟨_, isOperatorServer_small_iff.mpr rfl⟩, by simp [small]⟩

theorem hasValidParts_small :
    (small .small).HasValidParts
      ConfigurationSource.verificationCerts := by
  have hDer : CertificateBytes.small.IsDer :=
    CertificateBytes.isSome_ofDer?_small
  have hSource : Schema.IsUrl "http://c" := by
    unfold Schema.IsUrl
    decide
  have hAddress : Schema.IsUrl "http://m" := by
    unfold Schema.IsUrl
    decide
  exact ⟨⟨by decide, by decide⟩,
    List.forall_mem_singleton.mpr hSource,
    List.forall_mem_singleton.mpr
      (List.forall_mem_singleton.mpr hDer),
    hAddress, hDer⟩

theorem hasValidServers_small :
    (small .small).HasValidServers where
  codes s hs := by
    rw [isOperatorServer_small_iff.mp hs]
    exact ⟨by decide, by decide⟩
  addresses s hs := by
    rw [isOperatorServer_small_iff.mp hs]
    decide
  distinct := (List.filter_sublist.map _).nodup
    (List.nodup_singleton _)

end Registry

------------------------------------------------------------
-- Private Parameters
------------------------------------------------------------

/-
  Private parameters are generated if there are sources, each
  with a certificate, and an interval, and in the second
  version a server for the management service. Else a source
  is named by its place in the registry. What is generated
  has a digest, and is valid for just the registries whose
  parts are.
-/
theorem Generator.generated_private_iff
    {now : Instant}
    (hNow : now.IsPlain)
    (r : Registry) :
    (((∃ d, v1.generate .privateParameters now r = .ok d) ↔
        Content.HasPrivateParts r) ∧
      ((∃ d, v2.generate .privateParameters now r = .ok d) ↔
        Content.HasPrivateParts r ∧
          Content.HasManagementServer r)) ∧
    ((∀ e, v1.generate .privateParameters now r = .error e →
        Content.BlamesSource r
          (Content.HasSourcesAndInterval r) e.fault) ∧
      (∀ e, v2.generate .privateParameters now r = .error e →
        Content.BlamesSource r
          (Content.HasSourcesAndInterval r ∧
            Content.HasManagementServer r) e.fault)) ∧
    (∀ d, v1.generate .privateParameters now r = .ok d →
      (∃ digest, d.digest = .ok digest) ∧
      (v1.validate .privateParameters d = .ok () ↔
        r.HasValidParts Content.firstCerts)) ∧
    (∀ d, v2.generate .privateParameters now r = .ok d →
      (∃ digest, d.digest = .ok digest) ∧
      (v2.validate .privateParameters d = .ok () ↔
        r.HasValidParts
            ConfigurationSource.verificationCerts ∧
          r.HasValidServers)) := by
  refine ⟨⟨?_, ?_⟩, ⟨?_, ?_⟩, ?_, ?_⟩
  · apply exists_generate_ofContent_iff.trans
    constructor
    · rintro ⟨_, hContent⟩
      exact (Content.privateV1_eq_ok_iff.mp hContent).1
    · intro hParts
      exact ⟨_, Content.privateV1_eq_ok_iff.mpr
        ⟨hParts, rfl⟩⟩
  · exact exists_generate_ofContent_iff.trans
      Content.exists_privateV2_iff
  · intro e hError
    exact Content.privateSteps_blamesSource
      (generate_ofContent_eq_error hError)
  · intro e hError
    exact Content.privateV2_blamesSource
      (generate_ofContent_eq_error hError)
  · intro d hGenerate
    exact valid_generated_privateV1 hNow hGenerate
  · intro d hGenerate
    exact valid_generated_privateV2 hNow hGenerate

/-
  At the start of 2025 the small registry has private
  parameters of the second version, and they are valid.
-/
theorem Generator.generated_private_small :
    Instant.IsPlain ⟨1735689600, 0⟩ ∧
    ∃ d, Generator.v2.generate .privateParameters
        ⟨1735689600, 0⟩ (Registry.small .small) = .ok d ∧
      Generator.v2.validate .privateParameters d =
        .ok () := by
  have hNow : Instant.IsPlain ⟨1735689600, 0⟩ :=
    ⟨by decide, by decide⟩
  rcases generated_private_iff hNow (Registry.small .small) with
    ⟨⟨-, hGenerate⟩, -, -, hValid⟩
  rcases hGenerate.mpr
    ⟨Registry.hasPrivateParts_small,
      Registry.hasManagementServer_small⟩ with
    ⟨d, hDocument⟩
  exact ⟨hNow, d, hDocument, (hValid d hDocument).2.mpr
    ⟨Registry.hasValidParts_small,
      Registry.hasValidServers_small⟩⟩

end Federation
