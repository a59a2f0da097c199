import Federation.Generation.Generator
import Federation.Proofs.Sorting
import Federation.Proofs.Table

/-
  When the documents of the library's own versions are
  generated, and the members that they then have.

  Main declarations:
    * `Generator.generate_ofContent_iff`
    * `Document.toJson_new_perm`
    * `Content.shared_eq_ok_iff`
    * `Content.anchorSources_eq_ok_iff`
    * `Content.anchorSources_eq_error`
    * `Content.privateSteps_eq_ok_iff`
    * `Registry.small`
-/

namespace Federation

------------------------------------------------------------
-- Documents
------------------------------------------------------------

theorem Generator.generate_ofContent_iff
    {version : Version}
    {content : DocumentKind → Registry →
      Except GenerationFault Json.Members}
    {kind : DocumentKind}
    {now : Instant}
    {r : Registry}
    {d : Document kind} :
    (Generator.ofContent version content).generate kind now
        r = .ok d ↔
      ∃ members, content kind r = .ok members ∧
        d = Document.new kind version now members := by
  simp only [Generator.ofContent]
  cases content kind r with
  | error fault => simp
  | ok members =>
      simp only [Except.ok.injEq]
      constructor
      · rintro rfl
        exact ⟨members, rfl, rfl⟩
      · rintro ⟨_, rfl, rfl⟩
        rfl

theorem Generator.exists_generate_ofContent_iff
    {version : Version}
    {content : DocumentKind → Registry →
      Except GenerationFault Json.Members}
    {kind : DocumentKind}
    {now : Instant}
    {r : Registry} :
    (∃ d, (Generator.ofContent version content).generate kind
        now r = .ok d) ↔
      ∃ members, content kind r = .ok members := by
  constructor
  · rintro ⟨d, hGenerate⟩
    rcases generate_ofContent_iff.mp hGenerate with
      ⟨members, hMembers, -⟩
    exact ⟨members, hMembers⟩
  · rintro ⟨members, hMembers⟩
    exact ⟨_, generate_ofContent_iff.mpr
      ⟨members, hMembers, rfl⟩⟩

/- A value of parts under different keys is what they say. -/
theorem Json.get?_ofMembers
    {parts : List (String × Json)}
    (hKeys : (parts.map Prod.fst).Nodup)
    (key : String) :
    (Json.ofMembers parts).get? key = parts.lookup key :=
  Table.lookup_ofList hKeys key

namespace Document

/- The members around a document's content. -/
def envelopeMembers
    (version : Version)
    (now : Instant) : List (String × Json) :=
  [ ("version", version.toJson),
    ("generatedAt", .string now.truncate.display) ]

/- Parts that are not of the envelope stay as they are. -/
theorem new_content
    {parts : List (String × Json)}
    (kind : DocumentKind)
    (version : Version)
    (now : Instant)
    (hKeys :
      (envelopeKeys ++ parts.map Prod.fst).Nodup) :
    (Document.new kind version now
      (Table.ofList parts)).content = Table.ofList parts := by
  rcases List.nodup_append.mp hKeys with ⟨-, _, hDisjoint⟩
  apply List.filter_eq_self.mpr
  rintro ⟨key, value⟩ hMem
  have hPart := List.mem_map_of_mem
    (f := Prod.fst) (Table.mem_of_mem_ofList hMem)
  have hKey : key ∉ envelopeKeys := fun hEnvelope =>
    hDisjoint key hEnvelope key hPart rfl
  simpa using hKey

/-
  A new document is the object of its envelope and of the
  parts that its content is the table of.
-/
theorem toJson_new_perm
    {parts : List (String × Json)}
    (kind : DocumentKind)
    (version : Version)
    (now : Instant)
    (hKeys :
      (envelopeKeys ++ parts.map Prod.fst).Nodup) :
    ∃ members : Json.Members,
      (Document.new kind version now
        (Table.ofList parts)).toJson = .object members ∧
      members.Perm (envelopeMembers version now ++ parts) ∧
      (members.map Prod.fst).Nodup := by
  rcases List.nodup_append.mp hKeys with ⟨-, hParts, _⟩
  have hTable := Table.ofList_perm hParts
  have hContent := new_content kind version now hKeys
  have hMembers :
      (Document.new kind version now
        (Table.ofList parts)).members.Perm
        (envelopeMembers version now ++ parts) := by
    simp only [Document.members, hContent]
    exact ((hTable.cons _).cons _)
  have hNodup :
      ((Document.new kind version now
        (Table.ofList parts)).members.map Prod.fst).Nodup := by
    apply ((hMembers.map Prod.fst).nodup_iff).mpr
    simpa [envelopeMembers, envelopeKeys] using hKeys
  have hObject := Table.ofList_perm hNodup
  exact ⟨_, rfl, hObject.trans hMembers,
    ((hObject.map Prod.fst).nodup_iff).mpr hNodup⟩

/- A part of a new document is found under its key. -/
theorem get?_toJson_new
    {parts : List (String × Json)}
    (kind : DocumentKind)
    (version : Version)
    (now : Instant)
    (hKeys :
      (envelopeKeys ++ parts.map Prod.fst).Nodup)
    (key : String) :
    (Document.new kind version now
        (Table.ofList parts)).toJson.get? key =
      (envelopeMembers version now ++ parts).lookup key := by
  rcases toJson_new_perm kind version now hKeys with
    ⟨members, hObject, hPerm, hNodup⟩
  rw [hObject, Json.get?]
  exact Table.lookup_perm hPerm hNodup key

end Document

namespace Content

------------------------------------------------------------
-- Shared Parameters
------------------------------------------------------------

theorem positiveSeconds_eq_ok_iff
    {setting : String}
    {seconds : UInt64}
    {v : Json} :
    positiveSeconds setting seconds = .ok v ↔
      seconds ≠ 0 ∧ v = .ofNat seconds.toNat := by
  unfold positiveSeconds
  by_cases hZero : seconds = 0
  · simp [hZero]
  · simp [hZero, eq_comm]

/- The parts of shared parameters, before they are ordered. -/
def sharedParts
    (render : CertificationAuthority → Json)
    (settings : Json.Members)
    (r : Registry) : List (String × Json) :=
  [ ("instanceIdentifier", .string r.instanceIdentifier),
    ("approvedCAs", authorities render r),
    ("approvedTSAs", timestamping r),
    ("members", members r),
    ("securityServers", securityServers r),
    ("globalGroups", globalGroups r),
    ("globalSettings",
      .ofMembers
        (("ocspFreshnessSeconds",
          .ofNat r.globalSettings.ocspFreshnessSeconds.toNat)
          :: settings)) ]

theorem shared_eq_ok_iff
    {render : CertificationAuthority → Json}
    {settings : Json.Members}
    {r : Registry}
    {content : Json.Members} :
    shared render settings r = .ok content ↔
      r.globalSettings.ocspFreshnessSeconds ≠ 0 ∧
        content =
          Table.ofList (sharedParts render settings r) := by
  unfold shared ocspFreshness
  cases hSeconds :
      positiveSeconds "ocspFreshnessSeconds"
        r.globalSettings.ocspFreshnessSeconds with
  | error fault =>
      have hZero :
          r.globalSettings.ocspFreshnessSeconds = 0 := by
        apply Decidable.byContradiction
        intro hNe
        simp [positiveSeconds, hNe] at hSeconds
      simp [bind, Except.bind, hZero]
  | ok v =>
      rcases positiveSeconds_eq_ok_iff.mp hSeconds with
        ⟨hNe, rfl⟩
      simp [bind, Except.bind, pure, Except.pure, hNe,
        sharedParts, eq_comm]

------------------------------------------------------------
-- Configuration Sources
------------------------------------------------------------

section Sources

variable
  {render : CertificateBytes → List CertificateBytes →
    String × Json}

/- A source as it is shown if it has a certificate. -/
def sourceJson
    (render : CertificateBytes → List CertificateBytes →
      String × Json)
    (s : ConfigurationSource) : Json :=
  match s.verificationCerts with
  | [] => .null
  | cert :: certs =>
      .ofMembers
        [ ("downloadUrl", .string s.downloadUrl),
          render cert certs ]

theorem anchorSource_eq
    (render : CertificateBytes → List CertificateBytes →
      String × Json)
    (entry : ConfigurationSource × Nat) :
    anchorSource render entry =
      if entry.1.verificationCerts = [] then
        .error (.noCertificate entry.2)
      else .ok (sourceJson render entry.1) := by
  unfold anchorSource sourceJson
  cases entry.1.verificationCerts <;> simp

theorem mapM_anchorSource_eq_ok_iff
    (render : CertificateBytes → List CertificateBytes →
      String × Json)
    {entries : List (ConfigurationSource × Nat)}
    {shown : List Json} :
    entries.mapM (anchorSource render) = .ok shown ↔
      (∀ entry ∈ entries,
        entry.1.verificationCerts ≠ []) ∧
      shown =
        entries.map fun entry =>
          sourceJson render entry.1 := by
  induction entries generalizing shown with
  | nil =>
      simp [pure, Except.pure, eq_comm]
  | cons entry rest ih =>
      rw [List.mapM_cons, anchorSource_eq]
      by_cases hNone : entry.1.verificationCerts = []
      · simp [hNone, bind, Except.bind]
      · cases hRest : rest.mapM (anchorSource render) with
        | error fault =>
            have hNot : ¬ ∀ e ∈ rest,
                e.1.verificationCerts ≠ [] := by
              intro hAll
              have hOk := ih.mpr ⟨hAll, rfl⟩
              rw [hRest] at hOk
              cases hOk
            simp only [hNone, if_false, bind, Except.bind,
              List.mem_cons, forall_eq_or_imp, hNot,
              and_false, false_and, reduceCtorEq]
        | ok items =>
            rcases ih.mp hRest with ⟨hAll, rfl⟩
            simp only [hNone, if_false, bind, Except.bind,
              pure, Except.pure, Except.ok.injEq,
              List.mem_cons, forall_eq_or_imp, ne_eq,
              not_false_eq_true, true_and, List.map_cons]
            constructor
            · intro hItems
              exact ⟨hAll, hItems.symm⟩
            · rintro ⟨-, hItems⟩
              exact hItems.symm

/- A fault names a source that has no certificate. -/
theorem mapM_anchorSource_eq_error
    {entries : List (ConfigurationSource × Nat)}
    {fault : GenerationFault}
    (hError : entries.mapM (anchorSource render) =
      .error fault) :
    ∃ entry ∈ entries, entry.1.verificationCerts = [] ∧
      fault = .noCertificate entry.2 := by
  induction entries with
  | nil => cases hError
  | cons entry rest ih =>
      rw [List.mapM_cons, anchorSource_eq] at hError
      by_cases hNone : entry.1.verificationCerts = []
      · rw [if_pos hNone] at hError
        exact ⟨entry, List.mem_cons_self, hNone,
          (Except.error.inj hError).symm⟩
      · cases hRest : rest.mapM (anchorSource render) with
        | ok items =>
            simp [hNone, hRest, bind, Except.bind, pure,
              Except.pure] at hError
        | error inner =>
            rw [if_neg hNone, hRest] at hError
            have hSame : inner = fault :=
              Except.error.inj hError
            rcases ih (hSame ▸ hRest) with ⟨found, hMem, hFound⟩
            exact ⟨found, List.mem_cons_of_mem _ hMem,
              hFound⟩

theorem mem_sortedSources
    {r : Registry}
    {entry : ConfigurationSource × Nat} :
    entry ∈ sortedSources r ↔
      r.configurationSources[entry.2]? = some entry.1 := by
  rw [sortedSources, sortByText, mem_sortBy,
    List.mem_zipIdx_iff_getElem?]

/- A source is among the sorted ones, whatever its place. -/
theorem forall_sortedSources_iff
    {r : Registry}
    {P : ConfigurationSource → Prop} :
    (∀ entry ∈ sortedSources r, P entry.1) ↔
      ∀ s ∈ r.configurationSources, P s := by
  constructor
  · intro hAll s hMem
    rcases List.mem_iff_getElem?.mp hMem with ⟨i, hi⟩
    exact hAll (s, i) (mem_sortedSources.mpr hi)
  · intro hAll entry hMem
    exact hAll entry.1
      (List.mem_iff_getElem?.mpr
        ⟨entry.2, mem_sortedSources.mp hMem⟩)

/- The anchor of the sources in order. -/
def anchorJson
    (render : CertificateBytes → List CertificateBytes →
      String × Json)
    (r : Registry) : Json :=
  .ofMembers
    [ ("sources",
        .array
          ((sortedSources r).map fun entry =>
            sourceJson render entry.1)) ]

theorem anchorSources_eq_ok_iff
    (render : CertificateBytes → List CertificateBytes →
      String × Json)
    {r : Registry}
    {anchor : Json} :
    anchorSources render r = .ok anchor ↔
      (∀ s ∈ r.configurationSources,
        s.verificationCerts ≠ []) ∧
      anchor = anchorJson render r := by
  unfold anchorSources
  rw [← forall_sortedSources_iff]
  cases hSources :
      (sortedSources r).mapM (anchorSource render) with
  | error fault =>
      have hNot : ¬ ∀ entry ∈ sortedSources r,
          entry.1.verificationCerts ≠ [] := by
        intro hAll
        have hOk :=
          (mapM_anchorSource_eq_ok_iff render).mpr ⟨hAll, rfl⟩
        rw [hSources] at hOk
        cases hOk
      simp only [bind, Except.bind, hNot, false_and,
        reduceCtorEq]
  | ok items =>
      rcases
          (mapM_anchorSource_eq_ok_iff render).mp hSources with
        ⟨hAll, rfl⟩
      simp only [bind, Except.bind, pure, Except.pure,
        Except.ok.injEq]
      constructor
      · intro hAnchor
        exact ⟨hAll, hAnchor.symm⟩
      · rintro ⟨-, hAnchor⟩
        exact hAnchor.symm

/-
  A fault of the sources names the place, in the order of the
  registry, of a source without a certificate.
-/
theorem anchorSources_eq_error
    {r : Registry}
    {fault : GenerationFault}
    (hError : anchorSources render r = .error fault) :
    ∃ i s, r.configurationSources[i]? = some s ∧
      s.verificationCerts = [] ∧
      fault = .noCertificate i := by
  unfold anchorSources at hError
  cases hSources :
      (sortedSources r).mapM (anchorSource render) with
  | ok items =>
      simp [hSources, bind, Except.bind, pure,
        Except.pure] at hError
  | error inner =>
      rw [hSources] at hError
      have hSame : inner = fault := Except.error.inj hError
      rcases mapM_anchorSource_eq_error hSources with
        ⟨entry, hMem, hNone, hFault⟩
      exact ⟨entry.2, entry.1, mem_sortedSources.mp hMem,
        hNone, hSame ▸ hFault⟩

end Sources

------------------------------------------------------------
-- The Operator's Servers
------------------------------------------------------------

/- A server of the operator with a certificate. -/
def IsOperatorServer
    (r : Registry)
    (s : SecurityServer) : Prop :=
  s ∈ r.securityServers ∧ s.owner = r.operator ∧
    s.authCerts ≠ []

@[simp] theorem mem_operatorServers
    {r : Registry}
    {s : SecurityServer} :
    s ∈ operatorServers r ↔ IsOperatorServer r s := by
  simp [operatorServers, sortServers, IsOperatorServer]

/-
  The operator has a server with a certificate, and the code
  that is registered for the management service, if there is
  one, belongs to such a server.
-/
def HasManagementServer (r : Registry) : Prop :=
  (∃ s, IsOperatorServer r s) ∧
    ∀ code ∈ r.managementService.securityServer,
      ∃ s, IsOperatorServer r s ∧ s.serverCode = code

/- The management service is at a server of the operator. -/
theorem managementServer_eq_ok
    {r : Registry}
    {code : String}
    (hCode : managementServer r = .ok code) :
    HasManagementServer r ∧
      ∃ s, IsOperatorServer r s ∧ s.serverCode = code := by
  unfold managementServer at hCode
  cases hServers : operatorServers r with
  | nil => simp [hServers] at hCode
  | cons first rest =>
      have hFirst : IsOperatorServer r first :=
        mem_operatorServers.mp (hServers ▸ List.mem_cons_self)
      unfold HasManagementServer
      rw [hServers] at hCode
      cases hWanted :
          r.managementService.securityServer with
      | none =>
          rw [hWanted] at hCode
          exact ⟨⟨⟨first, hFirst⟩, by simp⟩,
            first, hFirst, Except.ok.inj hCode⟩
      | some wanted =>
          simp only [hWanted] at hCode
          split at hCode
          · rename_i hAny
            have hSame : wanted = code :=
              Except.ok.inj hCode
            rcases List.any_eq_true.mp hAny with
              ⟨s, hMem, hEqual⟩
            have hServer : IsOperatorServer r s :=
              mem_operatorServers.mp (hServers ▸ hMem)
            have hServerCode : s.serverCode = wanted := by
              simpa using hEqual
            refine ⟨⟨⟨first, hFirst⟩, ?_⟩, s, hServer,
              hServerCode.trans hSame⟩
            intro other hOther
            rcases Option.mem_some.mp hOther with rfl
            exact ⟨s, hServer, hServerCode⟩
          · cases hCode

theorem managementServer_isOk
    {r : Registry}
    (hManagement : HasManagementServer r) :
    ∃ code, managementServer r = .ok code := by
  rcases hManagement with ⟨⟨some, hSome⟩, hWantedAll⟩
  unfold managementServer
  cases hServers : operatorServers r with
  | nil =>
      have hMem := mem_operatorServers.mpr hSome
      simp [hServers] at hMem
  | cons first rest =>
      cases hWanted :
          r.managementService.securityServer with
      | none => exact ⟨_, rfl⟩
      | some wanted =>
          rcases hWantedAll wanted (by simp [hWanted]) with
            ⟨s, hServer, hCode⟩
          have hMem : s ∈ first :: rest :=
            hServers ▸ mem_operatorServers.mpr hServer
          have hAny : (first :: rest).any
              (fun s => s.serverCode == wanted) = true :=
            List.any_eq_true.mpr ⟨s, hMem, by simp [hCode]⟩
          simp only [hAny, if_true]
          exact ⟨_, rfl⟩

------------------------------------------------------------
-- Private Parameters
------------------------------------------------------------

/- What private parameters of every version ask of a registry. -/
structure HasPrivateParts (r : Registry) : Prop where
  sources : r.configurationSources ≠ []
  interval : r.globalSettings.timeStampingIntervalSeconds ≠ 0
  certificates :
    ∀ s ∈ r.configurationSources, s.verificationCerts ≠ []

/- The parts of private parameters, before they are ordered. -/
def privatePartsV1 (r : Registry) : List (String × Json) :=
  [ ("instanceIdentifier", .string r.instanceIdentifier),
    ("configurationAnchor", anchorJson firstCert r),
    ("managementService",
      .ofMembers (managementParts r.managementService)),
    ("timeStampingIntervalSeconds",
      .ofNat
        r.globalSettings.timeStampingIntervalSeconds.toNat) ]

/- Those of the second version, for a management server. -/
def privatePartsV2
    (r : Registry)
    (code : String) : List (String × Json) :=
  [ ("instanceIdentifier", .string r.instanceIdentifier),
    ("operator", r.operator.toJson),
    ("securityServers",
      Json.ofList operatorServer (operatorServers r)),
    ("configurationAnchor", anchorJson allCerts r),
    ("managementService",
      .ofMembers
        (managementParts r.managementService ++
          [ ("managementRequestServiceServerCode",
              .string code) ])),
    ("timeStampingIntervalSeconds",
      .ofNat
        r.globalSettings.timeStampingIntervalSeconds.toNat) ]

/-
  The steps that every version has: sources are registered,
  the interval is not zero, and each source is shown.
-/
theorem privateSteps_eq_ok_iff
    (render : CertificateBytes → List CertificateBytes →
      String × Json)
    {r : Registry}
    {finish : Json → Json → Json.Members}
    {content : Json.Members} :
    (do
      requireSources r
      let interval ← timestampingInterval r
      let anchor ← anchorSources render r
      return finish interval anchor :
        Except GenerationFault Json.Members) = .ok content ↔
      HasPrivateParts r ∧
        content = finish
          (.ofNat
            r.globalSettings.timeStampingIntervalSeconds.toNat)
          (anchorJson render r) := by
  constructor
  · intro hOk
    unfold requireSources at hOk
    by_cases hNone : r.configurationSources = []
    · simp [hNone, bind, Except.bind] at hOk
    · cases hInterval : timestampingInterval r with
      | error fault =>
          simp [hNone, hInterval, bind, Except.bind] at hOk
      | ok interval =>
          cases hAnchor : anchorSources render r with
          | error fault =>
              simp [hNone, hInterval, hAnchor, bind,
                Except.bind] at hOk
          | ok anchor =>
              rcases positiveSeconds_eq_ok_iff.mp hInterval with
                ⟨hPositive, rfl⟩
              rcases
                  (anchorSources_eq_ok_iff render).mp hAnchor with
                ⟨hCerts, rfl⟩
              simp only [List.isEmpty_iff, hNone, if_false,
                hInterval, hAnchor, bind, Except.bind, pure,
                Except.pure, Except.ok.injEq] at hOk
              exact ⟨⟨hNone, hPositive, hCerts⟩, hOk.symm⟩
  · rintro ⟨⟨hSome, hPositive, hCerts⟩, rfl⟩
    have hInterval : timestampingInterval r = .ok _ :=
      positiveSeconds_eq_ok_iff.mpr ⟨hPositive, rfl⟩
    have hAnchor :=
      (anchorSources_eq_ok_iff render).mpr ⟨hCerts, rfl⟩
    simp [requireSources, List.isEmpty_iff, hSome, hInterval,
      hAnchor, bind, Except.bind, pure, Except.pure]

theorem privateV1_eq_ok_iff
    {r : Registry}
    {content : Json.Members} :
    privateV1 r = .ok content ↔
      HasPrivateParts r ∧
        content = Table.ofList (privatePartsV1 r) :=
  privateSteps_eq_ok_iff firstCert

theorem privateV2_eq_ok_iff
    {r : Registry}
    {content : Json.Members} :
    privateV2 r = .ok content ↔
      HasPrivateParts r ∧
        ∃ code, managementServer r = .ok code ∧
          content = Table.ofList (privatePartsV2 r code) := by
  unfold privateV2
  cases hCode : managementServer r with
  | error fault => simp [bind, Except.bind]
  | ok code =>
      simp only [Except.ok.injEq, exists_eq_left']
      exact privateSteps_eq_ok_iff allCerts

/- When there are private parameters of the second version. -/
theorem exists_privateV2_iff
    {r : Registry} :
    (∃ content, privateV2 r = .ok content) ↔
      HasPrivateParts r ∧ HasManagementServer r := by
  constructor
  · rintro ⟨content, hContent⟩
    rcases privateV2_eq_ok_iff.mp hContent with
      ⟨hParts, code, hCode, -⟩
    exact ⟨hParts, (managementServer_eq_ok hCode).1⟩
  · rintro ⟨hParts, hManagement⟩
    rcases managementServer_isOk hManagement with
      ⟨code, hCode⟩
    exact ⟨_, privateV2_eq_ok_iff.mpr
      ⟨hParts, code, hCode, rfl⟩⟩

/-
  The faults of these steps: no source is registered, the
  interval is zero, or a source, which is named by its place
  in the registry, has no certificate.
-/
theorem privateSteps_eq_error
    {render : CertificateBytes → List CertificateBytes →
      String × Json}
    {r : Registry}
    {finish : Json → Json → Json.Members}
    {fault : GenerationFault}
    (hError :
      (do
        requireSources r
        let interval ← timestampingInterval r
        let anchor ← anchorSources render r
        return finish interval anchor :
          Except GenerationFault Json.Members) =
        .error fault) :
    (r.configurationSources = [] ∧ fault = .noSource) ∨
    (r.globalSettings.timeStampingIntervalSeconds = 0 ∧
      fault = .noInterval "timeStampingIntervalSeconds") ∨
    ∃ i s, r.configurationSources[i]? = some s ∧
      s.verificationCerts = [] ∧
      fault = .noCertificate i := by
  unfold requireSources timestampingInterval
    positiveSeconds at hError
  by_cases hNone : r.configurationSources = []
  · simp only [hNone, List.isEmpty_nil, if_true, bind,
      Except.bind, Except.error.injEq] at hError
    exact Or.inl ⟨hNone, hError.symm⟩
  · by_cases hZero :
      r.globalSettings.timeStampingIntervalSeconds = 0
    · simp only [List.isEmpty_iff, hNone, if_false, hZero,
        if_true, bind, Except.bind,
        Except.error.injEq] at hError
      exact Or.inr (Or.inl ⟨hZero, hError.symm⟩)
    · cases hAnchor : anchorSources render r with
      | ok anchor =>
          simp [hNone, hZero, hAnchor, bind, Except.bind,
            pure, Except.pure] at hError
      | error inner =>
          simp only [List.isEmpty_iff, hNone, if_false, hZero,
            hAnchor, bind, Except.bind,
            Except.error.injEq] at hError
          exact Or.inr (Or.inr
            (hError ▸ anchorSources_eq_error hAnchor))

/- A fault of the management server is no fault of a source. -/
theorem managementServer_eq_error
    {r : Registry}
    {fault : GenerationFault}
    (hError : managementServer r = .error fault) :
    ¬ HasManagementServer r ∧
      ∀ i, fault ≠ .noCertificate i := by
  constructor
  · intro hManagement
    rcases managementServer_isOk hManagement with ⟨code, hCode⟩
    rw [hCode] at hError
    cases hError
  · rintro i rfl
    unfold managementServer at hError
    split at hError
    · simp at hError
    · split at hError
      · cases hError
      · split at hError <;> simp at hError

end Content

------------------------------------------------------------
-- A Small Registry
------------------------------------------------------------

/- A certificate in binary form. -/
def CertificateBytes.small : CertificateBytes :=
  ⟨[ 48, 103, 48, 90, 160, 3, 2, 1, 2, 2, 1, 1, 48, 5, 6, 3,
      43, 101, 112, 48, 12, 49, 10, 48, 8, 6, 3, 85, 4, 3, 12,
      1, 105, 48, 30, 23, 13, 50, 53, 48, 49, 48, 49, 48, 48,
      48, 48, 48, 48, 90, 23, 13, 51, 53, 48, 49, 48, 49, 48,
      48, 48, 48, 48, 48, 90, 48, 13, 49, 11, 48, 9, 6, 3, 43,
      101, 112, 12, 2, 118, 48, 48, 12, 48, 5, 6, 3, 43, 101,
      112, 3, 3, 0, 1, 2, 48, 5, 6, 3, 43, 101, 112, 3, 2, 0,
      3 ]⟩

theorem CertificateBytes.isSome_ofDer?_small :
    (Certificate.ofDer? small.bytes).isSome = true := by
  decide +kernel

/- The only member of the small registry. -/
def MemberId.small : MemberId :=
  ⟨"COM", "1", by decide, by decide⟩

/- The member's server, with its certificate. -/
def SecurityServer.small
    (auth : CertificateBytes) : SecurityServer where
  owner := .small
  serverCode := "s"
  address := "s.example.org"
  authCerts := [auth]
  clients := []

/-
  A registry with a member, the member's server and a source
  of configuration.
-/
def Registry.small (auth : CertificateBytes) : Registry where
  instanceIdentifier := "EE"
  memberClasses := [⟨"COM", "Commercial"⟩]
  members := [⟨.small, "Acme", []⟩]
  securityServers := [.small auth]
  certificationAuthorities := []
  timestampingAuthorities := []
  globalGroups := []
  configurationSources := [⟨"http://c", [.small]⟩]
  managementService :=
    ⟨"http://m", .small, MemberId.small.asClient, none⟩
  globalSettings := .initial

end Federation
