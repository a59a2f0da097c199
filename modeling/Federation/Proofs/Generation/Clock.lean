import Federation.Proofs.Generation.PrivateParameters

/-
  The instant at which documents are generated shows in their
  envelope only. At another instant the content, the digest
  and, in the years that a document can have, the validity of
  what a generator makes are the same.

  Main declarations:
    * `Rules.findings_congr`
    * `Validation.Lists.validateDocument_of_clock`
    * `Generator.HidesClock`
    * `Generator.hidesClock`
-/

namespace Federation

------------------------------------------------------------
-- Rules
------------------------------------------------------------

/- No rule reads when a document has been generated. -/
theorem Rules.findings_congr
    {d d' : Json}
    (kind : DocumentKind)
    (version : Version)
    (hGet : ∀ key, key ≠ "generatedAt" →
      d.get? key = d'.get? key) :
    findings kind version d = findings kind version d' := by
  have hPart : ∀ key, key ≠ "generatedAt" →
      part key d = part key d' := by
    intro key hKey
    rw [part, part, hGet key hKey]
  have hItems : ∀ key, key ≠ "generatedAt" →
      items key d = items key d' := by
    intro key hKey
    rw [items, items, hGet key hKey]
  cases kind with
  | privateParameters =>
      simp only [findings, privateParameters, sources,
        operatorParts]
      rw [hPart "configurationAnchor" (by decide),
        hPart "managementService" (by decide),
        hPart "operator" (by decide),
        hItems "securityServers" (by decide)]
  | sharedParameters =>
      simp only [findings, sharedParameters, classes,
        declaredClasses, memberClasses]
      rw [hPart "globalSettings" (by decide),
        hItems "members" (by decide),
        hItems "securityServers" (by decide),
        hItems "globalGroups" (by decide),
        hItems "approvedCAs" (by decide),
        hItems "approvedTSAs" (by decide)]

------------------------------------------------------------
-- Validity
------------------------------------------------------------

namespace Validation

variable {kind : DocumentKind} {version : Version}
variable {properties : List (String × Schema)}
variable {parts : List (String × Json)}

/- Parts that the schema of a kind and version lists in order. -/
structure Lists
    (kind : DocumentKind)
    (version : Version)
    (properties : List (String × Schema))
    (parts : List (String × Json)) : Prop where
  schema : ParameterSchema.find? kind version =
    some ⟨kind, version,
      Schema.envelope version.number ++ properties⟩
  same : (Schema.envelope version.number ++
      properties).map Prod.fst =
    Document.envelopeKeys ++ parts.map Prod.fst
  distinct : (Document.envelopeKeys ++
    parts.map Prod.fst).Nodup

theorem get?_new_of_clock
    (hDistinct : (Document.envelopeKeys ++
      parts.map Prod.fst).Nodup)
    (now later : Instant)
    {key : String}
    (hKey : key ≠ "generatedAt") :
    (Document.new kind version now
        (Table.ofList parts)).toJson.get? key =
      (Document.new kind version later
        (Table.ofList parts)).toJson.get? key := by
  have hOther : (key == "generatedAt") = false := by
    simpa using hKey
  rw [Document.get?_toJson_new kind version now hDistinct,
    Document.get?_toJson_new kind version later hDistinct]
  simp [Document.envelopeMembers, List.lookup_cons, hOther]

/- What is valid is valid at any other plain instant. -/
theorem Lists.validateDocument_of_clock
    {now later : Instant}
    (hLists : Lists kind version properties parts)
    (hLater : later.IsPlain)
    (hValid : validateDocument version
      (Document.new kind version now
        (Table.ofList parts)) = .ok ()) :
    validateDocument version
      (Document.new kind version later
        (Table.ofList parts)) = .ok () := by
  rw [validateDocument_new_eq_ok_iff hLists.schema
    hLists.same hLists.distinct] at hValid ⊢
  rcases hValid with ⟨hForm, hRules⟩
  constructor
  · simp only [Schema.envelope, Document.envelopeMembers,
      List.cons_append, List.nil_append, List.zip_cons_cons,
      List.forall_mem_cons] at hForm ⊢
    exact ⟨hForm.1, Schema.accepts_generatedAt hLater,
      hForm.2.2⟩
  · rw [← hRules]
    exact Rules.findings_congr kind version fun key hKey =>
      get?_new_of_clock hLists.distinct later now hKey

end Validation

------------------------------------------------------------
-- Contents
------------------------------------------------------------

namespace Content

open Validation (Lists)

variable {r : Registry} {content : Json.Members}

theorem exists_lists_privateV1
    (hContent : privateV1 r = .ok content) :
    ∃ properties parts, content = Table.ofList parts ∧
      Lists .privateParameters .v1 properties parts := by
  rcases privateV1_eq_ok_iff.mp hContent with ⟨-, rfl⟩
  exact ⟨_, _, rfl, rfl, rfl,
    envelope_privatePartsV1_nodup r⟩

theorem exists_lists_privateV2
    (hContent : privateV2 r = .ok content) :
    ∃ properties parts, content = Table.ofList parts ∧
      Lists .privateParameters .v2 properties parts := by
  rcases privateV2_eq_ok_iff.mp hContent with
    ⟨-, code, -, rfl⟩
  exact ⟨_, _, rfl, rfl, rfl,
    envelope_privatePartsV2_nodup r code⟩

theorem exists_lists_shared
    {version : Version}
    {render : CertificationAuthority → Json}
    {shown : List (String × Json)}
    {authority settings : List (String × Schema)}
    (hSchema :
      ParameterSchema.find? .sharedParameters version =
        some ⟨.sharedParameters, version,
          Schema.sharedWith version.number authority
            settings⟩)
    (hContent : shared render shown r = .ok content) :
    ∃ properties parts, content = Table.ofList parts ∧
      Lists .sharedParameters version properties parts := by
  rcases shared_eq_ok_iff.mp hContent with ⟨-, rfl⟩
  exact ⟨_, _, rfl, hSchema, rfl,
    envelope_sharedParts_nodup render shown r⟩

end Content

------------------------------------------------------------
-- Generators
------------------------------------------------------------

namespace Generator

variable {g : Generator} {kind : DocumentKind}

/- A document shows what one of another instant shows. -/
structure IsSameAt
    (g : Generator)
    (later : Instant)
    (r : Registry)
    (d e : Document kind) : Prop where
  generated : g.generate kind later r = .ok e
  content : d.SameContent e
  digest : e.digest = d.digest
  valid : later.IsPlain → g.validate kind d = .ok () →
    g.validate kind e = .ok ()

/- A generator shows the same at any instant. -/
def HidesClock
    (g : Generator)
    (kind : DocumentKind) : Prop :=
  ∀ (now : Instant) (r : Registry) (d : Document kind),
    g.generate kind now r = .ok d →
      ∀ later, ∃ e, g.IsSameAt later r d e

theorem hidesClock_ofContent
    {version : Version}
    {content : DocumentKind → Registry →
      Except GenerationFault Json.Members}
    (hLists : ∀ r members, content kind r = .ok members →
      ∃ properties parts, members = Table.ofList parts ∧
        Validation.Lists kind version properties parts) :
    (ofContent version content).HidesClock kind := by
  intro _ r d hGenerate later
  rcases generate_ofContent_iff.mp hGenerate with
    ⟨members, hContent, rfl⟩
  rcases hLists r members hContent with
    ⟨properties, parts, rfl, hParts⟩
  exact ⟨_, generate_ofContent_iff.mpr ⟨_, hContent, rfl⟩,
    ⟨rfl, rfl⟩, rfl, hParts.validateDocument_of_clock⟩

/- The content that a generator of the library shows. -/
theorem exists_content
    (hBuiltin : g = .v1 ∨ g = .v2) :
    ∃ content, g = ofContent g.version content ∧
      ∀ kind r members, content kind r = .ok members →
        ∃ properties parts, members = Table.ofList parts ∧
          Validation.Lists kind g.version properties parts := by
  rcases hBuiltin with rfl | rfl
  · refine ⟨_, rfl, fun kind r members hContent => ?_⟩
    cases kind with
    | privateParameters =>
        exact Content.exists_lists_privateV1 hContent
    | sharedParameters =>
        exact Content.exists_lists_shared rfl hContent
  · refine ⟨_, rfl, fun kind r members hContent => ?_⟩
    cases kind with
    | privateParameters =>
        exact Content.exists_lists_privateV2 hContent
    | sharedParameters =>
        exact Content.exists_lists_shared rfl hContent

/-
  What is generated at an instant is generated at any other,
  with the same content and the same digest. It is valid as
  well, if documents can show that instant.
-/
theorem hidesClock
    (hBuiltin : g = .v1 ∨ g = .v2) :
    g.HidesClock kind := by
  rcases exists_content hBuiltin with ⟨content, hSame, hLists⟩
  rw [hSame]
  exact hidesClock_ofContent (hLists kind)

end Generator

end Federation
