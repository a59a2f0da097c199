import Federation.Proofs.Generation.Steady
import Federation.Proofs.Reading.Accepted

/-
  Which documents of the library's own generators pass: they
  are generated, and their generators find them valid. A
  document passes at an instant if it does at another one,
  provided that schemas accept both instants or neither, so
  that beside the instant only the registry decides.

  Main declarations:
    * `Instant.HasTimestamp`, `Instant.IsLike`
    * `Instant.hasTimestamp_iff`
    * `Generator.PassesAt`
    * `Generator.passesAt_congr`
    * `Generator.passesAt_privateV1_iff`
    * `Generator.passesAt_privateV2_iff`
    * `Generator.passesAt_sharedV1_iff`
    * `Generator.passesAt_sharedV2_iff`
-/

namespace Federation

------------------------------------------------------------
-- Timestamps
------------------------------------------------------------

/- A timestamp begins with a digit. -/
theorem Timestamp.exists_digit (s : Timestamp) :
    ∃ c rest, s.text.toList = c :: rest ∧
      c.isDigit = true := by
  have hLength := Instant.padded_length (n := s.year)
    (by decide : 0 < 4) s.year.isLt
  have hDigit : ∀ c ∈ (Instant.padded 4 s.year).toList,
      c.isDigit = true :=
    fun _ => Instant.isDigit_of_mem_padded
  rw [text_toList]
  cases hDigits : (Instant.padded 4 s.year).toList with
  | nil =>
      rw [hDigits] at hLength
      cases hLength
  | cons c rest =>
      rw [hDigits] at hDigit
      exact ⟨c, _, rfl, hDigit c List.mem_cons_self⟩

namespace Instant

/- Schemas accept the instant as that of a generation. -/
def HasTimestamp (t : Instant) : Prop :=
  Schema.Accepts Schema.timestamp (.string t.truncate.display)

/- Schemas accept two instants, or neither of them. -/
def IsLike (t u : Instant) : Prop :=
  t.HasTimestamp ↔ u.HasTimestamp

theorem IsPlain.hasTimestamp
    {t : Instant}
    (hPlain : t.IsPlain) :
    t.HasTimestamp :=
  Schema.accepts_generatedAt hPlain

/- The start of 2025. -/
theorem isPlain_start : IsPlain ⟨1735689600, 0⟩ :=
  ⟨by decide, by decide⟩

/- A year beyond four digits is shown with a sign. -/
theorem exists_sign
    {t : Instant}
    (hYear : ¬(0 ≤ t.calendarYear ∧ t.calendarYear ≤ 9999)) :
    ∃ c rest, t.truncate.display.toList = c :: rest ∧
      c.isDigit = false := by
  have hSigned : yearText (Date.ofDays (t.seconds / 86400)).year =
      (if t.calendarYear < 0 then "-" else "+") ++
        padded 4 t.calendarYear.natAbs :=
    if_neg hYear
  have hMinus : "-".toList = ['-'] := rfl
  have hPlus : "+".toList = ['+'] := rfl
  simp only [display, dateText, truncate, hSigned,
    String.toList_append, List.append_assoc]
  by_cases hNegative : t.calendarYear < 0
  · rw [if_pos hNegative, hMinus]
    exact ⟨'-', _, rfl, by decide⟩
  · rw [if_neg hNegative, hPlus]
    exact ⟨'+', _, rfl, by decide⟩

/-
  Of the instants that a clock can show, schemas accept those
  of the years that have four digits.
-/
theorem hasTimestamp_iff
    {t : Instant}
    (hTime : t.IsRepresentable) :
    t.HasTimestamp ↔ t.IsPlain := by
  constructor
  · intro hAccepts
    refine ⟨hTime, ?_⟩
    by_contra hYear
    rcases exists_sign hYear with ⟨c, rest, hText, hSign⟩
    rw [HasTimestamp, Schema.timestamp, Schema.Accepts] at hAccepts
    rcases hAccepts with ⟨text, hSame, -, hPattern⟩
    cases hSame
    rcases Timestamp.accepts_iff.mp (hPattern _ rfl) with
      ⟨s, hTimestamp⟩
    rcases s.exists_digit with ⟨d, others, hDigits, hDigit⟩
    rw [hText, hDigits] at hTimestamp
    cases hTimestamp
    rw [hSign] at hDigit
    cases hDigit
  · intro hPlain
    exact hPlain.hasTimestamp

end Instant

------------------------------------------------------------
-- Documents
------------------------------------------------------------

/- A valid document has a timestamp. -/
theorem Validation.Lists.hasTimestamp
    {kind : DocumentKind}
    {version : Version}
    {properties : List (String × Schema)}
    {parts : List (String × Json)}
    {t : Instant}
    (hLists : Lists kind version properties parts)
    (hValid : validateDocument version
      (Document.new kind version t
        (Table.ofList parts)) = .ok ()) :
    t.HasTimestamp := by
  rw [validateDocument_new_eq_ok_iff hLists.schema hLists.same
    hLists.distinct] at hValid
  have hForm := hValid.1
  simp only [Schema.envelope, Document.envelopeMembers,
    List.cons_append, List.nil_append, List.zip_cons_cons,
    List.forall_mem_cons] at hForm
  exact hForm.2.1

namespace Generator

variable {g : Generator} {kind : DocumentKind}
variable {t u : Instant}
variable {r : Registry}

/- A document is generated at an instant, and it is valid. -/
def PassesAt
    (g : Generator)
    (kind : DocumentKind)
    (t : Instant)
    (r : Registry) : Prop :=
  ∃ d, g.generate kind t r = .ok d ∧ g.validate kind d = .ok ()

instance
    (g : Generator)
    (kind : DocumentKind)
    (t : Instant)
    (r : Registry) : Decidable (g.PassesAt kind t r) :=
  match hGenerate : g.generate kind t r with
  | .error e => isFalse fun ⟨d, hDocument, _⟩ => by
      rw [hGenerate] at hDocument
      cases hDocument
  | .ok d =>
      if hValid : g.validate kind d = .ok () then
        isTrue ⟨d, hGenerate, hValid⟩
      else
        isFalse fun ⟨e, hDocument, hOther⟩ => by
          rw [hGenerate] at hDocument
          cases hDocument
          exact hValid hOther

/- At the start of 2025, what the small registry shows passes. -/
theorem passesAt_small (kind : DocumentKind) :
    v2.PassesAt kind ⟨1735689600, 0⟩
      (Registry.small .small) := by
  cases kind with
  | privateParameters =>
      exact exists_valid_privateV2 Instant.isPlain_start
        Registry.hasPrivateParts_small
        Registry.hasManagementServer_small
        Registry.hasValidParts_small
        Registry.hasValidServers_small
  | sharedParameters =>
      exact exists_valid_sharedV2 Instant.isPlain_start
        (by decide) (Registry.isSharable_small .small)
        (Registry.declaresClasses_small .small)

/- What has been generated and is valid has a timestamp. -/
theorem PassesAt.hasTimestamp
    (hBuiltin : g = .v1 ∨ g = .v2)
    (hPasses : g.PassesAt kind t r) :
    t.HasTimestamp := by
  rcases exists_content hBuiltin with ⟨content, hSame, hLists⟩
  rcases hPasses with ⟨d, hGenerate, hValid⟩
  rw [hSame] at hGenerate hValid
  rcases generate_ofContent_iff.mp hGenerate with
    ⟨members, hContent, rfl⟩
  rcases hLists kind r members hContent with
    ⟨properties, parts, rfl, hParts⟩
  exact hParts.hasTimestamp hValid

/- At another timestamp a document passes as well. -/
theorem PassesAt.of_hasTimestamp
    (hBuiltin : g = .v1 ∨ g = .v2)
    (hPasses : g.PassesAt kind t r)
    (hTime : u.HasTimestamp) :
    g.PassesAt kind u r := by
  have hBefore := hPasses.hasTimestamp hBuiltin
  rcases exists_content hBuiltin with ⟨content, hSame, -⟩
  rcases hPasses with ⟨d, hGenerate, hValid⟩
  rw [hSame] at hGenerate hValid ⊢
  rcases generate_ofContent_iff.mp hGenerate with
    ⟨members, hContent, rfl⟩
  have hAlike :
      (Document.new kind g.version t members).SameButTime
        (Document.new kind g.version u members) :=
    ⟨⟨rfl, rfl⟩, Or.inr ⟨hBefore, hTime⟩⟩
  refine ⟨_, generate_ofContent_iff.mpr ⟨_, hContent, rfl⟩, ?_⟩
  exact (Validation.validateDocument_congr g.version
    hAlike).symm.trans hValid

/- Nothing of an instant matters but whether it is a timestamp. -/
theorem passesAt_congr
    (hBuiltin : g = .v1 ∨ g = .v2)
    (hTimes : t.IsLike u) :
    g.PassesAt kind t r ↔ g.PassesAt kind u r := by
  constructor
  · intro hPasses
    exact hPasses.of_hasTimestamp hBuiltin
      (hTimes.mp (hPasses.hasTimestamp hBuiltin))
  · intro hPasses
    exact hPasses.of_hasTimestamp hBuiltin
      (hTimes.mpr (hPasses.hasTimestamp hBuiltin))

------------------------------------------------------------
-- Versions
------------------------------------------------------------

/-
  It is known at plain instants which registries have documents
  and which of these are valid, and with a timestamp it is the
  same at any other instant.
-/
theorem passesAt_iff_of_plain
    {p : Instant}
    {IsGenerated IsValid : Prop}
    (hBuiltin : g = .v1 ∨ g = .v2)
    (hPlain : p.IsPlain)
    (hGenerated : (∃ d, g.generate kind p r = .ok d) ↔
      IsGenerated)
    (hValid : ∀ d, g.generate kind p r = .ok d →
      (g.validate kind d = .ok () ↔ IsValid)) :
    g.PassesAt kind t r ↔
      t.HasTimestamp ∧ IsGenerated ∧ IsValid := by
  constructor
  · intro hPasses
    rcases hPasses.of_hasTimestamp hBuiltin
        hPlain.hasTimestamp with
      ⟨d, hDocument, hJudged⟩
    exact ⟨hPasses.hasTimestamp hBuiltin,
      hGenerated.mp ⟨d, hDocument⟩,
      (hValid d hDocument).mp hJudged⟩
  · rintro ⟨hTime, hParts, hSound⟩
    rcases hGenerated.mpr hParts with ⟨d, hDocument⟩
    have hPasses : g.PassesAt kind p r :=
      ⟨d, hDocument, (hValid d hDocument).mpr hSound⟩
    exact hPasses.of_hasTimestamp hBuiltin hTime

theorem passesAt_privateV1_iff :
    v1.PassesAt .privateParameters t r ↔
      t.HasTimestamp ∧ Content.HasPrivateParts r ∧
        r.HasValidParts Content.firstCerts := by
  apply passesAt_iff_of_plain (Or.inl rfl)
    Instant.isPlain_start
  · apply exists_generate_ofContent_iff.trans
    simp only [Content.privateV1_eq_ok_iff, exists_and_left,
      exists_eq, and_true]
  · intro d hGenerate
    exact (valid_generated_privateV1 Instant.isPlain_start
      hGenerate).2

theorem passesAt_privateV2_iff :
    v2.PassesAt .privateParameters t r ↔
      t.HasTimestamp ∧
      (Content.HasPrivateParts r ∧
        Content.HasManagementServer r) ∧
      r.HasValidParts ConfigurationSource.verificationCerts ∧
        r.HasValidServers := by
  apply passesAt_iff_of_plain (Or.inr rfl)
    Instant.isPlain_start
  · exact exists_generate_ofContent_iff.trans
      Content.exists_privateV2_iff
  · intro d hGenerate
    exact (valid_generated_privateV2 Instant.isPlain_start
      hGenerate).2

section Shared

variable {version : Version}
variable {content : DocumentKind → Registry →
  Except GenerationFault Json.Members}
variable {render : CertificationAuthority → Json}
variable {settings : Json.Members}

/- There are shared parameters unless responses are never fresh. -/
theorem exists_generate_shared_iff
    (hContent : content .sharedParameters r =
      Content.shared render settings r) :
    (∃ d, (ofContent version content).generate
        .sharedParameters t r = .ok d) ↔
      r.globalSettings.ocspFreshnessSeconds ≠ 0 := by
  rw [exists_generate_ofContent_iff, hContent]
  simp only [Content.shared_eq_ok_iff, exists_and_left,
    exists_eq, and_true]

/- The content of shared parameters is that of their parts. -/
theorem content_shared
    {d : Document .sharedParameters}
    (hContent : content .sharedParameters r =
      Content.shared render settings r)
    (hGenerate : (ofContent version content).generate
      .sharedParameters t r = .ok d) :
    d.content = Table.ofList
      (Content.sharedParts render settings r) := by
  rcases generate_ofContent_iff.mp hGenerate with
    ⟨members, hMembers, rfl⟩
  rw [hContent] at hMembers
  rcases Content.shared_eq_ok_iff.mp hMembers with ⟨-, rfl⟩
  exact Document.new_content _ _ _
    (Content.envelope_sharedParts_nodup _ _ r)

end Shared

theorem passesAt_sharedV1_iff :
    v1.PassesAt .sharedParameters t r ↔
      t.HasTimestamp ∧
      r.globalSettings.ocspFreshnessSeconds ≠ 0 ∧
      r.IsSharable := by
  apply passesAt_iff_of_plain (Or.inl rfl)
    Instant.isPlain_start (exists_generate_shared_iff rfl)
  intro d hGenerate
  exact (valid_generated_sharedV1 Instant.isPlain_start
    hGenerate).2

theorem passesAt_sharedV2_iff :
    v2.PassesAt .sharedParameters t r ↔
      t.HasTimestamp ∧
      r.globalSettings.ocspFreshnessSeconds ≠ 0 ∧
      r.IsSharable ∧ r.DeclaresClasses := by
  apply passesAt_iff_of_plain (Or.inr rfl)
    Instant.isPlain_start (exists_generate_shared_iff rfl)
  intro d hGenerate
  exact (valid_generated_sharedV2 Instant.isPlain_start
    hGenerate).2

end Generator

end Federation
