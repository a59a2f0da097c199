import Federation.Proofs.Reading.Document
import Federation.Proofs.Schema.Numbers

/-
  The digests of documents that are read. Rules and schemas
  take a number for a whole one however it is written, and
  canonical bytes know integers only: of what is valid and
  can be read just the documents whose seconds are written as
  an integer have a digest.

  Main declarations:
    * `Canonical.encode_eq_of_normal`
    * `Document.digest_eq_of_wellFormed`
    * `Document.digest_isOk_iff_integer`
-/

namespace Federation

------------------------------------------------------------
-- Digests of Normal Content
------------------------------------------------------------

/- A normal value has the bytes of its text, without floats. -/
theorem Canonical.encode_eq_of_normal
    {value : Json}
    (hNormal : value.IsNormal) :
    encode value =
      match firstFloat? value with
      | some x => .error (.float x)
      | none => .ok (Text.toBytes value.compact) := by
  rw [encode, text, Json.normalize_eq_self value hNormal]
  cases firstFloat? value <;> rfl

namespace Document

variable {kind : DocumentKind} {d : Document kind}

/- Kind and version have no float, so that content decides. -/
theorem firstFloat?_subject (d : Document kind) :
    Canonical.firstFloat? d.subject =
      Canonical.firstFloatOfMembers? d.content := by
  simp only [subject, DocumentKind.toJson, Version.toJson,
    Canonical.firstFloat?, Canonical.firstFloatOfMembers?]
  cases Canonical.firstFloatOfMembers? d.content <;> rfl

theorem digest_eq_of_wellFormed
    (hFormed : d.IsWellFormed) :
    d.digest =
      match Canonical.firstFloatOfMembers? d.content with
      | some x => .error (.float x)
      | none =>
          .ok (Digest.of (Text.toBytes d.subject.compact)) := by
  rw [digest,
    Canonical.encode_eq_of_normal (isNormal_subject hFormed),
    firstFloat?_subject]
  cases Canonical.firstFloatOfMembers? d.content <;> rfl

------------------------------------------------------------
-- Accepted Documents
------------------------------------------------------------

/-
  A value as it is held in memory, normal, that is valid and
  can be read has seconds, a whole number. The document has a
  digest exactly if this number is written as an integer; as
  a float it is what the fault tells of.
-/
theorem digest_isOk_iff_integer
    {version : Version}
    {document : Json}
    (hNormal : document.IsNormal)
    (hValid :
      Validation.validate kind version document = .ok ())
    (hRead : Document.read kind document = .ok d) :
    ∃ seconds,
      (ParameterSchema.secondsPlace kind).resolve? document =
        some seconds ∧
      Schema.Accepts (.whole 1) seconds ∧
      ((∃ digest, d.digest = .ok digest) ↔
        ∃ n, seconds = .integer n) ∧
      ∀ x, seconds = .float x →
        d.digest = .error (.float x) := by
  have hFormed := isWellFormed_of_read hNormal hRead
  rcases exists_of_read hRead with
    ⟨entries, declared, t, rfl, -, rfl⟩
  rcases Validation.validate_eq_ok_iff.mp hValid with
    ⟨schema, hSchema, -, hAccepts, -⟩
  rcases ParameterSchema.firstFloat?_content hSchema hAccepts
      hNormal with ⟨seconds, hSeconds, hWhole, hFloat⟩
  have hContent : Table.ofList (entries.filter fun m =>
        m.1 ∉ envelopeKeys) =
      entries.filter fun m => m.1 ∉ envelopeKeys := by
    cases hNormal with
    | object hOrdered _ =>
        exact Table.ofList_eq_self (hOrdered.filter _)
  have hDigest := digest_eq_of_wellFormed hFormed
  dsimp only at hDigest
  rw [hContent, hFloat] at hDigest
  rw [← hContent] at hDigest
  refine ⟨seconds, hSeconds, hWhole, ⟨?_, ?_⟩, ?_⟩
  · rintro ⟨digest, hOk⟩
    cases seconds with
    | integer n => exact ⟨n, rfl⟩
    | float x =>
        rw [hDigest, Canonical.firstFloat?] at hOk
        cases hOk
    | null | bool _ | string _ | array _ | object _ =>
        simp [Schema.Accepts, Json.isWhole] at hWhole
  · rintro ⟨n, rfl⟩
    rw [hDigest, Canonical.firstFloat?]
    exact ⟨_, rfl⟩
  · rintro x rfl
    rw [hDigest, Canonical.firstFloat?]

/- The number 600 as a float. -/
def sixHundred : Binary64 :=
  ⟨false, 5277655813324800, -43⟩

/- What is read of the small document at the start of 2025. -/
def small (seconds : Json) : Document .sharedParameters where
  version := .v1
  generatedAt := ⟨1735689600, 0⟩
  content :=
    [ ("approvedCAs", .array []),
      ("approvedTSAs", .array []),
      ("globalGroups", .array []),
      ("globalSettings",
        .object [("ocspFreshnessSeconds", seconds)]),
      ("instanceIdentifier", .string "EE"),
      ("members", .array []),
      ("securityServers", .array []) ]

/- With seconds that are an integer it has a digest. -/
theorem digest_isOk_small :
    Validation.validate .sharedParameters .v1
        (.smallShared "2025-01-01T00:00:00Z" (.integer 600)
          []) = .ok () ∧
      Document.read .sharedParameters
          (.smallShared "2025-01-01T00:00:00Z" (.integer 600)
            []) = .ok (small (.integer 600)) ∧
      ∃ digest, (small (.integer 600)).digest =
        .ok digest := by
  have hNormal : (Json.smallShared "2025-01-01T00:00:00Z"
      (.integer 600) []).IsNormal :=
    Json.isNormal_smallShared (.integer (by decide))
      (List.forall_mem_nil _)
  have hValid : Validation.validate .sharedParameters .v1
      (.smallShared "2025-01-01T00:00:00Z" (.integer 600)
        []) = .ok () := by
    decide +kernel
  have hRead : Document.read .sharedParameters
      (.smallShared "2025-01-01T00:00:00Z" (.integer 600)
        []) = .ok (small (.integer 600)) := by
    decide +kernel
  rcases digest_isOk_iff_integer hNormal hValid hRead with
    ⟨seconds, hSeconds, -, hDigest, -⟩
  exact ⟨hValid, hRead,
    hDigest.mpr ⟨600, (Option.some.inj hSeconds).symm⟩⟩

/- With the float it is valid and read as well, and has none. -/
theorem digest_of_float_small :
    Validation.validate .sharedParameters .v1
        (.smallShared "2025-01-01T00:00:00Z"
          (.float sixHundred) []) = .ok () ∧
      Document.read .sharedParameters
          (.smallShared "2025-01-01T00:00:00Z"
            (.float sixHundred) []) =
        .ok (small (.float sixHundred)) ∧
      (small (.float sixHundred)).digest =
        .error (.float sixHundred) := by
  decide +kernel

end Document

end Federation
