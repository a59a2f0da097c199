import Federation.Proofs.Document
import Federation.Proofs.Schema.Numbers
import Federation.Proofs.Time.Timestamp

/-
  Which documents that are valid can be read. The version of
  a valid document is one that is read, and its instant has
  the digits of a timestamp: the document is read exactly if
  the calendar has the day and the clock the time.

  Main declarations:
    * `Validation.get?_version`
    * `ParameterSchema.exists_timestamp`
    * `Document.read_of_valid`
-/

namespace Federation

------------------------------------------------------------
-- Versions and Timestamps
------------------------------------------------------------

/- A declared version is the value of its key. -/
theorem Validation.get?_version
    {document : Json}
    {version : Version}
    (hDeclared :
      declaredVersion? document = some version) :
    document.get? "version" = some version.toJson := by
  rw [declaredVersion?, Option.bind_eq_some_iff] at hDeclared
  rcases hDeclared with ⟨n, hNumber, hVersion⟩
  rw [Option.bind_eq_some_iff] at hNumber
  rcases hNumber with ⟨v, hFound, hNat⟩
  have hValue : v = .integer n := by
    unfold Json.asNat? at hNat
    split at hNat
    · cases hNat
      rfl
    · cases hNat
  rw [hFound, hValue, Version.toJson,
    Version.ofNat?_eq_some_iff.mp hVersion]

/- The instant of an accepted document is a timestamp. -/
theorem ParameterSchema.exists_timestamp
    {kind : DocumentKind}
    {version : Version}
    {schema : ParameterSchema}
    {document : Json}
    (hSchema : find? kind version = some schema)
    (hAccepts : Schema.Accepts schema.root document) :
    ∃ s : Timestamp,
      document.get? "generatedAt" = some (.string s.text) := by
  have hAll : ∀ s ∈ all,
      "generatedAt" ∈ s.properties.map Prod.fst ∧
        s.properties.lookup "generatedAt" =
          some Schema.timestamp := by
    intro s hMem
    simp only [all, List.mem_cons, List.not_mem_nil, or_false]
      at hMem
    rcases hMem with rfl | rfl | rfl | rfl <;>
      exact ⟨by decide, rfl⟩
  rcases hAll schema (mem_all_of_find hSchema).1 with
    ⟨hRequired, hProperty⟩
  rcases hAccepts.exists_required hRequired hProperty with
    ⟨part, hPart, hText⟩
  rw [Schema.timestamp, Schema.Accepts] at hText
  rcases hText with ⟨text, rfl, -, hPattern⟩
  rcases Timestamp.accepts_iff.mp (hPattern _ rfl) with
    ⟨s, hSame⟩
  exact ⟨s, by rw [hPart, String.toList_inj.mp hSame]⟩

------------------------------------------------------------
-- Valid Documents
------------------------------------------------------------

namespace Document

variable {kind : DocumentKind}

/- An instant is read from a timestamp that is real only. -/
theorem readInstant_timestamp (s : Timestamp) :
    readInstant (Json.string s.text) =
      if s.IsReal then .ok s.instant
      else .error (.instant .outOfRange) := by
  have hText : Reading.expect
      "an RFC 3339 formatted date and time string"
      Reading.Source.text? (Json.string s.text) =
        .ok s.text :=
    Reading.expect_eq_ok rfl
  rw [readInstant, hText]
  simp only [bind, Except.bind, Timestamp.parse_text]
  by_cases hReal : s.IsReal
  · rw [if_pos hReal, if_pos hReal]
  · rw [if_neg hReal, if_neg hReal]

/-
  A value as it is held in memory, normal, that is valid for
  a version has a timestamp. If it is real, a document is
  read, with that version and the instant of the timestamp;
  if not, this is the fault that is found.
-/
theorem read_of_valid
    {version : Version}
    {document : Json}
    (hNormal : document.IsNormal)
    (hValid :
      Validation.validate kind version document = .ok ()) :
    ∃ s : Timestamp,
      document.get? "generatedAt" = some (.string s.text) ∧
      (s.IsReal → ∃ d, Document.read kind document = .ok d ∧
        d.version = version ∧ d.generatedAt = s.instant) ∧
      (¬ s.IsReal → Document.read kind document =
        .error (.instant .outOfRange)) := by
  rcases Validation.validate_eq_ok_iff.mp hValid with
    ⟨schema, hSchema, hDeclared, hAccepts, -⟩
  rcases ParameterSchema.exists_timestamp hSchema hAccepts with
    ⟨s, hInstant⟩
  have hVersion := Validation.get?_version hDeclared
  refine ⟨s, hInstant, ?_⟩
  cases hNormal with
  | object hOrdered _ =>
      rw [read_object_eq hOrdered.nodup_keys hVersion hInstant,
        readInstant_timestamp]
      constructor
      · intro hReal
        rw [if_pos hReal]
        exact ⟨_, rfl, rfl, rfl⟩
      · intro hReal
        rw [if_neg hReal]
        rfl
  | _ => cases hVersion

/- The small document at the start of 2025 is read. -/
theorem read_of_valid_small :
    Validation.validate .sharedParameters .v1
        (.smallShared "2025-01-01T00:00:00Z" (.integer 600)
          []) = .ok () ∧
      ∃ d, Document.read .sharedParameters
          (.smallShared "2025-01-01T00:00:00Z" (.integer 600)
            []) = .ok d ∧
        d.version = .v1 ∧ d.generatedAt = ⟨1735689600, 0⟩ := by
  have hNormal : (Json.smallShared "2025-01-01T00:00:00Z"
      (.integer 600) []).IsNormal :=
    Json.isNormal_smallShared (.integer (by decide))
      (List.forall_mem_nil _)
  have hValid : Validation.validate .sharedParameters .v1
      (.smallShared "2025-01-01T00:00:00Z" (.integer 600)
        []) = .ok () := by
    decide +kernel
  rcases read_of_valid hNormal hValid with
    ⟨s, hText, hReal, -⟩
  have hSame : "2025-01-01T00:00:00Z" = s.text :=
    Json.string.inj (Option.some.inj hText)
  have hParse : Instant.parse s.text =
      .ok ⟨1735689600, 0⟩ := by
    rw [← hSame]
    decide +kernel
  rw [Timestamp.parse_text] at hParse
  split at hParse
  · rename_i hDay
    rcases hReal hDay with ⟨d, hRead, hVersion, hInstant⟩
    exact ⟨hValid, d, hRead, hVersion,
      hInstant.trans (Except.ok.inj hParse)⟩
  · cases hParse

/- At a day that February does not have it is not. -/
theorem read_of_unreal_small :
    Validation.validate .sharedParameters .v1
        (.smallShared "2026-02-30T00:00:00Z" (.integer 600)
          []) = .ok () ∧
      Document.read .sharedParameters
          (.smallShared "2026-02-30T00:00:00Z" (.integer 600)
            []) = .error (.instant .outOfRange) := by
  decide +kernel

end Document

end Federation
