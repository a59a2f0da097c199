import Federation.Proofs.Reading.Document
import Federation.Proofs.Generation.WellFormed

/-
  Documents and their objects say the same. A new document is
  read back from its object, and an object that is read is
  written back as it was, except that the text of its instant
  is the one that documents have.

  Main declarations:
    * `Document.TellsInstant`
    * `Document.IsRewriting`
    * `Document.exists_envelope_of_read`
    * `Document.isRewriting_of_read`
    * `Document.reads_and_writes_back`
-/

namespace Federation

------------------------------------------------------------
-- Lookups
------------------------------------------------------------

/- A key whose entries are all kept is found as before. -/
theorem Table.lookup_filter_of_kept
    {κ α : Type}
    [BEq κ] [LawfulBEq κ]
    {keeps : κ × α → Bool}
    {list : List (κ × α)}
    {key : κ}
    (hKept : ∀ value, keeps (key, value) = true) :
    (list.filter keeps).lookup key = list.lookup key := by
  induction list with
  | nil => rfl
  | cons entry rest ih =>
      rcases entry with ⟨k, v⟩
      by_cases hKey : key = k
      · subst hKey
        rw [List.filter_cons_of_pos (hKept v)]
        simp
      · have hBeq : (key == k) = false := by simpa using hKey
        rw [List.lookup_cons, hBeq]
        by_cases hKeep : keeps (k, v) = true
        · rw [List.filter_cons_of_pos hKeep, List.lookup_cons,
            hBeq]
          exact ih
        · rw [List.filter_cons_of_neg hKeep]
          exact ih

/- Ordered lists in which the same keys are found. -/
theorem Table.IsOrdered.keys_eq_of_lookup
    {κ α β : Type}
    [BEq κ] [LawfulBEq κ]
    [LE κ] [LT κ] [Std.IsLinearOrder κ] [Std.LawfulOrderLT κ]
    {first : List (κ × α)}
    {second : List (κ × β)}
    (hFirst : IsOrdered first)
    (hSecond : IsOrdered second)
    (hLookup : ∀ key, (first.lookup key).isNone =
      (second.lookup key).isNone) :
    first.map Prod.fst = second.map Prod.fst := by
  have hMem : ∀ key, key ∈ first.map Prod.fst ↔
      key ∈ second.map Prod.fst := by
    intro key
    have hHere := lookup_isNone_iff key first
    have hThere := lookup_isNone_iff key second
    rw [hLookup] at hHere
    exact not_iff_not.mp (hHere.symm.trans hThere)
  have hPerm : (first.map Prod.fst).Perm
      (second.map Prod.fst) :=
    (List.perm_ext_iff_of_nodup hFirst.nodup_keys
      hSecond.nodup_keys).mpr hMem
  refine List.Perm.eq_of_pairwise ?_
    (List.pairwise_map.mpr hFirst)
    (List.pairwise_map.mpr hSecond) hPerm
  intro a b _ _ hLess hGreater
  exact absurd (Std.lt_trans hLess hGreater) Std.lt_irrefl

------------------------------------------------------------
-- Envelopes
------------------------------------------------------------

open Reading

/- A number that is read is the one that stands there. -/
theorem Reading.integer?_of_unsigned_eq_ok
    {σ : Type}
    [Source σ]
    {bits n : Nat}
    {v : σ}
    (hRead : unsigned bits v = .ok n) :
    Source.integer? v = some (n : Int) := by
  rcases exists_of_bind_eq_ok hRead with
    ⟨number, hNumber, hRest⟩
  have hFound : Source.integer? v = some number := by
    unfold expect at hNumber
    split at hNumber
    · rename_i hSome
      cases hNumber
      exact hSome
    · cases hNumber
  split at hRest
  · rename_i hRange
    cases hRest
    rw [hFound, Int.toNat_of_nonneg hRange.1]
  · cases hRest

/- A version is read from nothing but its number. -/
theorem Version.eq_toJson_of_read
    {v : Json}
    {version : Version}
    (hRead : Version.read v = .ok version) :
    v = version.toJson := by
  rcases exists_of_bind_eq_ok hRead with
    ⟨n, hUnsigned, hRefusal⟩
  have hInteger := integer?_of_unsigned_eq_ok hUnsigned
  have hVersion : Version.ofNat n = .ok version := by
    cases hOf : Version.ofNat n with
    | error cause =>
        rw [hOf] at hRefusal
        cases hRefusal
    | ok same =>
        rw [hOf] at hRefusal
        cases hRefusal
        rfl
  rw [Version.toJson, Version.ofNat_eq_ok_iff.mp hVersion]
  cases v with
  | integer number =>
      cases hInteger
      rfl
  | _ => cases hInteger

namespace Document

variable {kind : DocumentKind}

/- The instant of generation among the members of an object. -/
def TellsInstant
    (entries : Json.Members)
    (t : Instant) : Prop :=
  ∃ text, entries.lookup "generatedAt" = some (.string text) ∧
    Instant.parse text = .ok t

/-
  Members that say what others say. They have the same keys,
  and the same values at all but one of them, whose texts tell
  the same instant.
-/
structure IsRewriting
    (own entries : Json.Members)
    (t : Instant) : Prop where
  keys : own.map Prod.fst = entries.map Prod.fst
  same : ∀ key, key ≠ "generatedAt" →
    own.lookup key = entries.lookup key
  before : TellsInstant entries t
  after : TellsInstant own t

/- An object that is read names the version and the instant. -/
theorem exists_envelope_of_read
    {entries : Json.Members}
    {d : Document kind}
    (hOrdered : Table.IsOrdered entries)
    (hRead : Document.read kind (.object entries) = .ok d) :
    entries.lookup "version" = some d.version.toJson ∧
      TellsInstant entries d.generatedAt ∧
      d.content =
        entries.filter fun m => m.1 ∉ envelopeKeys := by
  rcases exists_fields_of_read hRead with
    ⟨v, w, hVersion, hReadVersion, hInstant, hReadInstant,
      hContent⟩
  rcases exists_text_of_readInstant hReadInstant with
    ⟨text, rfl, hParse⟩
  refine ⟨?_, ⟨text, hInstant, hParse⟩, ?_⟩
  · rw [hVersion, Version.eq_toJson_of_read hReadVersion]
  · rw [hContent]
    exact Table.ofList_eq_self (hOrdered.filter _)

/- An object that is read is written back. -/
theorem isRewriting_of_read
    {entries : Json.Members}
    {d : Document kind}
    (hNormal : (Json.object entries).IsNormal)
    (hRead : Document.read kind (.object entries) = .ok d) :
    IsRewriting (Table.ofList d.members) entries
      d.generatedAt := by
  have hFormed := isWellFormed_of_read hNormal hRead
  have hOrdered : Table.IsOrdered entries := by
    cases hNormal with
    | object hOrdered _ => exact hOrdered
  rcases exists_envelope_of_read hOrdered hRead with
    ⟨hVersion, hInstant, hContent⟩
  have hSame : ∀ key, key ≠ "generatedAt" →
      (Table.ofList d.members).lookup key =
        entries.lookup key := by
    intro key hKey
    rw [hFormed.lookup_members, members]
    by_cases hEnvelope : key = "version"
    · rw [hEnvelope, hVersion]
      rfl
    · have hFirst : (key == "version") = false := by
        simpa using hEnvelope
      have hSecond : (key == "generatedAt") = false := by
        simpa using hKey
      rw [List.lookup_cons, hFirst, List.lookup_cons, hSecond,
        hContent]
      apply Table.lookup_filter_of_kept
      intro value
      simp [envelopeKeys, hEnvelope, hKey]
  have hAfter : TellsInstant (Table.ofList d.members)
      d.generatedAt := by
    refine ⟨d.generatedAt.display, ?_,
      Instant.parse_display hFormed.instant⟩
    rw [hFormed.lookup_members]
    rfl
  refine ⟨?_, hSame, hInstant, hAfter⟩
  apply (Table.ofList_isOrdered d.members).keys_eq_of_lookup
    hOrdered
  intro key
  by_cases hKey : key = "generatedAt"
  · rcases hInstant with ⟨_, hBefore, _⟩
    rcases hAfter with ⟨_, hAfter, _⟩
    rw [hKey, hBefore, hAfter]
    rfl
  · rw [hSame key hKey]

/-
  Reading undoes writing: a new document, of any version and
  instant and with any content, is read back from its object.
  Writing undoes reading up to the text of the instant: the
  object of a document that was read has the same keys, the
  same values under all others of them, and a text of the same
  instant, and the same document is read from it. No content
  that is read has a key of the envelope.
-/
theorem reads_and_writes_back
    (kind : DocumentKind) :
    (∀ (version : Version) (t : Instant)
        (content : Json.Members),
      t.IsRepresentable → (Json.object content).IsNormal →
        Document.read kind
            (Document.new kind version t content).toJson =
          .ok (Document.new kind version t content)) ∧
    (∀ (entries : Json.Members) (d : Document kind),
      (Json.object entries).IsNormal →
      Document.read kind (.object entries) = .ok d →
        (∃ own, d.toJson = .object own ∧
          IsRewriting own entries d.generatedAt) ∧
        Document.read kind d.toJson = .ok d ∧
        ∀ key ∈ envelopeKeys, d.content.lookup key = none) := by
  constructor
  · intro version t content hTime hContent
    apply read_toJson
    apply isWellFormed_new kind version hTime
    cases hContent with
    | object hOrdered hMembers => exact ⟨hOrdered, hMembers⟩
  · intro entries d hNormal hRead
    have hFormed := isWellFormed_of_read hNormal hRead
    refine ⟨⟨_, toJson_eq d, isRewriting_of_read hNormal hRead⟩,
      read_toJson hFormed, ?_⟩
    intro key hKey
    have hMissing : key ∉ d.content.map Prod.fst := by
      intro hMem
      rcases List.mem_map.mp hMem with ⟨m, hContent, rfl⟩
      exact hFormed.noEnvelope m hContent hKey
    simpa using
      (Table.lookup_isNone_iff key d.content).mpr hMissing

/- Members with a leap second of another offset. -/
def leapMembers : Json.Members :=
  [ ("extra", .array [.null]),
    ("generatedAt", .string "2016-12-31t22:59:60.250-01:00"),
    ("version", .integer 7) ]

theorem isNormal_leapMembers :
    (Json.object leapMembers).IsNormal := by
  have hKeys :
      ["extra", "generatedAt", "version"].Pairwise (· < ·) := by
    decide
  refine .object (Table.isOrdered_of_keys hKeys) ?_
  simp only [leapMembers, List.forall_mem_cons,
    List.not_mem_nil, false_implies, implies_true, and_true]
  exact ⟨.array (List.forall_mem_singleton.mpr .null),
    .string _, .integer (by decide)⟩

/-
  A document of the year 12016, in a leap second, is read
  back, and so is one that was read from the members above.
-/
theorem reads_and_writes_back_leap :
    (Instant.mk 317052748799 1500000000).IsRepresentable ∧
    (Json.object leapMembers).IsNormal ∧
    Document.read .sharedParameters
        (Document.new .sharedParameters .v2
          ⟨317052748799, 1500000000⟩ leapMembers).toJson =
      .ok (Document.new .sharedParameters .v2
        ⟨317052748799, 1500000000⟩ leapMembers) ∧
    ∃ d own, Document.read .sharedParameters
          (.object leapMembers) = .ok d ∧
      d.toJson = .object own ∧
      IsRewriting own leapMembers d.generatedAt := by
  have hTime :
      (Instant.mk 317052748799 1500000000).IsRepresentable := by
    decide +kernel
  have hRead : Document.read .sharedParameters
      (.object leapMembers) =
        .ok ⟨⟨7, by decide, by decide⟩,
          ⟨1483228799, 1250000000⟩,
          [("extra", .array [.null])]⟩ := by
    decide +kernel
  have hBoth := reads_and_writes_back .sharedParameters
  rcases (hBoth.2 _ _ isNormal_leapMembers hRead).1 with
    ⟨own, hOwn, hRewriting⟩
  exact ⟨hTime, isNormal_leapMembers,
    hBoth.1 .v2 _ _ hTime isNormal_leapMembers,
    _, own, hRead, hOwn, hRewriting⟩

end Document

end Federation
