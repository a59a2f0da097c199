import Federation.Proofs.Canonical.Faithful

/-
  What the digest of a document is taken of: kind, version and
  content can be told from the bytes, whatever the content is,
  and the instant of generation is not in them.

  Main declarations:
    * `Document.IsBuilt`
    * `Document.subject_inj`
    * `Document.subject_bytes_eq_iff`
-/

namespace Federation

------------------------------------------------------------
-- Kinds and Versions
------------------------------------------------------------

theorem DocumentKind.name_inj
    {a b : DocumentKind}
    (hEqual : a.name = b.name) :
    a = b := by
  cases a <;> cases b
  · rfl
  · exact absurd hEqual (by decide)
  · exact absurd hEqual (by decide)
  · rfl

theorem Version.toJson_inj
    {v w : Version}
    (hEqual : v.toJson = w.toJson) :
    v = w := by
  rcases v with ⟨number, hPositive, hBounded⟩
  rcases w with ⟨other, hOther, hOtherBounded⟩
  simp only [Version.toJson, Json.integer.injEq,
    Int.natCast_inj] at hEqual
  subst hEqual
  rfl

namespace Document

open Canonical (HasNoFloat FloatAt encode)

variable {kind : DocumentKind} {d : Document kind}

------------------------------------------------------------
-- Documents That Are Built
------------------------------------------------------------

/- A document that was made of its parts, or read. -/
inductive IsBuilt :
    {kind : DocumentKind} → Document kind → Prop where
| new {kind : DocumentKind} {content : Json.Members}
    (version : Version) (generatedAt : Instant) :
    (Json.object content).IsNormal →
    IsBuilt (.new kind version generatedAt content)
| read {kind : DocumentKind} {value : Json}
    {d : Document kind} :
    value.IsNormal → Document.read kind value = .ok d →
    IsBuilt d

/- The content of a document is normal, and stays it. -/
theorem IsBuilt.isNormal_content
    (hBuilt : d.IsBuilt) :
    (Json.object d.content).IsNormal := by
  cases hBuilt with
  | new version generatedAt hContent =>
      cases hContent with
      | object hOrdered hMembers =>
          exact .object (hOrdered.filter _) fun m hMem =>
            hMembers m (List.mem_filter.mp hMem).1
  | read hValue hRead =>
      have hFormed := isWellFormed_of_read hValue hRead
      exact .object hFormed.ordered hFormed.normal

------------------------------------------------------------
-- Subjects
------------------------------------------------------------

/- Kind and version have no float of their own. -/
theorem hasNoFloat_subject_iff (d : Document kind) :
    HasNoFloat d.subject ↔
      HasNoFloat (.object d.content) := by
  rw [HasNoFloat, firstFloat?_subject, HasNoFloat,
    Canonical.firstFloat?]

/-
  A subject has one place for each of its parts: keys of the
  content are not among its own.
-/
theorem subject_inj
    {other : DocumentKind}
    {e : Document other}
    (hEqual : d.subject = e.subject) :
    ∃ hKind : other = kind, SameContent d (hKind ▸ e) := by
  simp only [subject, DocumentKind.toJson,
    Json.object.injEq, List.cons.injEq, Prod.mk.injEq,
    true_and, Json.string.injEq, and_true] at hEqual
  rcases hEqual with ⟨hContent, hKind, hVersion⟩
  have hSame : other = kind := (DocumentKind.name_inj hKind).symm
  subst hSame
  exact ⟨rfl, Version.toJson_inj hVersion, hContent⟩

theorem subject_eq_of_sameContent
    {e : Document kind}
    (hSame : SameContent d e) :
    d.subject = e.subject := by
  rw [subject, subject, hSame.1, hSame.2]

------------------------------------------------------------
-- Bytes of Subjects
------------------------------------------------------------

/- The digest is taken of the canonical bytes of the subject. -/
theorem digest_of_encode_subject
    {bytes : Bytes}
    (hBytes : encode d.subject = .ok bytes) :
    d.digest = .ok (Digest.of bytes) := by
  rw [digest, hBytes]
  rfl

/-
  Two documents of any kinds, made of their parts or read,
  with no float in their content, have digests, and the bytes
  under these are equal exactly if the documents are of one
  kind and have the same content and version. The instants of
  generation have no part in this.
-/
theorem subject_bytes_eq_iff
    {other : DocumentKind}
    {e : Document other}
    (hFirst : d.IsBuilt)
    (hSecond : e.IsBuilt)
    (hFloat : ¬∃ p x, FloatAt (.object d.content) p x)
    (hOtherFloat : ¬∃ p x, FloatAt (.object e.content) p x) :
    ∃ bytes otherBytes,
      encode d.subject = .ok bytes ∧
      d.digest = .ok (Digest.of bytes) ∧
      encode e.subject = .ok otherBytes ∧
      e.digest = .ok (Digest.of otherBytes) ∧
      (bytes = otherBytes ↔
        ∃ hKind : other = kind,
          SameContent d (hKind ▸ e)) := by
  have hContent := hFirst.isNormal_content
  have hOtherContent := hSecond.isNormal_content
  have hSubject := isNormal_subject_of_content hContent
  have hOtherSubject :=
    isNormal_subject_of_content hOtherContent
  rw [← Canonical.hasNoFloat_iff hContent,
    ← hasNoFloat_subject_iff] at hFloat
  rw [← Canonical.hasNoFloat_iff hOtherContent,
    ← hasNoFloat_subject_iff] at hOtherFloat
  rcases Canonical.encode_isOk hFloat with ⟨bytes, hBytes⟩
  rcases Canonical.encode_isOk hOtherFloat with
    ⟨otherBytes, hOtherBytes⟩
  refine ⟨bytes, otherBytes, hBytes,
    digest_of_encode_subject hBytes, hOtherBytes,
    digest_of_encode_subject hOtherBytes, ?_⟩
  constructor
  · rintro rfl
    exact subject_inj (Canonical.encode_inj hSubject
      hOtherSubject hBytes hOtherBytes)
  · rintro ⟨rfl, hSame⟩
    have hSubjects : d.subject = e.subject :=
      subject_eq_of_sameContent hSame
    rw [hSubjects, hOtherBytes] at hBytes
    exact (Except.ok.inj hBytes).symm

/- Content whose keys are those of the subject around it. -/
def nested : Json.Members :=
  [("content", .null), ("kind", .string "private")]

theorem isNormal_nested :
    (Json.object nested).IsNormal :=
  .object (Table.isOrdered_of_keys (by decide))
    (List.forall_mem_cons.mpr ⟨.null,
      List.forall_mem_singleton.mpr (.string _)⟩)

/- With it a document has one digest at two instants. -/
theorem subject_bytes_eq_nested :
    (Json.object nested).IsNormal ∧
      ∃ bytes,
        encode (Document.new .sharedParameters .v1 ⟨0, 0⟩
          nested).subject = .ok bytes ∧
        encode (Document.new .sharedParameters .v1 ⟨1, 0⟩
          nested).subject = .ok bytes := by
  have hBuilt : ∀ t, (Document.new .sharedParameters .v1 t
      nested).IsBuilt :=
    fun t => .new .v1 t isNormal_nested
  have hFloat : ∀ t, ¬∃ p x, FloatAt
      (.object (Document.new .sharedParameters .v1 t
        nested).content) p x := fun t =>
    (Canonical.hasNoFloat_iff (hBuilt t).isNormal_content).mp
      rfl
  rcases subject_bytes_eq_iff (hBuilt ⟨0, 0⟩) (hBuilt ⟨1, 0⟩)
      (hFloat ⟨0, 0⟩) (hFloat ⟨1, 0⟩) with
    ⟨bytes, otherBytes, hBytes, -, hOther, -, hSame⟩
  have hEqual : bytes = otherBytes :=
    hSame.mpr ⟨rfl, rfl, rfl⟩
  exact ⟨isNormal_nested, bytes, hBytes, hEqual ▸ hOther⟩

end Document

end Federation
