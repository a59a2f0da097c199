import Federation.Proofs.Document
import Federation.Proofs.Text
import Federation.Publication.Directory

/-
  The files of publication are read back: the manifest of a
  bundle, the index that names the current version, and the
  documents. The files of a sound bundle make a published
  one.

  Main declarations:
    * `Manifest.decode?_members`
    * `CurrentIndex.decode?_members`
    * `Publication.IsBundle`
    * `Bundle.IsSound`
    * `Bundle.IsSound.isBundle`
-/

namespace Federation

open Reading

------------------------------------------------------------
-- Files
------------------------------------------------------------

/- What is read from a file is read from the value written. -/
theorem Publication.decode?_fileBytes
    {α : Type}
    {reader : Reader Json.Draft α}
    {members : List (String × Json)}
    {depth : Nat}
    {a : α}
    (hPrintable : Json.IsPrintable depth (.object members))
    (hDepth : depth < Json.Builder.depthLimit)
    (hRead : reader (Json.draft (.object members)) = .ok a) :
    decode? reader (fileBytes members) = some a := by
  rw [decode?, fileBytes, Text.ofBytes?_toBytes]
  simp [Json.ofText?_indented hPrintable hDepth, hRead,
    Except.toOption]

theorem Digest.read_eq_ok
    {σ : Type}
    [Source σ]
    {v : σ}
    {digest : Digest}
    (hText : Source.text? v = some digest.hex) :
    Digest.read v = .ok digest := by
  rw [Digest.read, text_eq_ok hText]
  rfl

theorem isPrintable_version
    (depth : Nat)
    (v : Version) :
    v.toJson.IsPrintable depth := by
  have hNormal := Document.isNormal_version v
  cases hNormal with
  | integer hRange => exact .integer hRange

------------------------------------------------------------
-- Manifests
------------------------------------------------------------

namespace Manifest

/- The values of a manifest's members, as they are found. -/
def entries (m : Manifest) : List (String × Json.Draft) :=
  [ ("version", .leaf (some m.version.toJson)),
    ("generatedAt",
      .leaf (some (.string m.generatedAt.display))),
    ("publishedAt",
      .leaf (some (.string m.publishedAt.display))),
    ("privateDigest", .leaf (some m.privateDigest.toJson)),
    ("sharedDigest", .leaf (some m.sharedDigest.toJson)) ]

theorem read_draft
    {m : Manifest}
    (hGenerated : m.generatedAt.IsRepresentable)
    (hPublished : m.publishedAt.IsRepresentable) :
    Manifest.read (Json.draft (.object m.members)) =
      .ok m := by
  have hForm : Source.form? (Json.draft (.object m.members)) =
      some (.entries m.entries) :=
    rfl
  have hVersion :
      Version.read (Json.Draft.leaf (some m.version.toJson)) =
        .ok m.version :=
    Version.read_eq_ok rfl
  have hInstant : ∀ {t : Instant}, t.IsRepresentable →
      Document.readInstant
          (Json.Draft.leaf (some (.string t.display))) =
        .ok t :=
    fun hTime => Document.readInstant_eq_ok rfl hTime
  have hDigest : ∀ digest : Digest,
      Digest.read (Json.Draft.leaf (some digest.toJson)) =
        .ok digest :=
    fun _ => Digest.read_eq_ok rfl
  rw [Manifest.read, Record.read, hForm]
  refine Record.readEntries_eq_ok ?_ ?_ ?_
  · simp [entries]
  · unfold Record.JudgesFields
    simp [record, Record.required, Record.seq, Record.field,
      Record.pure, entries, List.lookup_cons, hVersion,
      hInstant hGenerated, hInstant hPublished, hDigest,
      Except.map]
  · simp [record, Record.required, Record.seq, Record.field,
      Record.pure, entries, List.lookup_cons, hVersion,
      hInstant hGenerated, hInstant hPublished, hDigest]
    rfl

/- A manifest is read back from its file. -/
theorem decode?_members
    {m : Manifest}
    (hGenerated : m.generatedAt.IsRepresentable)
    (hPublished : m.publishedAt.IsRepresentable) :
    Publication.decode? Manifest.read
      (Publication.fileBytes m.members) = some m := by
  have hPrintable :
      Json.IsPrintable 1 (.object m.members) := by
    refine .object ?_
    simp only [members, List.forall_mem_cons,
      List.not_mem_nil, false_implies, implies_true, and_true]
    exact ⟨isPrintable_version 0 _, .string _, .string _,
      .string _, .string _⟩
  exact Publication.decode?_fileBytes hPrintable (by decide)
    (read_draft hGenerated hPublished)

end Manifest

------------------------------------------------------------
-- The Current Version
------------------------------------------------------------

namespace CurrentIndex

/- The values of an index's members, as they are found. -/
def entries (i : CurrentIndex) : List (String × Json.Draft) :=
  [ ("currentVersion", .leaf (some i.currentVersion.toJson)),
    ("updatedAt",
      .leaf (some (.string i.updatedAt.display))) ]

theorem read_draft
    {i : CurrentIndex}
    (hUpdated : i.updatedAt.IsRepresentable) :
    CurrentIndex.read (Json.draft (.object i.members)) =
      .ok i := by
  have hForm : Source.form? (Json.draft (.object i.members)) =
      some (.entries i.entries) :=
    rfl
  have hVersion :
      Version.read
          (Json.Draft.leaf (some i.currentVersion.toJson)) =
        .ok i.currentVersion :=
    Version.read_eq_ok rfl
  have hInstant :
      Document.readInstant
          (Json.Draft.leaf (some (.string i.updatedAt.display))) =
        .ok i.updatedAt :=
    Document.readInstant_eq_ok rfl hUpdated
  rw [CurrentIndex.read, Record.read, hForm]
  refine Record.readEntries_eq_ok ?_ ?_ ?_
  · simp [entries]
  · unfold Record.JudgesFields
    simp [Record.required, Record.seq, Record.field,
      Record.pure, entries, List.lookup_cons, hVersion, hInstant,
      Except.map]
  · simp [Record.required, Record.seq, Record.field,
      Record.pure, entries, List.lookup_cons, hVersion, hInstant]
    rfl

/- An index is read back from its file. -/
theorem decode?_members
    {i : CurrentIndex}
    (hUpdated : i.updatedAt.IsRepresentable) :
    Publication.decode? CurrentIndex.read
      (Publication.fileBytes i.members) = some i := by
  have hPrintable :
      Json.IsPrintable 1 (.object i.members) := by
    refine .object ?_
    simp only [members, List.forall_mem_cons,
      List.not_mem_nil, false_implies, implies_true, and_true]
    exact ⟨isPrintable_version 0 _, .string _⟩
  exact Publication.decode?_fileBytes hPrintable (by decide)
    (read_draft hUpdated)

end CurrentIndex

------------------------------------------------------------
-- Published Bundles
------------------------------------------------------------

namespace Publication

/-
  A file holds a document of a kind that declares a version,
  is valid for it, and has a digest.
-/
def IsDocumentFile
    (kind : DocumentKind)
    (version : Version)
    (digest : Digest)
    (content : Bytes) : Prop :=
  ∃ text value, ∃ d : Document kind,
    Text.ofBytes? content = some text ∧
    Json.read? text = some value ∧
    Document.read kind value = .ok d ∧
    d.version = version ∧
    Validation.validate kind version value = .ok () ∧
    d.digest = .ok digest

/-
  A directory holds the bundle of a version: both documents
  and the manifest that has their digests, and nothing else.
-/
def IsBundle
    (version : Version)
    (files : Tree) : Prop :=
  ∃ manifest privateParameters sharedParameters,
    files =
      [ (manifestFile, .file manifest),
        (DocumentKind.privateParameters.fileName,
          .file privateParameters),
        (DocumentKind.sharedParameters.fileName,
          .file sharedParameters) ] ∧
    ∃ m, decode? Manifest.read manifest = some m ∧
      m.version = version ∧
      IsDocumentFile .privateParameters version
        m.privateDigest privateParameters ∧
      IsDocumentFile .sharedParameters version
        m.sharedDigest sharedParameters

/- A valid document is in the file that it is written to. -/
theorem isDocumentFile_fileBytes
    {kind : DocumentKind}
    {version : Version}
    {digest : Digest}
    {d : Document kind}
    (hFormed : d.IsWellFormed)
    (hDeclared : d.version = version)
    (hDigest : d.digest = .ok digest)
    (hValid :
      Validation.validateDocument version d = .ok ()) :
    IsDocumentFile kind version digest
      (fileBytes d.members) :=
  ⟨_, d.toJson, d, Text.ofBytes?_toBytes _,
    Document.read?_indented hFormed hDigest hValid,
    Document.read_toJson hFormed, hDeclared, hValid, hDigest⟩

end Publication

/-
  A bundle of documents as they are held in memory, with
  their digests, that are valid for the bundle's version.
-/
structure Bundle.IsSound (b : Bundle) : Prop where
  privateFormed : b.privateParameters.IsWellFormed
  sharedFormed : b.sharedParameters.IsWellFormed
  privateDigest :
    b.privateParameters.digest = .ok b.privateDigest
  sharedDigest :
    b.sharedParameters.digest = .ok b.sharedDigest
  privateValid :
    Validation.validateDocument b.version
      b.privateParameters = .ok ()
  sharedValid :
    Validation.validateDocument b.version
      b.sharedParameters = .ok ()

/- The directory with the files of a bundle. -/
def Bundle.directory
    (b : Bundle)
    (publishedAt : Instant) : Tree :=
  [ (Publication.manifestFile,
      .file (Publication.fileBytes
        (Manifest.ofBundle b publishedAt).members)),
    (DocumentKind.privateParameters.fileName,
      .file (Publication.fileBytes
        b.privateParameters.members)),
    (DocumentKind.sharedParameters.fileName,
      .file (Publication.fileBytes
        b.sharedParameters.members)) ]

/- The files of a sound bundle are a published bundle. -/
theorem Bundle.IsSound.isBundle
    {b : Bundle}
    {publishedAt : Instant}
    (hSound : b.IsSound)
    (hPublished : publishedAt.IsRepresentable) :
    Publication.IsBundle b.version
      (b.directory publishedAt) :=
  ⟨_, _, _, rfl, Manifest.ofBundle b publishedAt,
    Manifest.decode?_members hSound.privateFormed.instant
      hPublished,
    rfl,
    Publication.isDocumentFile_fileBytes hSound.privateFormed
      b.private_declared hSound.privateDigest
      hSound.privateValid,
    Publication.isDocumentFile_fileBytes hSound.sharedFormed
      b.shared_declared hSound.sharedDigest
      hSound.sharedValid⟩

end Federation
