import Federation.Proofs.Json.RoundTrip
import Federation.Proofs.Reading.Record
import Federation.Proofs.Schema.Depth
import Federation.Proofs.Validation

/-
  Documents are read back from their files: a document that
  has a digest and is valid for a version is what its
  indented text says.

  Main declarations:
    * `Document.IsWellFormed`
    * `Document.read_object_eq`
    * `Document.read_toJson`
    * `Document.hasNoFloat_of_digest`
    * `Document.read?_indented`
-/

namespace Federation

namespace Document

variable {kind : DocumentKind}

------------------------------------------------------------
-- Well-Formed Documents
------------------------------------------------------------

/-
  A document as it is held in memory: its content is normal
  and in order, has no key of the envelope, and its instant
  is within the years of the calendar.
-/
structure IsWellFormed (d : Document kind) : Prop where
  instant : d.generatedAt.IsRepresentable
  ordered : Table.IsOrdered d.content
  normal : ∀ m ∈ d.content, m.2.IsNormal
  noEnvelope : ∀ m ∈ d.content, m.1 ∉ envelopeKeys

variable {d : Document kind}

theorem IsWellFormed.nodup_members
    (hFormed : d.IsWellFormed) :
    (d.members.map Prod.fst).Nodup := by
  have hEnvelope : ∀ key ∈ envelopeKeys,
      key ∉ d.content.map Prod.fst := by
    intro key hKey hMem
    rcases List.mem_map.mp hMem with ⟨m, hContent, rfl⟩
    exact hFormed.noEnvelope m hContent hKey
  have hContent := hFormed.ordered.nodup_keys
  have hVersion := hEnvelope "version" (by decide)
  have hInstant := hEnvelope "generatedAt" (by decide)
  simp only [members, List.map_cons, List.nodup_cons,
    List.mem_cons, not_or]
  exact ⟨⟨by decide, hVersion⟩, hInstant, hContent⟩

theorem toJson_eq (d : Document kind) :
    d.toJson = .object (Table.ofList d.members) :=
  rfl

theorem IsWellFormed.members_perm
    (hFormed : d.IsWellFormed) :
    (Table.ofList d.members).Perm d.members :=
  Table.ofList_perm hFormed.nodup_members

theorem isNormal_version (v : Version) :
    v.toJson.IsNormal := by
  have hBounded := v.bounded
  refine .integer ?_
  simp only [Json.integerInRange, Bool.and_eq_true,
    decide_eq_true_eq]
  omega

theorem isNormal_members
    (hContent : ∀ m ∈ d.content, m.2.IsNormal) :
    ∀ m ∈ d.members, m.2.IsNormal := by
  simp only [members, List.forall_mem_cons]
  exact ⟨isNormal_version d.version, .string _, hContent⟩

theorem isNormal_toJson
    (hContent : ∀ m ∈ d.content, m.2.IsNormal) :
    d.toJson.IsNormal := by
  refine .object (Table.ofList_isOrdered d.members) ?_
  intro m hMem
  exact isNormal_members hContent m
    (Table.mem_of_mem_ofList hMem)

/- The members of a document are put in order when read. -/
theorem IsWellFormed.normalize_members
    (hFormed : d.IsWellFormed) :
    (Json.object d.members).normalize = d.toJson := by
  rw [Json.normalize, toJson_eq,
    Json.normalizeMembers_eq_self _
      (isNormal_members hFormed.normal)]

------------------------------------------------------------
-- Reading Back
------------------------------------------------------------

/- What is left beside the envelope is the content. -/
theorem IsWellFormed.filter_members
    (hFormed : d.IsWellFormed) :
    (Table.ofList d.members).filter
        (fun m => m.1 ∉ envelopeKeys) = d.content := by
  have hContent : d.members.filter
      (fun m => m.1 ∉ envelopeKeys) = d.content := by
    have hAll : d.content.filter
        (fun m => m.1 ∉ envelopeKeys) = d.content :=
      List.filter_eq_self.mpr fun m hMem => by
        simpa using hFormed.noEnvelope m hMem
    simp only [members]
    rw [List.filter_cons_of_neg (by simp [envelopeKeys]),
      List.filter_cons_of_neg (by simp [envelopeKeys]), hAll]
  have hPerm := hFormed.members_perm.filter
    (fun m => m.1 ∉ envelopeKeys)
  rw [hContent] at hPerm
  exact Table.IsOrdered.eq_of_perm
    ((Table.ofList_isOrdered d.members).filter _)
    hFormed.ordered hPerm

theorem IsWellFormed.lookup_members
    (hFormed : d.IsWellFormed)
    (key : String) :
    (Table.ofList d.members).lookup key =
      d.members.lookup key :=
  Table.lookup_ofList hFormed.nodup_members key

/- The values of content have their types already. -/
theorem settle_content (content : Json.Members) :
    (content.mapM fun (key, v) => do
      return (key, ← Reading.expect "a value"
        Reading.Source.settle? v) :
      Except Reading.Fault Json.Members) = .ok content := by
  induction content with
  | nil => rfl
  | cons member rest ih =>
      rw [List.mapM_cons, ih]
      rfl

/- An object is read by its envelope, and the rest is kept. -/
theorem read_object
    (kind : DocumentKind)
    (entries : Json.Members) :
    Document.read kind (.object entries) =
      ((envelope kind).readEntries false entries).map
        fun finish =>
          finish (entries.filter fun m =>
            m.1 ∉ envelopeKeys) := by
  have hForm : Reading.Source.form? (Json.object entries) =
      some (.entries entries) :=
    rfl
  have hOwn :
      (envelope kind).fields.map Reading.Field.name =
        envelopeKeys :=
    rfl
  rw [Document.read, Reading.Record.readShared, hForm]
  dsimp only
  rw [hOwn, settle_content]
  cases (envelope kind).readEntries false entries <;> rfl

/-
  Where the version can be read, the instant decides on the
  envelope.
-/
theorem readEntries_envelope
    {entries : Json.Members}
    {version : Version}
    {v : Json}
    (hKeys : (entries.map Prod.fst).Nodup)
    (hVersion :
      entries.lookup "version" = some version.toJson)
    (hInstant : entries.lookup "generatedAt" = some v) :
    (envelope kind).readEntries false entries =
      (readInstant v).map fun t content =>
        ⟨version, t, Table.ofList content⟩ := by
  have hRead : Version.read version.toJson = .ok version :=
    Version.read_eq_ok rfl
  have hJudge :
      Reading.Record.judge (envelope kind).fields false []
          entries =
        (readInstant v).map fun _ => () := by
    refine Reading.Record.judge_eq_of_others hKeys (by simp)
      (f := ⟨"generatedAt", fun v => (readInstant v).map
        fun _ => ()⟩) rfl hInstant ?_
    have hFields : (envelope kind).fields =
        [ ⟨"version", fun v => (Version.read v).map
            fun _ => ()⟩,
          ⟨"generatedAt", fun v => (readInstant v).map
            fun _ => ()⟩ ] :=
      rfl
    rw [hFields]
    simp [hVersion, hRead, Except.map]
  rw [Reading.Record.readEntries, hJudge]
  simp only [envelope, Reading.Record.required,
    Reading.Record.seq, Reading.Record.field,
    Reading.Record.pure, hVersion, hInstant, hRead]
  cases readInstant v <;> rfl

/-
  An object without repeated keys is read if its version and
  its instant are.
-/
theorem read_object_eq
    {entries : Json.Members}
    {version : Version}
    {v : Json}
    (hKeys : (entries.map Prod.fst).Nodup)
    (hVersion :
      entries.lookup "version" = some version.toJson)
    (hInstant : entries.lookup "generatedAt" = some v) :
    Document.read kind (.object entries) =
      (readInstant v).map fun t =>
        ⟨version, t, Table.ofList (entries.filter fun m =>
          m.1 ∉ envelopeKeys)⟩ := by
  rw [read_object,
    readEntries_envelope hKeys hVersion hInstant]
  cases readInstant v <;> rfl

/- A document is read back from its object. -/
theorem read_toJson
    (hFormed : d.IsWellFormed) :
    Document.read kind d.toJson = .ok d := by
  have hKeys :
      ((Table.ofList d.members).map Prod.fst).Nodup :=
    (hFormed.members_perm.map Prod.fst).nodup_iff.mpr
      hFormed.nodup_members
  have hInstant :
      readInstant (Json.string d.generatedAt.display) =
        .ok d.generatedAt :=
    readInstant_eq_ok rfl hFormed.instant
  rw [toJson_eq,
    read_object_eq hKeys (hFormed.lookup_members "version")
      (hFormed.lookup_members "generatedAt"),
    hInstant, hFormed.filter_members, Except.map,
    Table.ofList_eq_self hFormed.ordered]

------------------------------------------------------------
-- Files
------------------------------------------------------------

theorem isNormal_subject_of_content
    (hContent : (Json.object d.content).IsNormal) :
    d.subject.IsNormal := by
  have hKeys :
      ["content", "kind", "version"].Pairwise (· < ·) := by
    decide
  refine .object (Table.isOrdered_of_keys hKeys) ?_
  simp only [List.forall_mem_cons, List.not_mem_nil,
    false_implies, implies_true, and_true]
  exact ⟨hContent, .string _, isNormal_version d.version⟩

theorem isNormal_subject
    (hFormed : d.IsWellFormed) :
    d.subject.IsNormal :=
  isNormal_subject_of_content
    (.object hFormed.ordered hFormed.normal)

/- A document that has a digest has no float. -/
theorem hasNoFloat_of_digest
    {digest : Digest}
    (hFormed : d.IsWellFormed)
    (hDigest : d.digest = .ok digest) :
    Canonical.HasNoFloat d.toJson := by
  rw [Document.digest] at hDigest
  cases hBytes : Canonical.encode d.subject with
  | error fault => simp [hBytes, Except.map] at hDigest
  | ok bytes =>
      have hFloat :=
        Canonical.hasNoFloat_of_encode_eq_ok hBytes
      rw [Json.normalize_eq_self _ (isNormal_subject hFormed),
        subject, Canonical.hasNoFloat_object,
        List.forall_mem_cons,
        Canonical.hasNoFloat_object] at hFloat
      apply Canonical.hasNoFloat_ofMembers
      rw [members, List.forall_mem_cons, List.forall_mem_cons]
      exact ⟨Canonical.hasNoFloat_integer _,
        Canonical.hasNoFloat_string _, hFloat.1⟩

/- A valid document with a digest is read back from its text. -/
theorem read?_indented
    {version : Version}
    {digest : Digest}
    (hFormed : d.IsWellFormed)
    (hDigest : d.digest = .ok digest)
    (hValid :
      Validation.validateDocument version d = .ok ()) :
    Json.read? (Json.indented (.object d.members)) =
      some d.toJson := by
  rcases Validation.validate_eq_ok_iff.mp hValid with
    ⟨schema, hSchema, -, hAccepts, -⟩
  have hPrintable :=
    Schema.isPrintable_of_accepts schema.root d.toJson
      hAccepts (isNormal_toJson hFormed.normal)
      (hasNoFloat_of_digest hFormed hDigest)
  have hDepth := ParameterSchema.depth_root_lt hSchema
  have hMembers :
      Json.IsPrintable schema.root.depth
        (.object d.members) := by
    generalize schema.root.depth = depth at hPrintable
    rw [toJson_eq] at hPrintable
    cases hPrintable with
    | object hParts =>
        exact .object fun m hMem =>
          hParts m (hFormed.members_perm.mem_iff.mpr hMem)
  rw [Json.read?_indented hMembers hDepth,
    hFormed.normalize_members]

end Document

------------------------------------------------------------
-- A Small Document
------------------------------------------------------------

/-
  Shared parameters of the first version without services,
  with some instant, number of seconds and members.
-/
def Json.smallShared
    (generatedAt : String)
    (seconds : Json)
    (members : List Json) : Json :=
  .object
    [ ("approvedCAs", .array []),
      ("approvedTSAs", .array []),
      ("generatedAt", .string generatedAt),
      ("globalGroups", .array []),
      ("globalSettings",
        .object [("ocspFreshnessSeconds", seconds)]),
      ("instanceIdentifier", .string "EE"),
      ("members", .array members),
      ("securityServers", .array []),
      ("version", .integer 1) ]

theorem Json.isNormal_smallShared
    {generatedAt : String}
    {seconds : Json}
    {members : List Json}
    (hSeconds : seconds.IsNormal)
    (hMembers : ∀ m ∈ members, m.IsNormal) :
    (smallShared generatedAt seconds members).IsNormal := by
  have hSettings :
      IsNormal (.object [("ocspFreshnessSeconds", seconds)]) :=
    .object (List.pairwise_singleton _ _)
      (List.forall_mem_singleton.mpr hSeconds)
  have hNone : IsNormal (.array []) :=
    .array (List.forall_mem_nil _)
  have hKeys :
      [ "approvedCAs", "approvedTSAs", "generatedAt",
        "globalGroups", "globalSettings",
        "instanceIdentifier", "members", "securityServers",
        "version" ].Pairwise (· < ·) := by
    decide
  refine .object (Table.isOrdered_of_keys hKeys) ?_
  simp only [List.forall_mem_cons, List.not_mem_nil,
    false_implies, implies_true, and_true]
  exact ⟨hNone, hNone, .string _, hNone, hSettings,
    .string _, .array hMembers, hNone, .integer (by decide)⟩

end Federation
