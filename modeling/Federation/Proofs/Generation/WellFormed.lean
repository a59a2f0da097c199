import Federation.Proofs.Generation.Content
import Federation.Proofs.Reading.Document

/-
  Generators whose documents are well formed, among them
  those of the library, and sets of such generators.

  Main declarations:
    * `Document.isWellFormed_new`
    * `Generator.FormsDocuments`
    * `GeneratorSet.IsProper`
    * `GeneratorSet.IsProper.register`
    * `GeneratorSet.IsProper.setEligibility`
    * `GeneratorSet.isProper_builtin`
-/

namespace Federation

namespace Content

------------------------------------------------------------
-- Contents
------------------------------------------------------------

/- Content as it is held: in order, and normal. -/
structure IsFormed (content : Json.Members) : Prop where
  ordered : Table.IsOrdered content
  normal : ∀ m ∈ content, m.2.IsNormal

theorem isFormed_ofList
    {parts : List (String × Json)}
    (hParts : ∀ part ∈ parts, part.2.IsExact) :
    IsFormed (Table.ofList parts) :=
  ⟨Table.ofList_isOrdered parts, fun m hMem =>
    (hParts m (Table.mem_of_mem_ofList hMem)).normal⟩

variable {r : Registry}
variable {content : Json.Members}

theorem isFormed_privateV1
    (hContent : privateV1 r = .ok content) :
    IsFormed content := by
  rcases privateV1_eq_ok_iff.mp hContent with ⟨_, rfl⟩
  exact isFormed_ofList (isExact_privatePartsV1 r)

theorem isFormed_privateV2
    (hContent : privateV2 r = .ok content) :
    IsFormed content := by
  rcases privateV2_eq_ok_iff.mp hContent with
    ⟨_, code, _, rfl⟩
  exact isFormed_ofList (isExact_privatePartsV2 r code)

theorem isFormed_shared
    {render : CertificationAuthority → Json}
    {settings : Json.Members}
    (hRender : ∀ a, (render a).IsExact)
    (hSettings : ∀ part ∈ settings, part.2.IsExact)
    (hContent : shared render settings r = .ok content) :
    IsFormed content := by
  rcases shared_eq_ok_iff.mp hContent with ⟨_, rfl⟩
  exact isFormed_ofList
    (isExact_sharedParts r hRender hSettings)

end Content

------------------------------------------------------------
-- Generators
------------------------------------------------------------

theorem Instant.IsRepresentable.truncate
    {t : Instant}
    (hTime : t.IsRepresentable) :
    t.truncate.IsRepresentable := by
  rcases hTime with ⟨hLeast, hGreatest, hNanos, hLeap⟩
  refine ⟨hLeast, hGreatest, ?_, ?_⟩
  · change t.nanos / 1000000000 * 1000000000 < 2000000000
    omega
  · intro hSecond
    change 1000000000 ≤
      t.nanos / 1000000000 * 1000000000 at hSecond
    exact hLeap (by omega)

/- A new document is well formed if its content is. -/
theorem Document.isWellFormed_new
    {now : Instant}
    {content : Json.Members}
    (kind : DocumentKind)
    (version : Version)
    (hTime : now.IsRepresentable)
    (hContent : Content.IsFormed content) :
    (Document.new kind version now content).IsWellFormed where
  instant := hTime.truncate
  ordered := hContent.ordered.filter _
  normal m hMem :=
    hContent.normal m (List.mem_filter.mp hMem).1
  noEnvelope m hMem := by
    simpa using (List.mem_filter.mp hMem).2

namespace Generator

/-
  The documents of a generator are as documents are held,
  which they are if they are new or have been read.
-/
def FormsDocuments (g : Generator) : Prop :=
  ∀ kind t r d, t.IsRepresentable →
    g.generate kind t r = .ok d → d.IsWellFormed

theorem formsDocuments_ofContent
    {version : Version}
    {content : DocumentKind → Registry →
      Except GenerationFault Json.Members}
    (hContent : ∀ kind r members,
      content kind r = .ok members →
        Content.IsFormed members) :
    (ofContent version content).FormsDocuments := by
  intro kind t r d hTime hGenerate
  rcases generate_ofContent_iff.mp hGenerate with
    ⟨members, hMembers, rfl⟩
  exact Document.isWellFormed_new kind version hTime
    (hContent kind r members hMembers)

theorem formsDocuments_v1 : v1.FormsDocuments := by
  apply formsDocuments_ofContent
  intro kind r members hMembers
  cases kind with
  | privateParameters =>
      exact Content.isFormed_privateV1 hMembers
  | sharedParameters =>
      refine Content.isFormed_shared
        Content.isExact_authority ?_ hMembers
      simp

theorem formsDocuments_v2 : v2.FormsDocuments := by
  apply formsDocuments_ofContent
  intro kind r members hMembers
  cases kind with
  | privateParameters =>
      exact Content.isFormed_privateV2 hMembers
  | sharedParameters =>
      refine Content.isFormed_shared
        Content.isExact_authorityWithProfile ?_ hMembers
      exact List.forall_mem_singleton.mpr
        (Content.isExact_memberClasses r)

end Generator

------------------------------------------------------------
-- Sets of Generators
------------------------------------------------------------

instance : Std.IsLinearOrder Version where
  le_refl v := Nat.le_refl v.number
  le_trans _ _ _ := Nat.le_trans
  le_antisymm _ _ hLess hMore :=
    Version.ext_number (Nat.le_antisymm hLess hMore)
  le_total v w := Nat.le_total v.number w.number

instance : Std.LawfulOrderLT Version where
  lt_iff _ _ := Nat.lt_iff_le_and_not_ge

namespace GeneratorSet

/-
  A set holds generators in the order of versions, each of
  which makes documents as documents are held.
-/
structure IsProper (g : GeneratorSet) : Prop where
  ordered : Table.IsOrdered g.table
  forms : ∀ entry ∈ g.table, entry.2.FormsDocuments

theorem isProper_builtin : builtin.IsProper := by
  constructor
  · exact Table.isOrdered_of_keys (by decide)
  · simp [builtin, Generator.formsDocuments_v1,
      Generator.formsDocuments_v2]

/- A set stays proper with one more generator, of any kind. -/
theorem IsProper.register
    {g g' : GeneratorSet}
    {generator : Generator}
    (hProper : g.IsProper)
    (hForms : generator.FormsDocuments)
    (hRegister : g.register generator = .ok g') :
    g'.IsProper := by
  rw [GeneratorSet.register] at hRegister
  split at hRegister
  · cases hRegister
  · cases hRegister
    refine ⟨Table.insert_isOrdered _ _ hProper.ordered, ?_⟩
    intro entry hMem
    rcases Table.mem_of_mem_insert hMem with rfl | hBefore
    · exact hForms
    · exact hProper.forms entry hBefore

theorem mem_of_get
    {g : GeneratorSet}
    {version : Version}
    {operation : GeneratorOperation}
    {generator : Generator}
    (hGet : g.get version operation = .ok generator) :
    (version, generator) ∈ g.table := by
  rw [get] at hGet
  cases hFound : g.table.get? version with
  | none => simp [hFound] at hGet
  | some found =>
      rw [hFound] at hGet
      cases hGet
      rw [Table.get?_eq_lookup] at hFound
      exact Table.mem_of_lookup hFound

/- A set stays proper whichever versions may become current. -/
theorem IsProper.setEligibility
    {g g' : GeneratorSet}
    {version : Version}
    {isEligible : Bool}
    (hProper : g.IsProper)
    (hSet : g.setEligibility version isEligible = .ok g') :
    g'.IsProper := by
  rw [GeneratorSet.setEligibility] at hSet
  cases hGet : g.get version
      (.generate .privateParameters) with
  | error e =>
      rw [hGet] at hSet
      cases hSet
  | ok generator =>
      rw [hGet] at hSet
      cases hSet
      have hOld := hProper.forms _ (mem_of_get hGet)
      refine ⟨Table.insert_isOrdered _ _ hProper.ordered, ?_⟩
      intro entry hMem
      rcases Table.mem_of_mem_insert hMem with rfl | hBefore
      · exact hOld
      · exact hProper.forms entry hBefore

theorem IsProper.nodup_versions
    {g : GeneratorSet}
    (hProper : g.IsProper) :
    g.versions.Nodup :=
  hProper.ordered.nodup_keys

end GeneratorSet

end Federation
