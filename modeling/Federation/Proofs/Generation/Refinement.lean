import Federation.Proofs.Json.Without
import Federation.Proofs.Run.Approval

/-
  The second version refines the first. Both have shared
  parameters of the same registries, and those of the first
  version are what is left of the second without the parts
  that it adds. A registry whose documents of the second
  version are generated and valid has valid documents of the
  first version as well.

  Main declarations:
    * `Content.withoutAdditions`
    * `Content.withoutAdditions_sharedV2`
    * `Generator.PassesAt.privateV1_of_privateV2`
    * `Generator.PassesAt.sharedV1_of_sharedV2`
    * `Generator.v2_refines_v1`
-/

namespace Federation

------------------------------------------------------------
-- Shared Content
------------------------------------------------------------

namespace Content

variable {r : Registry}

/-
  Shared parameters without the profiles of authorities and
  without the classes of members.
-/
def withoutAdditions (content : Json.Members) : Json.Members :=
  Table.modify "approvedCAs"
    (Json.mapItems (Json.without "certificateProfileInfo"))
    (Table.modify "globalSettings"
      (Json.without "memberClasses") content)

/- An authority is shown with nothing but its profile added. -/
theorem without_profile (a : CertificationAuthority) :
    (authorityWithProfile a).without
      "certificateProfileInfo" = authority a :=
  Json.without_ofMembers _ (by simp [authorityParts])

/- Without what it adds, the second version shows the first. -/
theorem withoutAdditions_sharedV2 (r : Registry) :
    withoutAdditions (Table.ofList
        (sharedParts authorityWithProfile
          [("memberClasses", memberClasses r)] r)) =
      Table.ofList (sharedParts authority [] r) := by
  have hAuthorities :
      (authorities authorityWithProfile r).mapItems
          (Json.without "certificateProfileInfo") =
        authorities authority r := by
    rw [authorities, Json.ofList, Json.mapItems, List.map_map,
      authorities, Json.ofList]
    exact congrArg Json.array
      (List.map_congr_left fun a _ => without_profile a)
  have hSettings : ∀ freshness : Json,
      (Json.ofMembers
          (("ocspFreshnessSeconds", freshness) ::
            [("memberClasses", memberClasses r)])).without
          "memberClasses" =
        Json.ofMembers
          [("ocspFreshnessSeconds", freshness)] := by
    intro freshness
    have hNew : "memberClasses" ∉
        [("ocspFreshnessSeconds", freshness)].map Prod.fst := by
      simp
    exact Json.without_ofMembers _ hNew
  rw [withoutAdditions, Table.modify_ofList,
    Table.modify_ofList, sharedParts, sharedParts]
  simp only [Table.modify_cons, String.reduceEq, if_true,
    if_false, hAuthorities, hSettings]
  rfl

end Content

------------------------------------------------------------
-- Passing
------------------------------------------------------------

/- Of the certificates of a source, the first version shows one. -/
theorem Registry.HasValidParts.of_all
    {r : Registry}
    (hParts : r.HasValidParts
      ConfigurationSource.verificationCerts) :
    r.HasValidParts Content.firstCerts where
  instanceIdentifier := hParts.instanceIdentifier
  downloadUrls := hParts.downloadUrls
  sourceCerts s hs c hc := by
    have hFirst : c ∈ s.verificationCerts :=
      List.mem_of_mem_head? (Option.mem_toList.mp hc)
    exact hParts.sourceCerts s hs c hFirst
  managementAddress := hParts.managementAddress
  managementCert := hParts.managementCert

namespace Generator

variable {t u : Instant} {r : Registry}

/-
  What the first version asks of a registry, the second asks
  as well, and schemas accept an instant in both or in neither.
-/
theorem PassesAt.privateV1_of_privateV2
    (hPasses : v2.PassesAt .privateParameters t r) :
    v1.PassesAt .privateParameters t r := by
  rw [passesAt_privateV2_iff] at hPasses
  rw [passesAt_privateV1_iff]
  rcases hPasses with ⟨hTime, ⟨hParts, -⟩, hValid, -⟩
  exact ⟨hTime, hParts, hValid.of_all⟩

theorem PassesAt.sharedV1_of_sharedV2
    (hPasses : v2.PassesAt .sharedParameters t r) :
    v1.PassesAt .sharedParameters t r := by
  rw [passesAt_sharedV2_iff] at hPasses
  rw [passesAt_sharedV1_iff]
  rcases hPasses with ⟨hTime, hSeconds, hSharable, -⟩
  exact ⟨hTime, hSeconds, hSharable⟩

/-
  What is approved of in the second version is approved of in
  the first one, when both are generated at the same instants.
-/
theorem IsApproved.v1_of_v2
    (hApproved : v2.IsApproved r t u) :
    v1.IsApproved r t u := by
  rw [isApproved_iff (Or.inr rfl)] at hApproved
  rw [isApproved_iff (Or.inl rfl)]
  exact ⟨hApproved.1.privateV1_of_privateV2,
    hApproved.2.sharedV1_of_sharedV2⟩

/-
  The second version refines the first, for every registry.
  There are shared parameters of both versions or of neither,
  at whatever instants, and without the additions of the
  second version they are the same. If both documents of the
  second version are generated and valid, so are those of the
  first. In one world, whose clock does not depend on the
  version, a draft of the second version is not approved of
  while there is none of the first that is.
-/
theorem v2_refines_v1 (r : Registry) :
    (∀ t u,
      (∃ d, v1.generate .sharedParameters t r = .ok d) ↔
        ∃ e, v2.generate .sharedParameters u r = .ok e) ∧
    (∀ t u d e,
      v1.generate .sharedParameters t r = .ok d →
      v2.generate .sharedParameters u r = .ok e →
        d.content = Content.withoutAdditions e.content) ∧
    (∀ t u,
      v2.PassesAt .privateParameters t r →
      v2.PassesAt .sharedParameters u r →
        v1.PassesAt .privateParameters t r ∧
          v1.PassesAt .sharedParameters u r) ∧
    ∀ s w d b,
      ((Run.draft v2 r).run s w).1 = .ok d →
      Run.approve v2 .v2 d = .ok b →
        ∃ d' b', ((Run.draft v1 r).run s w).1 = .ok d' ∧
          Run.approve v1 .v1 d' = .ok b' := by
  refine ⟨fun t u => ?_, fun t u d e hFirst hSecond => ?_,
    fun t u hPrivate hShared => ?_,
    fun s w d b hDraft hApprove => ?_⟩
  · exact (exists_generate_shared_iff rfl).trans
      (exists_generate_shared_iff rfl).symm
  · rw [content_shared rfl hFirst, content_shared rfl hSecond,
      Content.withoutAdditions_sharedV2]
  · exact ⟨hPrivate.privateV1_of_privateV2,
      hShared.sharedV1_of_sharedV2⟩
  · rw [Run.run_draft] at hDraft ⊢
    exact IsApproved.v1_of_v2 ⟨d, b, hDraft, hApprove⟩

/-
  At the start of 2025 the small registry has valid documents
  of both versions, a draft of the second is approved of, and
  with the additions left out the shared parameters are one.
-/
theorem v2_refines_v1_small :
    (v2.PassesAt .privateParameters ⟨1735689600, 0⟩
        (Registry.small .small) ∧
      v2.PassesAt .sharedParameters ⟨1735689600, 0⟩
        (Registry.small .small)) ∧
    (v1.PassesAt .privateParameters ⟨1735689600, 0⟩
        (Registry.small .small) ∧
      v1.PassesAt .sharedParameters ⟨1735689600, 0⟩
        (Registry.small .small)) ∧
    (∃ d e,
      v1.generate .sharedParameters ⟨1735689600, 0⟩
          (Registry.small .small) = .ok d ∧
      v2.generate .sharedParameters ⟨1735689600, 0⟩
          (Registry.small .small) = .ok e ∧
      d.content = Content.withoutAdditions e.content) ∧
    ∃ d b d' b',
      Run.draftAt v2 (Registry.small .small)
          ⟨1735689600, 0⟩ ⟨1735689600, 0⟩ = .ok d ∧
      Run.approve v2 .v2 d = .ok b ∧
      ((Run.draft v1 (Registry.small .small)).run
        ⟨fun _ => ⟨1735689600, 0⟩, fun _ => "", fun _ => none,
          fun _ => false⟩ (.ofTree [])).1 = .ok d' ∧
      Run.approve v1 .v1 d' = .ok b' := by
  have hPrivate := passesAt_small .privateParameters
  have hShared := passesAt_small .sharedParameters
  rcases v2_refines_v1 (Registry.small .small) with
    ⟨-, hContent, hPasses, hDrafts⟩
  have hBoth := hPasses _ _ hPrivate hShared
  rcases hBoth.2 with ⟨d, hFirst, -⟩
  rcases id hShared with ⟨e, hSecond, -⟩
  rcases (isApproved_iff (Or.inr rfl)).mpr
      ⟨hPrivate, hShared⟩ with
    ⟨draft, b, hDraft, hApprove⟩
  have hRun : ((Run.draft v2 (Registry.small .small)).run
      ⟨fun _ => ⟨1735689600, 0⟩, fun _ => "", fun _ => none,
        fun _ => false⟩ (.ofTree [])).1 = .ok draft := by
    rw [Run.run_draft]
    exact hDraft
  rcases hDrafts _ _ _ _ hRun hApprove with
    ⟨draft', b', hDraft', hApprove'⟩
  exact ⟨⟨hPrivate, hShared⟩, hBoth,
    ⟨d, e, hFirst, hSecond, hContent _ _ d e hFirst hSecond⟩,
    draft, b, draft', b', hDraft, hApprove, hDraft', hApprove'⟩

end Generator

/- In both versions the small registry passes at timestamps. -/
theorem GeneratorSet.passesAll_small
    {t : Instant}
    (hTime : t.HasTimestamp) :
    builtin.PassesAll t (Registry.small .small) := by
  have hVersions : builtin.versions = [.v1, .v2] := rfl
  have hSecond : ∀ kind, Generator.v2.PassesAt kind t
      (Registry.small .small) :=
    fun kind => (Generator.passesAt_small kind).of_hasTimestamp
      (Or.inr rfl) hTime
  have hFirst : ∀ kind, Generator.v1.PassesAt kind t
      (Registry.small .small) := by
    intro kind
    cases kind with
    | privateParameters =>
        exact (hSecond .privateParameters).privateV1_of_privateV2
    | sharedParameters =>
        exact (hSecond .sharedParameters).sharedV1_of_sharedV2
  rw [PassesAll, hVersions]
  simp only [List.forall_mem_cons]
  exact ⟨⟨.v1, rfl, hFirst⟩, ⟨.v2, rfl, hSecond⟩, nofun⟩

end Federation
