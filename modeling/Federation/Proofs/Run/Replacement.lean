import Federation.Proofs.Generation.Refinement
import Federation.Proofs.Publication.Replacement
import Federation.Proofs.Run.CurrentVersion
import Federation.Proofs.Run.Reachable

/-
  What a reader finds in a root while a version is published
  once more. The place of the version has the whole of the
  earlier bundle or of the new one, except between the two
  operations that exchange them: there it has nothing, while
  the index goes on to name the version.

  Main declarations:
    * `Run.publish_exchanges_bundles`
    * `Run.exists_gap_under_index`
-/

namespace Federation

------------------------------------------------------------
-- A Small Bundle
------------------------------------------------------------

/- A version of the library has a bundle if it passes. -/
theorem Generator.exists_bundle_of_passesAt
    {g : Generator}
    {r : Registry}
    {t : Instant}
    (hBuiltin : g = .v1 ∨ g = .v2)
    (hTime : t.IsRepresentable)
    (hPasses : ∀ kind, g.PassesAt kind t r) :
    ∃ b : Bundle, b.version = g.version ∧ b.IsSound := by
  have hForms : g.FormsDocuments := by
    rcases hBuiltin with rfl | rfl
    · exact formsDocuments_v1
    · exact formsDocuments_v2
  rcases (isApproved_iff hBuiltin).mpr
      ⟨hPasses .privateParameters, hPasses .sharedParameters⟩
    with ⟨d, b, hDraft, hApprove⟩
  exact ⟨b, Run.isSound_of_approve
    (Run.Draft.isSound_of_draftAt hForms hTime hTime hDraft)
    hApprove⟩

/- The small registry has a bundle of the first version. -/
theorem Bundle.exists_isSound_small
    {now : Instant}
    (hNow : now.IsPlain)
    (hTime : now.IsRepresentable) :
    ∃ b : Bundle, b.version = .v1 ∧ b.IsSound := by
  rcases GeneratorSet.passesAll_small hNow.hasTimestamp .v1
      (by decide) with
    ⟨g, hGet, hPasses⟩
  have hFirst : g = .v1 := (Option.some.inj hGet).symm
  subst hFirst
  exact Generator.exists_bundle_of_passesAt (Or.inl rfl) hTime
    hPasses

namespace Run

open Program (Awaits)
open Publication
  (Owns IsBundle HasBundle HasFreshNames GivesWay bundleAt
    everything publish markCurrent indexed)

variable {s : Surroundings}
variable {root : Path}
variable {b : Bundle}
variable {w : World}

------------------------------------------------------------
-- A Small Root
------------------------------------------------------------

/- A root with the bundle of one version, and its index. -/
structure HoldsCurrent
    (root : Path)
    (b : Bundle)
    (w : World) : Prop where
  reachable : IsReachable root w.tree
  fresh : HasFreshNames still b.version
    (w.tree.entriesAt root) w.steps
  bundle : HasBundle b.version (w.tree.entriesAt root)
  index : indexed root (w.tree.entriesAt root) =
    .ok (some b.version)

theorem isSound_single
    {version : Version}
    {files : Tree}
    (hBundle : IsBundle version files) :
    Publication.IsSound
      (Table.insert version.display (.directory files) []) := by
  intro name node hNode
  rw [Table.get?_insert] at hNode
  split at hNode
  · rename_i hName
    cases hNode
    rw [hName]
    exact .bundle hBundle
  · cases hNode

/- A bundle is published next to what is in a root already. -/
theorem exists_published
    (hReachable : IsReachable root w.tree)
    (hFaultless : s.IsFaultless)
    (hInstants : ∀ step, (s.instant step).IsRepresentable)
    (hNames : HasFreshNames s b.version
      (w.tree.entriesAt root) w.steps)
    (hSound : b.IsSound) :
    ∃ (v : World) (t : Instant), IsReachable root v.tree ∧
      Awaits root everything
        ((w.tree.entriesAt root).insert b.version.display
          (.directory (b.directory t))) v := by
  have hBundles := hReachable.hasBundles
  have hEnd : Publication.PublishEnd root b
      (w.tree.entriesAt root) ((publish root b).run s w).1
      ((publish root b).failures s w)
      ((publish root b).run s w).2 :=
    Publication.ends_publish hInstants hNames
      (hBundles.holds.noFile _) hBundles.awaits
  rw [Program.failures_of_isFaultless hFaultless] at hEnd
  rcases hEnd.of_no_failure with ⟨-, t, hAwaits⟩
  exact ⟨_, t, hReachable.publish hInstants hNames hSound,
    hAwaits⟩

/- The bundle is published in an empty tree. -/
theorem exists_published_small
    (hSound : b.IsSound) :
    ∃ w, IsReachable (.ofText "out") w.tree ∧
      ∃ files, IsBundle b.version files ∧
        Awaits (.ofText "out") everything
          (Table.insert b.version.display
            (.directory files) []) w := by
  have hEmpty : IsReachable (.ofText "out")
      (World.ofTree []).tree :=
    .empty isEmptyRoot_small
  rcases exists_published (s := still) hEmpty (fun _ => rfl)
      isRepresentable_still (fun _ _ => ⟨rfl, rfl⟩) hSound with
    ⟨w, t, hReachable, hAwaits⟩
  have hHere := hAwaits.agree b.version.display trivial
  rw [Table.get?_insert_self] at hHere
  rcases hReachable.hasBundles.holds.bundle _ _ hHere with
    ⟨_, hSame, hBundle⟩
  cases hSame
  exact ⟨w, hReachable, _, hBundle, hAwaits⟩

/- Then the index is made to name it. -/
theorem exists_holdsCurrent
    (hSound : b.IsSound) :
    ∃ w, HoldsCurrent (.ofText "out") b w := by
  rcases exists_published_small hSound with
    ⟨w, hReachable, files, hBundle, hAwaits⟩
  have hSingle := isSound_single hBundle
  have hThere : HasBundle b.version
      (Table.insert b.version.display (.directory files) []) :=
    ⟨files, Table.get?_insert_self _ _ _⟩
  have hMark : (markCurrent (.ofText "out")
      b.version).Safely still _ w _ :=
    Publication.safely_markCurrent (fun _ => rfl)
      isRepresentable_still hSingle hAwaits
  rcases hMark.run.2 _ (Program.KeepsRoot.refl _) with
    ⟨-, -, hMarked⟩ | ⟨hMissing, -⟩
  · refine ⟨_, hReachable.markCurrent (s := still) b.version,
      ?_, ?_, hMarked.indexed_eq⟩
    · have hSettled := (hMarked.hasSoundRoot hSingle
        hThere).sound.settled b.version
      exact fun _ _ => ⟨hSettled.staging _, hSettled.retired _⟩
    · refine ⟨files, (hMarked.get?_display b.version).trans ?_⟩
      exact Table.get?_insert_self _ _ _
  · exact absurd hThere hMissing

/- So there is a root with the bundle of a small registry. -/
theorem exists_holdsCurrent_small :
    ∃ b w, b.IsSound ∧ HoldsCurrent (.ofText "out") b w := by
  rcases Bundle.exists_isSound_small
      ⟨by decide, by decide⟩ (isRepresentable_still 0) with
    ⟨b, -, hSound⟩
  rcases exists_holdsCurrent hSound with ⟨w, hHolds⟩
  exact ⟨b, w, hSound, hHolds⟩

------------------------------------------------------------
-- Points of a Publication
------------------------------------------------------------

/-
  The points between the operations that publish a bundle in
  place of another one, in every reachable root. First there
  is the earlier bundle, then nothing, and at last one of both
  bundles; where nothing fails, there is nothing at just one
  point, and at last the new bundle. What does not belong to
  the version, the index with it, is as it was at every point.
-/
theorem publish_exchanges_bundles
    (hReachable : IsReachable root w.tree)
    (hInstants : ∀ step, (s.instant step).IsRepresentable)
    (hNames : HasFreshNames s b.version
      (w.tree.entriesAt root) w.steps)
    (hSound : b.IsSound)
    (hThere : HasBundle b.version (w.tree.entriesAt root)) :
    (∃ old new,
      IsBundle b.version old ∧ IsBundle b.version new ∧
      (∃ t, new = b.directory t) ∧
      GivesWay s root b.version old new
        ((publish root b).worlds s w)) ∧
    ∀ v ∈ (publish root b).worlds s w,
      ∀ name, ¬Owns b.version name →
        (v.tree.entriesAt root).get? name =
          (w.tree.entriesAt root).get? name := by
  have hBundles := hReachable.hasBundles
  constructor
  · rcases hThere with ⟨old, hOld⟩
    rcases hBundles.holds.bundle _ _ hOld with
      ⟨_, hSame, hBundle⟩
    cases hSame
    rcases Publication.givesWay_publish hInstants hNames hOld
        hBundles.awaits with
      ⟨t, hTime, hGives⟩
    exact ⟨old, _, hBundle, hSound.isBundle hTime, ⟨t, rfl⟩,
      hGives⟩
  · intro v hMem name hName
    exact (Publication.behaves_publish root
      b).agreeOn_of_mem_worlds hMem name hName

/- The small bundle is published where it is already. -/
theorem publish_exchanges_bundles_small :
    ∃ b w, IsReachable (.ofText "out") w.tree ∧
      ∃ old new,
        IsBundle b.version old ∧ IsBundle b.version new ∧
        (∃ t, new = b.directory t) ∧
        GivesWay still (.ofText "out") b.version old new
          ((publish (.ofText "out") b).worlds still w) := by
  rcases exists_holdsCurrent_small with ⟨b, w, hSound, hHolds⟩
  exact ⟨b, w, hHolds.reachable,
    (publish_exchanges_bundles (s := still) hHolds.reachable
      isRepresentable_still hHolds.fresh hSound hHolds.bundle).1⟩

/- Where nothing fails, there is a point without a bundle. -/
theorem exists_gap_of_givesWay
    {version : Version}
    {old new : Tree}
    {points : List World}
    (hFaultless : s.IsFaultless)
    (hGives : GivesWay s root version old new points) :
    ∃ v ∈ points, bundleAt root version v = none := by
  rcases hGives with
    ⟨before, gap, after, rfl, -, hGap, -, hOne⟩
  rcases List.length_eq_one_iff.mp (hOne hFaultless).1 with
    ⟨v, rfl⟩
  exact ⟨v, by simp, hGap v List.mem_cons_self⟩

/- What the index names is a matter of its entry alone. -/
theorem indexed_congr
    {entries entries' : Tree}
    (hIndex : entries'.get? Publication.indexFile =
      entries.get? Publication.indexFile) :
    indexed root entries' = indexed root entries := by
  rw [indexed, indexed, hIndex]

/-
  So the exchange is not atomic: in a root that can be reached
  and has a current version, while a bundle of that version is
  published without any failure, there is a point at which the
  index names the version and the root has no bundle of it.
-/
theorem exists_gap_under_index :
    ∃ (b : Bundle) (w : World),
      IsReachable (.ofText "out") w.tree ∧
      HasFreshNames still b.version
        (w.tree.entriesAt (.ofText "out")) w.steps ∧
      b.IsSound ∧
      HasBundle b.version
        (w.tree.entriesAt (.ofText "out")) ∧
      ∃ v ∈ (publish (.ofText "out") b).worlds still w,
        indexed (.ofText "out")
            (v.tree.entriesAt (.ofText "out")) =
          .ok (some b.version) ∧
        (v.tree.entriesAt (.ofText "out")).get?
            b.version.display = none := by
  rcases exists_holdsCurrent_small with ⟨b, w, hSound, hHolds⟩
  rcases hHolds.bundle with ⟨old, hOld⟩
  rcases Publication.givesWay_publish (s := still)
      isRepresentable_still hHolds.fresh hOld
      hHolds.reachable.hasBundles.awaits with
    ⟨t, -, hGives⟩
  rcases exists_gap_of_givesWay (fun _ => rfl) hGives with
    ⟨v, hMem, hGap⟩
  have hIndex := (Publication.behaves_publish (.ofText "out")
    b).agreeOn_of_mem_worlds hMem Publication.indexFile
      (Publication.not_owns_index b.version (Or.inl rfl))
  exact ⟨b, w, hHolds.reachable, hHolds.fresh, hSound,
    hHolds.bundle, v, hMem,
    (indexed_congr hIndex).trans hHolds.index, hGap⟩

end Run

end Federation
