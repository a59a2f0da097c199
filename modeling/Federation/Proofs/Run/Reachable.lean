import Federation.Proofs.Publication.Failures
import Federation.Proofs.Run.History

/-
  The roots that publications lead to from an empty root,
  some of which may have failed, even in what undoes them. In
  all of these a publication changes the bundle of its version
  or, if an operation fails and what undoes it does not, it
  changes nothing.

  Main declarations:
    * `Run.HoldsBundles`, `Run.HasBundles`
    * `Run.IsReachable`
    * `Run.IsReachable.hasBundles`
    * `Run.publish_all_or_nothing`
-/

namespace Federation

namespace Run

open Program (Awaits)
open Publication
  (Owns IsBundle HasSoundRoot HasFreshNames IsUndo PublishEnd
    MarkEnd everything publish markCurrent indexFile
    newIndexFile ends_publish ends_markCurrent)

variable {s : Surroundings}
variable {root : Path}
variable {b : Bundle}
variable {version : Version}
variable {tree entries after : Tree}
variable {w : World}

------------------------------------------------------------
-- Roots with Bundles
------------------------------------------------------------

/-
  At the place of each version there is nothing or its bundle,
  and no directory at those of the index and of a new index.
-/
structure HoldsBundles (entries : Tree) : Prop where
  bundle : ∀ version node,
    entries.get? version.display = some node →
    ∃ files, node = .directory files ∧ IsBundle version files
  index : ∀ name, name = indexFile ∨ name = newIndexFile →
    ∀ inner, entries.get? name ≠ some (.directory inner)

/- A root that is there or can be created, and its bundles. -/
structure HasBundles (root : Path) (tree : Tree) : Prop where
  canHave : tree.CanHaveRoot root
  holds : HoldsBundles (tree.entriesAt root)

theorem HoldsBundles.noFile
    (hHolds : HoldsBundles entries)
    (version : Version)
    (content : Bytes) :
    entries.get? version.display ≠ some (.file content) := by
  intro hFile
  rcases hHolds.bundle version _ hFile with ⟨_, hSame, -⟩
  cases hSame

theorem HasBundles.of_awaits
    (hHolds : HoldsBundles entries)
    (hAwaits : Awaits root everything entries w) :
    HasBundles root w.tree where
  canHave := hAwaits.canHave
  holds := by
    constructor
    · intro version node hNode
      rw [hAwaits.agree version.display trivial] at hNode
      exact hHolds.bundle version node hNode
    · intro name hName inner
      rw [hAwaits.agree name trivial]
      exact hHolds.index name hName inner

theorem HasBundles.awaits
    (hBundles : HasBundles root w.tree) :
    Awaits root everything (w.tree.entriesAt root) w :=
  ⟨hBundles.canHave, fun _ _ => rfl⟩

/- A sound root has bundles and an index, if it has any. -/
theorem HasBundles.of_hasSoundRoot
    (hRoot : HasSoundRoot root tree) :
    HasBundles root tree where
  canHave := hRoot.canHave
  holds := by
    constructor
    · intro version
      exact (hRoot.sound.settled version).bundle
    · intro name hName
      exact hRoot.sound.index_ne_directory hName

/- Only the place of one version may be another than before. -/
theorem HoldsBundles.of_place
    (hHolds : HoldsBundles entries)
    (hOthers : ∀ name, ¬Owns version name →
      after.get? name = entries.get? name)
    (hPlace : ∀ node,
      after.get? version.display = some node →
      ∃ files, node = .directory files ∧
        IsBundle version files) :
    HoldsBundles after where
  bundle other node hNode := by
    by_cases hSame : other = version
    · subst hSame
      exact hPlace node hNode
    · have hNotOwned : ¬Owns version other.display :=
        fun hOwns => hSame (Owns.unique .bundle hOwns)
      rw [hOthers _ hNotOwned] at hNode
      exact hHolds.bundle other node hNode
  index name hName inner := by
    rw [hOthers name
      (Publication.not_owns_index version hName)]
    exact hHolds.index name hName inner

/- However a publication ends, the root has bundles. -/
theorem HoldsBundles.of_publishEnd
    {a : Published Unit}
    {failed : List Operation}
    (hHolds : HoldsBundles entries)
    (hSound : b.IsSound)
    (hEnd : PublishEnd root b entries a failed w) :
    HasBundles root w.tree := by
  cases hEnd with
  | kept _ hAwaits => exact .of_awaits hHolds hAwaits
  | @published t _ hTime hAwaits =>
      have hOthers : ∀ name, ¬Owns b.version name →
          Table.get? name
              (entries.insert b.version.display
                (.directory (b.directory t))) =
            entries.get? name :=
        fun name hOther => Table.get?_insert_of_ne _ _
          (Publication.ne_of_not_owns hOther .bundle)
      refine .of_awaits
        (hHolds.of_place hOthers fun node hNode => ?_) hAwaits
      rw [Table.get?_insert_self] at hNode
      cases hNode
      exact ⟨_, rfl, hSound.isBundle hTime⟩
  | damaged _ hDamaged hAwaits =>
      refine .of_awaits (hHolds.of_place hDamaged.others
        fun node hNode => ?_) hAwaits
      rcases hDamaged.place with hSame | hGone |
        ⟨t, hTime, hNew⟩
      · rw [hSame] at hNode
        exact hHolds.bundle _ _ hNode
      · rw [hGone] at hNode
        cases hNode
      · rw [hNew] at hNode
        cases hNode
        exact ⟨_, rfl, hSound.isBundle hTime⟩

/- However it ends to name a version current, too. -/
theorem HoldsBundles.of_markEnd
    {a : Published Unit}
    {failed : List Operation}
    (hHolds : HoldsBundles entries)
    (hEnd : MarkEnd root entries a failed w) :
    HasBundles root w.tree := by
  cases hEnd with
  | marked hAwaits =>
      refine .of_awaits ⟨?_, ?_⟩ hAwaits
      · intro version node hNode
        rw [Publication.get?_withIndex_display] at hNode
        exact hHolds.bundle version node hNode
      · intro name hName inner hNode
        rw [Publication.withIndex, Tree.get?_moved] at hNode
        rcases hName with rfl | rfl
        · simp [Publication.newIndexFile_ne_indexFile.symm]
            at hNode
        · simp at hNode
  | kept hOthers hNoDirectory hAwaits =>
      refine .of_awaits ⟨?_, ?_⟩ hAwaits
      · intro version node hNode
        have hNe : version.display ≠ newIndexFile := by
          intro hSame
          exact Publication.not_owns_index version
            (Or.inr hSame) .bundle
        rw [hOthers _ hNe] at hNode
        exact hHolds.bundle version node hNode
      · rintro name (rfl | rfl)
        · intro inner
          rw [hOthers _
            Publication.newIndexFile_ne_indexFile.symm]
          exact hHolds.index _ (Or.inl rfl) inner
        · exact hNoDirectory

------------------------------------------------------------
-- Reachable Roots
------------------------------------------------------------

/-
  What a root may come to hold, from none on: by publications
  of sound bundles and by naming versions current, whatever
  fails there, and by runs without failures.
-/
inductive IsReachable (root : Path) : Tree → Prop
| empty
    {tree : Tree}
    (hEmpty : IsEmptyRoot root tree) :
    IsReachable root tree
| publish
    {s : Surroundings}
    {b : Bundle}
    {w : World}
    (hBefore : IsReachable root w.tree)
    (hInstants : ∀ step, (s.instant step).IsRepresentable)
    (hNames : HasFreshNames s b.version
      (w.tree.entriesAt root) w.steps)
    (hSound : b.IsSound) :
    IsReachable root ((publish root b).run s w).2.tree
| markCurrent
    {s : Surroundings}
    {w : World}
    (version : Version)
    (hBefore : IsReachable root w.tree) :
    IsReachable root
      ((markCurrent root version).run s w).2.tree
| run
    {s : Surroundings}
    {plan : Plan}
    {w : World}
    (hBefore : IsReachable root w.tree)
    (hSettled : Publication.IsSound (w.tree.entriesAt root))
    (hFaultless : s.IsFaultless)
    (hInstants : ∀ step, (s.instant step).IsRepresentable)
    (hPlan : plan.PublishesTo root) :
    IsReachable root ((execute plan).run s w).2.tree

/- Each step to a reachable root keeps bundles whole. -/
theorem IsReachable.hasBundles
    (hReachable : IsReachable root tree) :
    HasBundles root tree := by
  induction hReachable with
  | empty hEmpty => exact .of_hasSoundRoot hEmpty.hasSoundRoot
  | publish _ hInstants hNames hSound ih =>
      exact ih.holds.of_publishEnd hSound
        (ends_publish hInstants hNames (ih.holds.noFile _)
          ih.awaits)
  | markCurrent version _ ih =>
      exact ih.holds.of_markEnd
        (ends_markCurrent (ih.holds.index _ (Or.inl rfl))
          (ih.holds.index _ (Or.inr rfl)) ih.awaits)
  | run _ hSettled hFaultless hInstants hPlan ih =>
      exact .of_hasSoundRoot
        (hasSoundRoot_execute hFaultless hInstants hPlan
          ⟨ih.canHave, hSettled⟩)

------------------------------------------------------------
-- All or Nothing
------------------------------------------------------------

/-
  In every reachable root, whatever fails: a publication in
  which nothing fails succeeds, and the directory of its
  version has the files of the bundle and all else is as
  before; if an operation fails, but none of those that undo
  the publication, there is an error and every entry is as
  before, that of the version being none or a whole bundle.
  To name a version current is an error if an operation fails,
  and with an error the index is as before.
-/
theorem publish_all_or_nothing
    (hReachable : IsReachable root w.tree)
    (hInstants : ∀ step, (s.instant step).IsRepresentable)
    (hNames : HasFreshNames s b.version
      (w.tree.entriesAt root) w.steps) :
    (let ended := (publish root b).run s w
      let failed := (publish root b).failures s w
      let before := w.tree.entriesAt root
      let after := ended.2.tree.entriesAt root
      (failed = [] →
        ended.1 = .ok () ∧
          (∃ t, after.get? b.version.display =
            some (.directory (b.directory t))) ∧
          ∀ name, name ≠ b.version.display →
            after.get? name = before.get? name) ∧
      (failed ≠ [] →
        (∀ o ∈ failed, ¬IsUndo root b.version o) →
        (∃ action path fault,
          ended.1 = .error (.storage action path fault)) ∧
          (∀ name, after.get? name = before.get? name) ∧
          ∀ node,
            before.get? b.version.display = some node →
            ∃ files, node = .directory files ∧
              IsBundle b.version files)) ∧
    ∀ version,
      let ended := (markCurrent root version).run s w
      let before := w.tree.entriesAt root
      let after := ended.2.tree.entriesAt root
      ((markCurrent root version).failures s w ≠ [] →
        ∃ e, ended.1 = .error e) ∧
      ∀ e, ended.1 = .error e →
        ∀ name, name ≠ newIndexFile →
          after.get? name = before.get? name := by
  have hBundles := hReachable.hasBundles
  have hHolds := hBundles.holds
  constructor
  · have hEnd : PublishEnd root b (w.tree.entriesAt root)
        ((publish root b).run s w).1
        ((publish root b).failures s w)
        ((publish root b).run s w).2 :=
      ends_publish hInstants hNames (hHolds.noFile _)
        hBundles.awaits
    dsimp only
    constructor
    · intro hNone
      rw [hNone] at hEnd
      rcases hEnd.of_no_failure with ⟨hOk, t, hAwaits⟩
      refine ⟨hOk, ⟨t, ?_⟩, fun name hOther => ?_⟩
      · rw [hAwaits.agree _ trivial, Table.get?_insert_self]
      · rw [hAwaits.agree _ trivial,
          Table.get?_insert_of_ne _ _ hOther]
    · intro hFailed hNoUndo
      rcases hEnd.of_no_undo hFailed hNoUndo with
        ⟨hError, hAwaits⟩
      exact ⟨hError, fun name => hAwaits.agree name trivial,
        hHolds.bundle _⟩
  · intro version
    have hEnd : MarkEnd root (w.tree.entriesAt root)
        ((markCurrent root version).run s w).1
        ((markCurrent root version).failures s w)
        ((markCurrent root version).run s w).2 :=
      ends_markCurrent (hHolds.index _ (Or.inl rfl))
        (hHolds.index _ (Or.inr rfl)) hBundles.awaits
    refine ⟨hEnd.of_failure, fun e hError name hOther => ?_⟩
    rw [hError] at hEnd
    exact hEnd.of_error hOther

/- Surroundings that are still, but make one step fail. -/
def failingAt (step : Nat) : Surroundings :=
  { still with
    failure := fun n =>
      if n = step then some (.other "No space left on device")
      else none }

/- A bundle of documents without any content. -/
def emptyBundle : Bundle where
  version := .v1
  privateParameters := .new .privateParameters .v1 ⟨0, 0⟩ []
  sharedParameters := .new .sharedParameters .v1 ⟨0, 0⟩ []
  privateDigest := ⟨""⟩
  sharedDigest := ⟨""⟩
  private_declared := rfl
  shared_declared := rfl

/- The first bundle is written, but it cannot be moved. -/
theorem publish_all_or_nothing_small :
    (publish (.ofText "out") emptyBundle).failures
        (failingAt 8) (World.ofTree []) =
      [.rename ((Path.ofText "out").join ".v1.staging-a")
        ((Path.ofText "out").join "v1")] ∧
    (∃ action path fault,
      ((publish (.ofText "out") emptyBundle).run (failingAt 8)
        (World.ofTree [])).1 =
        .error (.storage action path fault)) ∧
    ∀ name,
      (((publish (.ofText "out") emptyBundle).run
        (failingAt 8) (World.ofTree [])).2.tree.entriesAt
          (.ofText "out")).get? name = none := by
  have hFailures :
      (publish (.ofText "out") emptyBundle).failures
          (failingAt 8) (World.ofTree []) =
        [.rename ((Path.ofText "out").join ".v1.staging-a")
          ((Path.ofText "out").join "v1")] := by
    rfl
  have hNoUndo :
      ∀ o ∈ (publish (.ofText "out") emptyBundle).failures
          (failingAt 8) (World.ofTree []),
        ¬IsUndo (.ofText "out") emptyBundle.version o := by
    rw [hFailures, List.forall_mem_singleton]
    generalize hMove : Operation.rename _ _ = o
    intro hUndo
    cases hUndo with
    | restore fresh =>
        injection hMove with hSource
        have hNames := congrArg Path.names hSource
        have hName :=
          (List.cons.inj (List.append_cancel_left hNames)).1
        exact Publication.stagingName_ne_retiredName .v1 "a"
          fresh hName
    | cleanRetired fresh => cases hMove
    | cleanStaging fresh => cases hMove
  have hTime : Instant.IsRepresentable ⟨0, 0⟩ := by decide
  have hAll := (publish_all_or_nothing (s := failingAt 8)
    (b := emptyBundle) (w := World.ofTree [])
    (.empty isEmptyRoot_small) (fun _ => hTime)
    (fun _ _ => ⟨rfl, rfl⟩)).1.2
  rcases hAll (by rw [hFailures]; exact List.cons_ne_nil _ _)
    hNoUndo with ⟨hError, hKept, -⟩
  exact ⟨hFailures, hError, hKept⟩

end Run

end Federation
