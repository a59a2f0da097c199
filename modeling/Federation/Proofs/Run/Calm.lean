import Federation.Proofs.Run.Approval
import Federation.Proofs.Run.Reachable

/-
  Runs in calm surroundings, in which nothing fails and nobody
  cancels. Whatever turns its versions take, each of them comes
  to its fate at some of the instants that the run is told, the
  index tells the version that is current if its fate is to be
  published, and all else in the root is as before.

  Main declarations:
    * `Surroundings.IsCalm`
    * `Run.ComesToFate`
    * `Run.IsClear`
    * `Run.exists_fates`
    * `Run.ReportsFates`, `Run.ReportsFates.publishes`
    * `Run.IsClear.executeOn_calm`
    * `Run.execute_calm`
-/

namespace Federation

/-
  Surroundings without failures and cancellation, whose clock
  tells no other instants than some.
-/
structure Surroundings.IsCalm
    (told : Instant → Prop)
    (s : Surroundings) : Prop where
  faultless : s.IsFaultless
  uncancelled : ∀ check, s.isCancelled check = false
  told : ∀ step, told (s.instant step)

namespace Run

open Program (Safely rootFrame Awaits KeepsRoot)
open Publication
  (Owns HasFreshNames everything indexFile newIndexFile
    indexContent withIndex)

variable {s : Surroundings}
variable {told : Instant → Prop}
variable {root : Path}
variable {plan : Plan}
variable {generators : GeneratorSet}
variable {r : Registry}
variable {version : Version}
variable {before : Tree}
variable {o : VersionOutcome}
variable {w w' : World}

------------------------------------------------------------
-- Versions
------------------------------------------------------------

/-
  The outcome of a version and what is at its names below the
  root are those of its fate at some instants that are told.
-/
def ComesToFate
    (told : Instant → Prop)
    (root : Path)
    (generators : GeneratorSet)
    (r : Registry)
    (before : Tree)
    (version : Version)
    (o : VersionOutcome)
    (w : World) : Prop :=
  ∃ t : Timing, t.IsTold told ∧
    o = (fate generators r version t).outcome ∧
    Tree.AgreeOn (Owns version) (w.tree.entriesAt root)
      ((fate generators r version t).entries t.publishedAt
        before)

theorem ComesToFate.congr
    (hFate : ComesToFate told root generators r before version
      o w)
    (hAgree : Tree.AgreeOn (Owns version)
      (w'.tree.entriesAt root) (w.tree.entriesAt root)) :
    ComesToFate told root generators r before version o w' := by
  rcases hFate with ⟨t, hTold, hOutcome, hPlace⟩
  exact ⟨t, hTold, hOutcome, fun name hOwns =>
    (hAgree name hOwns).trans (hPlace name hOwns)⟩

/- A version that is not abandoned has come to its fate. -/
theorem IsProcessed.exists_comesToFate
    {result : Except RunError VersionOutcome}
    (hProcessed : IsProcessed s told root generators r before
      version result w)
    (hUncancelled : ∀ check, s.isCancelled check = false) :
    ∃ o, result = .ok o ∧
      ComesToFate told root generators r before version o w := by
  cases hProcessed with
  | abandoned hCancelled =>
      rcases hCancelled with ⟨check, hCheck⟩
      rw [hUncancelled check] at hCheck
      cases hCheck
  | decided t hTold hAwaits =>
      exact ⟨_, rfl, t, hTold, rfl, hAwaits.agree⟩

theorem ComesToFate.concerns
    (hFate : ComesToFate told root generators r before version
      o w) :
    o.version = version := by
  rcases hFate with ⟨t, -, rfl, -⟩
  exact version_of_fate generators r version t

/- A version that is published has a manifest at its place. -/
theorem ComesToFate.holdsManifest
    (hFate : ComesToFate told root generators r before version
      o w)
    (hState : o.state = .published) :
    Program.HoldsFile (w.tree.entriesAt root) version.display
      Publication.manifestFile := by
  rcases hFate with ⟨t, -, rfl, hPlace⟩
  rcases fate_cases generators r version t with
    ⟨o, hFate, -, hRejected⟩ |
    ⟨_, d, b, -, -, hApprove, hFate⟩
  · rw [hFate] at hState
    exact absurd (hState.symm.trans hRejected) (by decide)
  · rw [hFate] at hPlace
    have hVersion := version_of_approve hApprove
    have hThere := hPlace version.display .bundle
    rw [Fate.entries_published, hVersion,
      Table.get?_insert_self] at hThere
    refine ⟨Publication.fileBytes
      (Manifest.ofBundle b t.publishedAt).members, ?_⟩
    rw [Tree.find_cons_directory _ hThere]
    rfl

/- By itself, a version comes to its fate. -/
theorem process_calm
    {tree : Tree}
    (generators : GeneratorSet)
    (r : Registry)
    (hCalm : s.IsCalm told)
    (hTree : w.tree = tree)
    (hBundles : HasBundles root tree)
    (hNames : HasFreshNames s version (tree.entriesAt root)
      0) :
    ∃ o w',
      (process generators (Publisher.directory root) r
        version).run s w = (.ok o, w') ∧
      ComesToFate told root generators r (tree.entriesAt root)
        version o w' := by
  subst hTree
  have hSafe : (process generators (Publisher.directory root)
      r version).Safely s (rootFrame root (Owns version)) w _ :=
    safely_processed hCalm.faultless hCalm.told hNames
      (hBundles.holds.noFile version)
      ⟨hBundles.canHave, fun _ _ => rfl⟩
  have hProcessed := hSafe.run.2 _ (KeepsRoot.refl _)
  rcases hProcessed.exists_comesToFate hCalm.uncancelled with
    ⟨o, hResult, hFate⟩
  exact ⟨o, _, Prod.ext hResult rfl, hFate⟩

/- Of each version there is an outcome, the first about it. -/
theorem exists_outcome
    {versions : List Version}
    {outcomes : List VersionOutcome}
    (hEach : List.Forall₂
      (fun version o =>
        ComesToFate told root generators r before version o w)
      versions outcomes)
    (hMem : version ∈ versions) :
    ∃ o,
      (outcomes.find? fun o => o.version = version) = some o ∧
      ComesToFate told root generators r before version o
        w := by
  induction hEach with
  | nil => cases hMem
  | @cons first o rest outcomes hHead _ ih =>
      by_cases hSame : o.version = version
      · refine ⟨o, List.find?_cons_of_pos (by simpa), ?_⟩
        rw [← hSame, hHead.concerns]
        exact hHead
      · rcases List.mem_cons.mp hMem with rfl | hLater
        · exact absurd hHead.concerns hSame
        · rcases ih hLater with ⟨o', hFound, hFate⟩
          exact ⟨o', (List.find?_cons_of_neg (by simpa)).trans
            hFound, hFate⟩

------------------------------------------------------------
-- All Versions
------------------------------------------------------------

/-
  Nothing stands in the way of what a run of some versions is
  to publish. The root is there or can be created, no file is
  at the place of a version and no directory at those of the
  index, and no entry has a name that is made for a version.
-/
structure IsClear
    (s : Surroundings)
    (root : Path)
    (versions : List Version)
    (tree : Tree) : Prop where
  canHave : tree.CanHaveRoot root
  noFile : ∀ version ∈ versions, ∀ content,
    (tree.entriesAt root).get? version.display ≠
      some (.file content)
  names : ∀ version ∈ versions,
    HasFreshNames s version (tree.entriesAt root) 0
  index : ∀ name, name = indexFile ∨ name = newIndexFile →
    ∀ inner, (tree.entriesAt root).get? name ≠
      some (.directory inner)

/- Bundles do not stand in the way of others. -/
theorem HasBundles.isClear
    {versions : List Version}
    {tree : Tree}
    (hBundles : HasBundles root tree)
    (hNames : ∀ version ∈ versions,
      HasFreshNames s version (tree.entriesAt root) 0) :
    IsClear s root versions tree where
  canHave := hBundles.canHave
  noFile version _ := hBundles.holds.noFile version
  names := hNames
  index := hBundles.holds.index

/-
  Without failures, each version of a run ends as it would by
  itself, whatever turns the versions take.
-/
theorem IsClear.ended_processed
    (hClear : IsClear s root plan.generators.versions w.tree)
    (hFaultless : s.IsFaultless)
    (hTold : ∀ step, told (s.instant step))
    (hPublisher : plan.publisher = Publisher.directory root)
    (hOrdered : Table.IsOrdered plan.generators.table) :
    Program.AllEnded (versionFrame root)
      (IsProcessed s told root plan.generators r
        (w.tree.entriesAt root))
      plan.generators.versions w
      ((Program.interleave plan.turns
        (programs plan r)).run s w) := by
  have hNodup : plan.generators.versions.Nodup :=
    hOrdered.nodup_keys
  apply Program.interleave_safely plan.turns
    (compatible_versionFrame hNodup)
  rw [Program.AllSafely, programs,
    List.forall₂_map_right_iff, List.forall₂_same, hPublisher]
  intro version hMem
  exact safely_processed hFaultless hTold
    (hClear.names version hMem) (hClear.noFile version hMem)
    ⟨hClear.canHave, fun _ _ => rfl⟩

theorem ended_processed
    (hFaultless : s.IsFaultless)
    (hTold : ∀ step, told (s.instant step))
    (hPublisher : plan.publisher = Publisher.directory root)
    (hOrdered : Table.IsOrdered plan.generators.table)
    (hBundles : HasBundles root w.tree)
    (hNames : ∀ version ∈ plan.generators.versions,
      HasFreshNames s version (w.tree.entriesAt root) 0) :
    Program.AllEnded (versionFrame root)
      (IsProcessed s told root plan.generators r
        (w.tree.entriesAt root))
      plan.generators.versions w
      ((Program.interleave plan.turns
        (programs plan r)).run s w) :=
  (hBundles.isClear hNames).ended_processed hFaultless hTold
    hPublisher hOrdered

/- What there is once all versions have come to their fates. -/
structure HaveFates
    (told : Instant → Prop)
    (root : Path)
    (generators : GeneratorSet)
    (r : Registry)
    (before : Tree)
    (outcomes : List VersionOutcome)
    (w : World) : Prop where
  canHave : w.tree.CanHaveRoot root
  others : Tree.AgreeOn
    (fun name => ∀ version ∈ generators.versions,
      ¬Owns version name)
    (w.tree.entriesAt root) before
  each : List.Forall₂
    (fun version o =>
      ComesToFate told root generators r before version o w)
    generators.versions outcomes

theorem exists_fates
    (hCalm : s.IsCalm told)
    (hPublisher : plan.publisher = Publisher.directory root)
    (hOrdered : Table.IsOrdered plan.generators.table)
    (hClear : IsClear s root plan.generators.versions
      w.tree) :
    ∃ outcomes,
      ((Program.interleave plan.turns
        (programs plan r)).run s w).1.mapM id = .ok outcomes ∧
      HaveFates told root plan.generators r
        (w.tree.entriesAt root) outcomes
        ((Program.interleave plan.turns
          (programs plan r)).run s w).2 := by
  have hEnded := hClear.ended_processed (r := r)
    hCalm.faultless hCalm.told hPublisher hOrdered
  have hWhole := hEnded.1 _ (spans_versionFrame _)
  have hEach := hEnded.2.imp fun _ _ hProcessed =>
    hProcessed.exists_comesToFate hCalm.uncancelled
  rcases exists_outcomes hEach with ⟨outcomes, hAll, hFates⟩
  exact ⟨outcomes, hAll, hWhole.canHave hClear.canHave,
    hWhole.agree, hFates⟩

namespace HaveFates

variable {outcomes : List VersionOutcome}

/- The index belongs to no version. -/
theorem get?_index
    {name : String}
    (hFates : HaveFates told root generators r before outcomes
      w)
    (hIndex : name = indexFile ∨ name = newIndexFile) :
    (w.tree.entriesAt root).get? name = before.get? name :=
  hFates.others name fun version _ =>
    Publication.not_owns_index version hIndex

theorem of_mem
    (hFates : HaveFates told root generators r before outcomes
      w)
    (hMem : o ∈ outcomes) :
    ComesToFate told root generators r before o.version o w :=
  of_mem_outcomes (fun _ _ hFate => hFate.concerns)
    hFates.each hMem

/- A version that is published is named by the index. -/
theorem exists_marked
    {current : Version}
    (hFates : HaveFates told root generators r before outcomes
      w)
    (hFaultless : s.IsFaultless)
    (hTold : ∀ step, told (s.instant step))
    (hBefore : ∀ name, name = indexFile ∨ name = newIndexFile →
      ∀ inner, before.get? name ≠ some (.directory inner))
    (hTree : w'.tree = w.tree)
    (hPublished : ∃ o ∈ outcomes,
      o.version = current ∧ o.state = .published) :
    ∃ t last, told t ∧
      (Publication.markCurrent root current).run s w' =
        (.ok (), last) ∧
      Awaits root everything
        (withIndex (indexContent current t)
          (w.tree.entriesAt root)) last := by
  have hManifest : Program.HoldsFile (w.tree.entriesAt root)
      current.display Publication.manifestFile := by
    rcases hPublished with ⟨o, hMem, rfl, hDone⟩
    exact (hFates.of_mem hMem).holdsManifest hDone
  have hIndex : ∀ name,
      name = indexFile ∨ name = newIndexFile →
      ∀ inner, (w.tree.entriesAt root).get? name ≠
        some (.directory inner) := by
    intro name hName inner
    rw [hFates.get?_index hName]
    exact hBefore name hName inner
  have hAwaits : Awaits root everything
      (w.tree.entriesAt root) w' := by
    refine ⟨?_, fun _ _ => ?_⟩
    · rw [hTree]
      exact hFates.canHave
    · rw [hTree]
  have hMarked := (Publication.safely_moveIndex hFaultless
    hTold hManifest hIndex hAwaits).run.2 _ (KeepsRoot.refl _)
  rcases hMarked with ⟨hOk, t, hTime, hLast⟩
  exact ⟨t, _, hTime, Prod.ext hOk rfl, hLast⟩

end HaveFates

------------------------------------------------------------
-- Runs
------------------------------------------------------------

/-
  The index names a version since an instant that is told, and
  nothing is left beside it.
-/
def HasIndexOf
    (told : Instant → Prop)
    (root : Path)
    (version : Version)
    (w : World) : Prop :=
  ∃ t, told t ∧
    (w.tree.entriesAt root).get? indexFile =
      some (.file (indexContent version t)) ∧
    (w.tree.entriesAt root).get? newIndexFile = none

theorem HasIndexOf.of_awaits
    {entries : Tree}
    {t : Instant}
    (hTime : told t)
    (hAwaits : Awaits root everything
      (withIndex (indexContent version t) entries) w) :
    HasIndexOf told root version w := by
  refine ⟨t, hTime, ?_, ?_⟩
  · exact (hAwaits.agree indexFile trivial).trans
      (Tree.get?_moved_new
        Publication.newIndexFile_ne_indexFile)
  · exact (hAwaits.agree newIndexFile trivial).trans
      (Tree.get?_moved_old ..)

/-
  A run reports that each of its versions has come to its fate.
  It is completed, and the index names its version exactly if
  the fate of that version is to be published. All else below
  the root is as before.
-/
structure ReportsFates
    (told : Instant → Prop)
    (root : Path)
    (generators : GeneratorSet)
    (r : Registry)
    (current : Version)
    (before : Tree)
    (report : RunReport)
    (w : World) : Prop where
  fault : report.fault = none
  state : report.state = .completed
  named : report.currentVersion = some current
  marked : report.currentMarked = true ↔
    report.Publishes current
  each : List.Forall₂
    (fun version o =>
      ComesToFate told root generators r before version o w)
    generators.versions report.outcomes
  index : if report.currentMarked then
      HasIndexOf told root current w
    else
      ∀ name, name = indexFile ∨ name = newIndexFile →
        (w.tree.entriesAt root).get? name = before.get? name
  others : ∀ name,
    (∀ version ∈ generators.versions, ¬Owns version name) →
    name ≠ indexFile → name ≠ newIndexFile →
      (w.tree.entriesAt root).get? name = before.get? name

/- A version of the library is published if it passes. -/
theorem ReportsFates.publishes
    {current : Version}
    {t : Instant}
    {report : RunReport}
    (hReports : ReportsFates (fun u => u.IsLike t) root .builtin
      r current before report w)
    (hPasses : GeneratorSet.builtin.PassesAll t r)
    (hMem : version ∈ GeneratorSet.builtin.versions) :
    report.Publishes version := by
  rcases exists_outcome hReports.each hMem with
    ⟨o, hFound, hFate⟩
  have hConcerns := hFate.concerns
  rcases hFate with ⟨timing, hTold, rfl, -⟩
  have hState := (published_iff_passesAt hTold.privateAt
    hTold.sharedAt).mpr (hPasses version hMem)
  exact ⟨_, List.mem_of_find?_eq_some hFound, hConcerns,
    hState⟩

/- The index is moved without any of the versions noticing. -/
theorem ComesToFate.of_index
    {content : Bytes}
    (hFate : ComesToFate told root generators r before version
      o w)
    (hAwaits : Awaits root everything
      (withIndex content (w.tree.entriesAt root)) w') :
    ComesToFate told root generators r before version o w' := by
  apply hFate.congr
  intro name hOwns
  rw [hAwaits.agree name trivial]
  apply Publication.get?_withIndex
  · rintro rfl
    exact Publication.not_owns_index version (Or.inr rfl) hOwns
  · rintro rfl
    exact Publication.not_owns_index version (Or.inl rfl) hOwns

/-
  In calm surroundings a run that has a current version reports
  the fates of all its versions.
-/
theorem IsClear.executeOn_calm
    {current : Version}
    {tree : Tree}
    (hClear : IsClear s root plan.generators.versions tree)
    (runId : String)
    (startedAt : Instant)
    (r : Registry)
    (hCalm : s.IsCalm told)
    (hPublisher : plan.publisher = Publisher.directory root)
    (hOrdered : Table.IsOrdered plan.generators.table)
    (hTree : w.tree = tree)
    (hPolicy : plan.policy.current plan.generators =
      .ok current) :
    ∃ report w',
      (executeOn plan runId startedAt r).run s w =
        (.ok report, w') ∧
      ReportsFates told root plan.generators r current
        (tree.entriesAt root) report w' := by
  subst hTree
  rcases exists_fates (r := r) hCalm hPublisher hOrdered
    hClear with ⟨outcomes, hAll, hFates⟩
  rcases hEnded : (Program.interleave plan.turns
    (programs plan r)).run s w with ⟨results, done⟩
  rw [hEnded] at hAll hFates
  dsimp only at hAll hFates
  have hState : stateAfter s done = .completed := by
    rw [stateAfter, hCalm.uncancelled]
    rfl
  by_cases hPublished : ∃ o ∈ outcomes,
    o.version = current ∧ o.state = .published
  · have hAsked : (asked done).tree = done.tree := rfl
    rcases hFates.exists_marked hCalm.faultless hCalm.told
        hClear.index hAsked hPublished with
      ⟨t, last, hTime, hMark, hLast⟩
    have hAdvance : last.advance.tree = last.tree := rfl
    have hAwaits := hLast.of_rely (KeepsRoot.of_tree hAdvance)
    have hMarked : (plan.publisher.markCurrent current).run s
        (asked done) = (.ok (), last) := by
      rw [hPublisher]
      exact hMark
    have hConclude := conclude_marked hState hPublished
      hMarked
    refine ⟨_, _, executeOn_eq runId startedAt r hPolicy
      hEnded hAll hConclude, rfl, hState, rfl,
      iff_of_true rfl hPublished, ?_,
      .of_awaits hTime hAwaits, ?_⟩
    · exact hFates.each.imp fun _ _ hFate =>
        hFate.of_index hAwaits
    · intro name hNone hIndex hNew
      exact ((hAwaits.agree name trivial).trans
        (Publication.get?_withIndex hNew hIndex)).trans
        (hFates.others name hNone)
  · have hNot : ¬(stateAfter s done = .completed ∧
        ∃ o ∈ outcomes,
          o.version = current ∧ o.state = .published) :=
      fun hBoth => hPublished hBoth.2
    refine ⟨_, _, executeOn_eq runId startedAt r hPolicy
      hEnded hAll (conclude_unmarked hNot), rfl, hState, rfl,
      iff_of_false Bool.false_ne_true hPublished,
      hFates.each, ?_, ?_⟩
    · exact fun name hIndex => hFates.get?_index hIndex
    · exact fun name hNone _ _ => hFates.others name hNone

theorem executeOn_calm
    {current : Version}
    {tree : Tree}
    (plan : Plan)
    (runId : String)
    (startedAt : Instant)
    (r : Registry)
    (hCalm : s.IsCalm told)
    (hPublisher : plan.publisher = Publisher.directory root)
    (hOrdered : Table.IsOrdered plan.generators.table)
    (hTree : w.tree = tree)
    (hBundles : HasBundles root tree)
    (hNames : ∀ version ∈ plan.generators.versions,
      HasFreshNames s version (tree.entriesAt root) 0)
    (hPolicy : plan.policy.current plan.generators =
      .ok current) :
    ∃ report w',
      (executeOn plan runId startedAt r).run s w =
        (.ok report, w') ∧
      ReportsFates told root plan.generators r current
        (tree.entriesAt root) report w' :=
  (hBundles.isClear hNames).executeOn_calm runId startedAt r
    hCalm hPublisher hOrdered hTree hPolicy

/- A run of a registry at a sound root does so as well. -/
theorem execute_calm
    {current : Version}
    (hSource : plan.source = .done (.ok r))
    (hCalm : s.IsCalm told)
    (hPlan : plan.PublishesTo root)
    (hRoot : Publication.HasSoundRoot root w.tree)
    (hPolicy : plan.policy.current plan.generators =
      .ok current) :
    ∃ report w',
      (execute plan).run s w = (.ok report, w') ∧
      ReportsFates told root plan.generators r current
        (w.tree.entriesAt root) report w' := by
  rw [run_execute, hSource]
  exact executeOn_calm plan _ _ r hCalm hPlan.publisher
    hPlan.generators.ordered rfl (.of_hasSoundRoot hRoot)
    (fun version _ =>
      (hRoot.sound.settled version).hasFreshNames _ _)
    hPolicy

end Run

end Federation
