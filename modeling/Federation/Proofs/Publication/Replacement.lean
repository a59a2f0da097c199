import Federation.Proofs.Publication.Confined
import Federation.Proofs.Publication.Failures

/-
  What can be seen at the place of a version while its bundle
  is replaced. Before each operation there is the earlier
  bundle, then nothing, and after that one of both bundles;
  never a part of one.

  Main declarations:
    * `Publication.bundleAt`
    * `Publication.GivesWay`
    * `Publication.givesWay_replaceBundle`
    * `Publication.givesWay_publish`
-/

namespace Federation

namespace Publication

open Program (Tracks Awaits)

variable {s : Surroundings}
variable {root : Path}
variable {version : Version}
variable {b : Bundle}
variable {fresh : String}
variable {entries old files : Tree}
variable {w v : World}

------------------------------------------------------------
-- The Place of a Version
------------------------------------------------------------

/- What there is at the place of a version below a root. -/
def bundleAt
    (root : Path)
    (version : Version)
    (w : World) : Option Node :=
  (w.tree.entriesAt root).get? version.display

/-
  Points at which there is the earlier bundle of a version,
  then nothing, and in the end the earlier or the new bundle.
  Where nothing fails, there is nothing at one point, and in
  the end there is the new one.
-/
def GivesWay
    (s : Surroundings)
    (root : Path)
    (version : Version)
    (old new : Tree)
    (points : List World) : Prop :=
  ∃ before gap after, points = before ++ gap ++ after ∧
    (∀ v ∈ before,
      bundleAt root version v = some (.directory old)) ∧
    (∀ v ∈ gap, bundleAt root version v = none) ∧
    ((∀ v ∈ after,
        bundleAt root version v = some (.directory old)) ∨
      ∀ v ∈ after,
        bundleAt root version v = some (.directory new)) ∧
    (s.IsFaultless →
      gap.length = 1 ∧ after ≠ [] ∧
        ∀ v ∈ after,
          bundleAt root version v = some (.directory new))

/- The earlier bundle may be there for longer. -/
theorem GivesWay.prepend
    {more points : List World}
    (hGives : GivesWay s root version old files points)
    (hMore : ∀ v ∈ more,
      bundleAt root version v = some (.directory old)) :
    GivesWay s root version old files (more ++ points) := by
  rcases hGives with
    ⟨before, gap, after, rfl, hBefore, hRest⟩
  refine ⟨more ++ before, gap, after, by simp, ?_, hRest⟩
  intro v hMem
  rcases List.mem_append.mp hMem with hFirst | hLater
  · exact hMore v hFirst
  · exact hBefore v hLater

theorem GivesWay.cons
    {points : List World}
    (hGives : GivesWay s root version old files points)
    (hFirst : bundleAt root version v =
      some (.directory old)) :
    GivesWay s root version old files (v :: points) :=
  hGives.prepend (List.forall_mem_singleton.mpr hFirst)

/- After a failure the earlier bundle may stay. -/
theorem givesWay_of_kept
    {points : List World}
    (hFaulty : ¬s.IsFaultless)
    (hKept : ∀ v ∈ points,
      bundleAt root version v = some (.directory old)) :
    GivesWay s root version old files points :=
  ⟨points, [], [], by simp, hKept, List.forall_mem_nil _,
    Or.inl (List.forall_mem_nil _),
    fun hFaultless => absurd hFaultless hFaulty⟩

theorem bundleAt_of_tracks
    (hTracks : Tracks root everything entries w) :
    bundleAt root version w = entries.get? version.display :=
  hTracks.agree _ trivial

/- The names below a root but for the place of a version. -/
def IsBeside (version : Version) (name : String) : Prop :=
  name ≠ version.display

/- To work beside the place of a version leaves it as it is. -/
theorem bundleAt_of_mem_worlds
    {α : Type}
    {p : Program α}
    (hWorks : WorksWithin root (IsBeside version) p)
    (hMem : v ∈ p.worlds s w) :
    bundleAt root version v = bundleAt root version w :=
  hWorks.agreeOn_of_mem_worlds hMem version.display
    fun hBeside => hBeside rfl

/- What is there at one point is there as long. -/
theorem bundleAt_eq_of_mem_worlds
    {α : Type}
    {p : Program α}
    {place : Option Node}
    (hWorks : WorksWithin root (IsBeside version) p)
    (hPlace : bundleAt root version w = place) :
    ∀ v ∈ p.worlds s w, bundleAt root version v = place :=
  fun _ hMem => (bundleAt_of_mem_worlds hWorks hMem).trans
    hPlace

------------------------------------------------------------
-- Replacing
------------------------------------------------------------

variable {next : Published Unit → Program (Published Unit)}

/- An action, and what follows on it. -/
theorem worlds_attempt
    {α : Type}
    (action : StorageAction)
    (path : Path)
    (program : Program (Stored α))
    (go : α → Program (Published Unit))
    (w : World) :
    ((attempt action path program go).bind next).worlds s w =
      program.way s w ++
        (match (program.run s w).1 with
          | .ok value => (go value).bind next
          | .error fault =>
              next (.error (.storage action path fault))).worlds
          s (program.run s w).2 := by
  rw [attempt, Program.bind_assoc, Program.worlds_bind]
  cases (program.run s w).1 <;> rfl

/- An entry of a root is moved, or the move fails. -/
theorem rename_cases
    {source target : String}
    {node : Node}
    (hTracks : Tracks root everything entries w)
    (hOther : source ≠ target)
    (hThere : entries.get? source = some node)
    (hFree : Tree.replace node (entries.get? target) =
      .ok (some node)) :
    (∃ v, (Program.rename (root.join source)
        (root.join target)).run s w = (.ok (), v) ∧
      Tracks root everything
        (Tree.moved source target node entries) v) ∨
    ¬s.IsFaultless ∧
      ∃ fault, (Program.rename (root.join source)
        (root.join target)).run s w =
          (.error fault, w.advance) := by
  rcases Program.act_cases (s := s) (Program.isAct_rename _ _)
      (Program.safely_rename s.isFaultless_withoutFailures
        hTracks trivial trivial hOther hThere hFree) with
    ⟨v, -, hRun, hMoved⟩ | ⟨fault, hFailure, hRun⟩
  · exact Or.inl ⟨v, hRun, hMoved⟩
  · refine Or.inr ⟨?_, fault, hRun⟩
    intro hFaultless
    rw [hFaultless w.steps] at hFailure
    cases hFailure

/-
  Points at which there is nothing at the place of a version,
  and then the last of both bundles that has been moved there.
-/
def FillsGap
    (s : Surroundings)
    (root : Path)
    (version : Version)
    (old new : Tree)
    (points : List World) : Prop :=
  ∃ gap after last, points = gap ++ after ∧
    (∀ v ∈ gap, bundleAt root version v = none) ∧
    (last = old ∨ last = new) ∧
    (∀ v ∈ after,
      bundleAt root version v = some (.directory last)) ∧
    (s.IsFaultless →
      gap.length = 1 ∧ after ≠ [] ∧ last = new)

theorem FillsGap.givesWay
    {points : List World}
    (hFills : FillsGap s root version old files points)
    (hFirst : bundleAt root version w =
      some (.directory old)) :
    GivesWay s root version old files (w :: points) := by
  rcases hFills with
    ⟨gap, after, last, rfl, hGap, hLast, hAfter, hNone⟩
  refine ⟨[w], gap, after, rfl,
    List.forall_mem_singleton.mpr hFirst, hGap, ?_, ?_⟩
  · rcases hLast with rfl | rfl
    · exact Or.inl hAfter
    · exact Or.inr hAfter
  · intro hFaultless
    rcases hNone hFaultless with ⟨hOne, hSome, rfl⟩
    exact ⟨hOne, hSome, hAfter⟩

/- After two failures there may be no bundle at the place. -/
theorem fillsGap_of_free
    {points : List World}
    (hFaulty : ¬s.IsFaultless)
    (hFree : ∀ v ∈ points, bundleAt root version v = none) :
    FillsGap s root version old files points :=
  ⟨points, [], old, (List.append_nil _).symm, hFree,
    Or.inl rfl, List.forall_mem_nil _,
    fun hFaultless => absurd hFaultless hFaulty⟩

/- There may be nothing for longer. -/
theorem FillsGap.cons
    {points : List World}
    (hFaulty : ¬s.IsFaultless)
    (hFills : FillsGap s root version old files points)
    (hFirst : bundleAt root version v = none) :
    FillsGap s root version old files (v :: points) := by
  rcases hFills with
    ⟨gap, after, last, rfl, hGap, hLast, hAfter, -⟩
  exact ⟨v :: gap, after, last, rfl,
    List.forall_mem_cons.mpr ⟨hFirst, hGap⟩, hLast, hAfter,
    fun hFaultless => absurd hFaultless hFaulty⟩

variable {other : String}

theorem bundleAt_of_withRetired
    (hTracks : Tracks root everything
      (withRetired version fresh other old files entries) w) :
    bundleAt root version w = none :=
  (bundleAt_of_tracks hTracks).trans get?_withRetired_display

/- The earlier bundle is moved back, or the place stays free. -/
theorem fillsGap_restore
    (fault : StorageFault)
    (hFaulty : ¬s.IsFaultless)
    (hNext : ∀ a,
      WorksWithin root (IsBeside version) (next a))
    (hTracks : Tracks root everything
      (withRetired version fresh other old files entries) w) :
    FillsGap s root version old files
      (((restore root version fresh other fault).bind
        next).worlds s w) := by
  have hRetiredNe :=
    retiredName_ne_display version version other
  have hGap := bundleAt_of_withRetired hTracks
  rw [restore, Program.bind_assoc, Program.worlds_bind]
  rcases rename_cases (s := s) hTracks hRetiredNe
      get?_withRetired_retired
      (replace_withRetired_display _) with
    ⟨v, hRun, hBack⟩ | ⟨-, lost, hRun⟩
  · rw [hRun]
    have hHere : bundleAt root version v =
        some (.directory old) :=
      (bundleAt_of_tracks hBack).trans
        (Tree.get?_moved_new hRetiredNe)
    exact ⟨[w], _, old, rfl,
      List.forall_mem_singleton.mpr hGap, Or.inl rfl,
      bundleAt_eq_of_mem_worlds (hNext _) hHere,
      fun hFaultless => absurd hFaultless hFaulty⟩
  · rw [hRun]
    have hNone := bundleAt_of_withRetired hTracks.advance
    apply fillsGap_of_free hFaulty
    refine List.forall_mem_cons.mpr ⟨hGap, ?_⟩
    exact bundleAt_eq_of_mem_worlds (hNext _) hNone

/- Whichever bundle is moved to the place, it stays there. -/
theorem fillsGap_exchange
    (hNext : ∀ a,
      WorksWithin root (IsBeside version) (next a))
    (hTracks : Tracks root everything
      (withRetired version fresh other old files entries) w) :
    FillsGap s root version old files
      (((exchange root version fresh other).bind next).worlds
        s w) := by
  have hStagingNe :=
    stagingName_ne_display version version fresh
  have hGap := bundleAt_of_withRetired hTracks
  rw [exchange, Program.bind_assoc, Program.worlds_bind]
  rcases rename_cases (s := s) hTracks hStagingNe
      get?_withRetired_staging
      (replace_withRetired_display _) with
    ⟨v, hRun, hMoved⟩ | ⟨hFaulty, fault, hRun⟩
  · rw [hRun]
    have hHere : bundleAt root version v =
        some (.directory files) :=
      (bundleAt_of_tracks hMoved).trans
        (Tree.get?_moved_new hStagingNe)
    refine ⟨[w], _, files, rfl,
      List.forall_mem_singleton.mpr hGap, Or.inr rfl,
      bundleAt_eq_of_mem_worlds ?_ hHere,
      fun _ => ⟨rfl, Program.worlds_ne_nil _ _, rfl⟩⟩
    have hRetiredNe :=
      retiredName_ne_display version version other
    apply (Program.behaves_ask (.removeAll hRetiredNe)).bind
    intro _ _
    exact hNext (.ok ())
  · rw [hRun]
    exact (fillsGap_restore fault hFaulty hNext
      hTracks.advance).cons hFaulty hGap

/-
  The earlier bundle is moved away, and the place is free
  until the new one is moved there. If that fails, the earlier
  one is moved back, or the place stays free.
-/
theorem givesWay_replaceBundle
    (hNext : ∀ a,
      WorksWithin root (IsBeside version) (next a))
    (hNames : HasFreshNames s version entries w.steps)
    (hOld : entries.get? version.display =
      some (.directory old))
    (hTracks : Tracks root everything
      (withStaging version fresh files entries) w) :
    GivesWay s root version old files
      (((replaceBundle root
        (root.join (stagingName version fresh))
        (versionDirectory root version) version).bind
          next).worlds s w) := by
  have hHere : Table.get? version.display
      (withStaging version fresh files entries) =
        some (.directory old) :=
    get?_withStaging_display.trans hOld
  have hRetiredFree := (hNames w.steps (Nat.le_refl _)).2
  have hFirst := (bundleAt_of_tracks hTracks).trans hHere
  -- A name is made for the earlier bundle.
  rw [replaceBundle_eq, Program.bind_assoc,
    Program.worlds_bind, Program.run_freshName]
  refine GivesWay.prepend ?_
    (List.forall_mem_singleton.mpr hFirst)
  generalize s.name w.steps = other at hRetiredFree ⊢
  have hTracks := hTracks.advance
  dsimp only
  generalize w.advance = w at hTracks ⊢
  have hFirst := (bundleAt_of_tracks hTracks).trans hHere
  -- The earlier bundle is moved away.
  rw [worlds_attempt]
  rcases rename_cases (s := s) hTracks
      (retiredName_ne_display version version other).symm
      hHere (replace_withStaging_retired hRetiredFree _) with
    ⟨v, hRun, hRetired⟩ | ⟨hFaulty, fault, hRun⟩
  · rw [hRun]
    exact (fillsGap_exchange hNext hRetired).givesWay hFirst
  · rw [hRun]
    have hStill :=
      (bundleAt_of_tracks hTracks.advance).trans hHere
    apply givesWay_of_kept hFaulty
    refine List.forall_mem_cons.mpr ⟨hFirst, ?_⟩
    exact bundleAt_eq_of_mem_worlds (hNext _) hStill

------------------------------------------------------------
-- Publishing
------------------------------------------------------------

/- What follows on the installation of a bundle. -/
def afterInstall
    (staging : Path) :
    Published Unit → Program (Published Unit)
| .ok _ => .done (.ok ())
| .error e =>
    (discard staging).bind fun _ => .done (.error e)

theorem publish_eq
    (root : Path)
    (b : Bundle) :
    publish root b =
      attempt .create root (.createAll root) fun _ =>
        Program.freshName.bind fun fresh =>
          (install root
              (root.join (stagingName b.version fresh))
              b).bind
            (afterInstall
              (root.join (stagingName b.version fresh))) := by
  rw [publish]
  congr

theorem worksWithin_afterInstall
    (version : Version)
    (fresh : String)
    (a : Published Unit) :
    WorksWithin root (IsBeside version)
      (afterInstall (root.join (stagingName version fresh))
        a) := by
  have hBeside : IsBeside version (stagingName version fresh) :=
    stagingName_ne_display version version fresh
  cases a with
  | ok _ => trivial
  | error e =>
      apply (behaves_discard hBeside).bind
      intro _ _
      trivial

theorem swapIn_eq
    (root : Path)
    (version : Version)
    (fresh : String) :
    swapIn root (root.join (stagingName version fresh))
        (versionDirectory root version) version =
      (Program.isPresent (versionDirectory root version)).bind
        fun isPresent =>
          if isPresent then
            replaceBundle root
              (root.join (stagingName version fresh))
              (versionDirectory root version) version
          else
            attempt .rename
              (root.join (stagingName version fresh))
              (.rename (root.join (stagingName version fresh))
                (versionDirectory root version))
              fun _ => .done (.ok ()) :=
  rfl

theorem givesWay_swapIn
    (hNext : ∀ a,
      WorksWithin root (IsBeside version) (next a))
    (hNames : HasFreshNames s version entries w.steps)
    (hOld : entries.get? version.display =
      some (.directory old))
    (hTracks : Tracks root everything
      (withStaging version fresh files entries) w) :
    GivesWay s root version old files
      (((swapIn root (root.join (stagingName version fresh))
        (versionDirectory root version) version).bind
          next).worlds s w) := by
  have hHere : Table.get? version.display
      (withStaging version fresh files entries) =
        some (.directory old) :=
    get?_withStaging_display.trans hOld
  have hLook : (Program.isPresent
      (root.join version.display)).Safely s _ w _ :=
    Program.safely_isPresent hTracks trivial
  have hRun : (Program.isPresent
      (versionDirectory root version)).run s w =
        (true, w.advance) := by
    have hPresent := hLook.run.2 _ (Program.KeepsRoot.refl _)
    refine Prod.ext (hPresent.1.trans ?_) rfl
    rw [hHere]
    rfl
  rw [swapIn_eq, Program.bind_assoc, Program.worlds_bind,
    hRun]
  refine GivesWay.prepend ?_ (List.forall_mem_singleton.mpr
    ((bundleAt_of_tracks hTracks).trans hHere))
  exact givesWay_replaceBundle hNext
    (hNames.later (Nat.le_succ _)) hOld hTracks.advance

theorem install_eq
    (root staging : Path)
    (b : Bundle) :
    install root staging b =
      (stage staging b).bind fun
        | .error e => .done (.error e)
        | .ok _ =>
            swapIn root staging
              (versionDirectory root b.version) b.version :=
  rfl

/- The new bundle is written beside the place first. -/
theorem givesWay_install
    (hNext : ∀ a,
      WorksWithin root (IsBeside b.version) (next a))
    (hInstants : ∀ step, (s.instant step).IsRepresentable)
    (hNames : HasFreshNames s b.version entries w.steps)
    (hFree : entries.get? (stagingName b.version fresh) = none)
    (hOld : entries.get? b.version.display =
      some (.directory old))
    (hTracks : Tracks root everything entries w) :
    ∃ t : Instant, t.IsRepresentable ∧
      GivesWay s root b.version old (b.directory t)
        (((install root
          (root.join (stagingName b.version fresh)) b).bind
            next).worlds s w) := by
  have hStagingNe :=
    stagingName_ne_display b.version b.version fresh
  have hFirst := (bundleAt_of_tracks hTracks).trans hOld
  have hStage : WorksWithin root (IsBeside b.version)
      (stage (root.join (stagingName b.version fresh)) b) :=
    behaves_stage b hStagingNe
  have hWay : ∀ v ∈ (stage (root.join
      (stagingName b.version fresh)) b).way s w,
      bundleAt root b.version v = some (.directory old) :=
    fun v hMem => bundleAt_eq_of_mem_worlds hStage hFirst v
      (Program.mem_worlds_of_mem_way hMem)
  have hSteps := Program.steps_le_run (s := s)
    (stage (root.join (stagingName b.version fresh)) b) w
  have hNone : s.IsFaultless →
      (stage (root.join (stagingName b.version fresh))
        b).failures s w = [] :=
    fun hFaultless =>
      Program.failures_of_isFaultless hFaultless _ _
  have hEnds := ends_stage (s := s) (b := b) hInstants hFree
    hTracks
  unfold Program.Ends at hEnds
  rw [install_eq, Program.bind_assoc, Program.worlds_bind]
  generalize (stage (root.join
    (stagingName b.version fresh)) b).failures s w = failed
    at hEnds hNone
  generalize (stage (root.join
    (stagingName b.version fresh)) b).run s w = ended
    at hEnds hSteps ⊢
  rcases ended with ⟨a, v⟩
  cases hEnds with
  | done hStaged =>
      rcases hStaged with ⟨t, hTime, hStaged⟩
      exact ⟨t, hTime, (givesWay_swapIn hNext
        (hNames.later hSteps) hOld hStaged).prepend hWay⟩
  | refused hFailed hLeft =>
      rcases hLeft with ⟨left, hLeaves, hLeft⟩
      have hStill := (bundleAt_of_tracks hLeft).trans
        ((hLeaves.others _ hStagingNe.symm).trans hOld)
      refine ⟨s.instant 0, hInstants 0,
        GivesWay.prepend ?_ hWay⟩
      apply givesWay_of_kept
        fun hFaultless => hFailed (hNone hFaultless)
      exact bundleAt_eq_of_mem_worlds (hNext _) hStill

/-
  While a bundle is published in place of another one: at
  each point between its operations, the place of the version
  has the earlier bundle, nothing, or one of both bundles.
-/
theorem givesWay_publish
    (hInstants : ∀ step, (s.instant step).IsRepresentable)
    (hNames : HasFreshNames s b.version entries w.steps)
    (hOld : entries.get? b.version.display =
      some (.directory old))
    (hAwaits : Awaits root everything entries w) :
    ∃ t : Instant, t.IsRepresentable ∧
      GivesWay s root b.version old (b.directory t)
        ((publish root b).worlds s w) := by
  have hFirst : bundleAt root b.version w =
      some (.directory old) :=
    (hAwaits.agree _ trivial).trans hOld
  have hStill : bundleAt root b.version w.advance =
      some (.directory old) :=
    (hAwaits.advance.agree _ trivial).trans hOld
  rw [publish_eq]
  rcases Program.act_cases (s := s)
      (Program.isAct_createAll root)
      (Program.safely_createAll s.isFaultless_withoutFailures
        hAwaits) with
    ⟨v, -, hRun, hTracks⟩ | ⟨fault, hFailure, hRun⟩
  · rw [attempt, Program.worlds_bind, hRun]
    dsimp only
    have hSteps : w.steps ≤ v.steps := by
      have hLater := Program.steps_le_run (s := s)
        (Program.createAll root) w
      rw [hRun] at hLater
      exact hLater
    have hCreated := (bundleAt_of_tracks hTracks).trans hOld
    rw [Program.worlds_bind, Program.run_freshName]
    rcases givesWay_install
        (worksWithin_afterInstall b.version (s.name v.steps))
        hInstants
        (hNames.later (Nat.le_trans hSteps (Nat.le_succ _)))
        (hNames v.steps hSteps).1 hOld hTracks.advance with
      ⟨t, hTime, hGives⟩
    exact ⟨t, hTime, (hGives.cons hCreated).cons hFirst⟩
  · rw [attempt, Program.worlds_bind, hRun]
    refine ⟨s.instant 0, hInstants 0, givesWay_of_kept ?_ ?_⟩
    · intro hFaultless
      rw [hFaultless w.steps] at hFailure
      cases hFailure
    · refine List.forall_mem_cons.mpr ⟨hFirst, ?_⟩
      exact List.forall_mem_singleton.mpr hStill

end Publication

end Federation
