import Federation.Proofs.Generation.Steady
import Federation.Proofs.Run.Calm
import Federation.Proofs.Run.CurrentVersion

/-
  The versions of a run do not depend on each other. Whatever
  turns they take, each of them has the outcome and the bundle
  that it has by itself, at the instants that it is told. If
  its generator is steady, these do not even depend on the
  instants, but for the times that are written into its files.

  Main declarations:
    * `Bundle.SameButTimes`
    * `Node.SameButTimes`, `Tree.SameButTimes`
    * `GeneratorSet.IsSteadyAt`
    * `Run.fate_alike`
    * `Run.EndTogether`
    * `Run.versions_independent`
    * `Run.runs_agree_of_standing`
-/

namespace Federation

------------------------------------------------------------
-- Times
------------------------------------------------------------

/- The bundles of a version differ in the times they tell. -/
structure Bundle.SameButTimes (b c : Bundle) : Prop where
  version : b.version = c.version
  privateSame :
    b.privateParameters.SameButTime c.privateParameters
  sharedSame :
    b.sharedParameters.SameButTime c.sharedParameters
  privateDigest : b.privateDigest = c.privateDigest
  sharedDigest : b.sharedDigest = c.sharedDigest

/-
  Two entries of a root are the same, or both are bundles or
  indexes that differ in the times they tell.
-/
inductive Node.SameButTimes : Node → Node → Prop
| same (node : Node) :
    SameButTimes node node
| bundle
    {b c : Bundle}
    (hSame : b.SameButTimes c)
    (t t' : Instant) :
    SameButTimes (.directory (b.directory t))
      (.directory (c.directory t'))
| index
    (version : Version)
    (t t' : Instant) :
    SameButTimes
      (.file (Publication.indexContent version t))
      (.file (Publication.indexContent version t'))

/- Under each name there are entries that differ in times. -/
def Tree.SameButTimes (xs ys : Tree) : Prop :=
  ∀ name,
    Option.Rel Node.SameButTimes (xs.get? name) (ys.get? name)

/- Two reports tell the same but for their names and times. -/
structure RunReport.SameButTimes (a b : RunReport) : Prop where
  state : a.state = b.state
  currentVersion : a.currentVersion = b.currentVersion
  currentMarked : a.currentMarked = b.currentMarked
  fault : a.fault = b.fault
  outcomes : a.outcomes = b.outcomes

theorem Node.SameButTimes.of_eq
    {x y : Option Node}
    (hSame : x = y) :
    Option.Rel Node.SameButTimes x y := by
  subst hSame
  cases x with
  | none => exact .none
  | some node => exact .some (.same node)

/- The generator of a version, if there is one, is steady. -/
def GeneratorSet.IsSteadyAt
    (told : Instant → Prop)
    (r : Registry)
    (generators : GeneratorSet)
    (version : Version) : Prop :=
  ∀ generator,
    generators.get version (.generate .privateParameters) =
      .ok generator →
    generator.IsSteady told r

namespace Run

open Program (rootFrame Awaits KeepsRoot)
open Publication
  (Owns HasFreshNames indexFile newIndexFile indexContent)

variable {s s' : Surroundings}
variable {told : Instant → Prop}
variable {root : Path}
variable {plan : Plan}
variable {generators : GeneratorSet}
variable {generator : Generator}
variable {r : Registry}
variable {version : Version}
variable {before : Tree}
variable {d e : Draft}
variable {o o' : VersionOutcome}
variable {w w' : World}

------------------------------------------------------------
-- Drafts
------------------------------------------------------------

/- Drafts that differ in times, and are judged alike. -/
structure Draft.IsLike
    (generator : Generator)
    (d e : Draft) : Prop where
  privateSame :
    d.privateParameters.SameButTime e.privateParameters
  sharedSame :
    d.sharedParameters.SameButTime e.sharedParameters
  privateDigest : d.privateDigest = e.privateDigest
  sharedDigest : d.sharedDigest = e.sharedDigest
  privateJudged :
    generator.validate .privateParameters
        d.privateParameters =
      generator.validate .privateParameters
        e.privateParameters
  sharedJudged :
    generator.validate .sharedParameters d.sharedParameters =
      generator.validate .sharedParameters e.sharedParameters

theorem draftAt_alike
    {first second first' second' : Instant}
    (hSteady : generator.IsSteady told r)
    (hFirst : told first)
    (hSecond : told second)
    (hFirst' : told first')
    (hSecond' : told second') :
    AreAlike (Draft.IsLike generator)
      (draftAt generator r first second)
      (draftAt generator r first' second') := by
  have hPrivate :=
    hSteady .privateParameters first first' hFirst hFirst'
  have hShared :=
    hSteady .sharedParameters second second' hSecond hSecond'
  rw [draftAt, draftAt]
  generalize generator.generate .privateParameters first r =
    x at hPrivate ⊢
  generalize generator.generate .privateParameters first' r =
    y at hPrivate ⊢
  generalize generator.generate .sharedParameters second r =
    x' at hShared ⊢
  generalize generator.generate .sharedParameters second' r =
    y' at hShared ⊢
  cases hPrivate with
  | error e => exact .error _
  | @ok p q hPrivate =>
      cases hShared with
      | error e => exact .error _
      | @ok p' q' hShared =>
          dsimp only
          rw [Draft.ofDocuments, Draft.ofDocuments,
            ← hPrivate.1.content.digest_eq,
            ← hShared.1.content.digest_eq]
          cases p.digest with
          | error fault => exact .error _
          | ok privateDigest =>
              cases p'.digest with
              | error fault => exact .error _
              | ok sharedDigest =>
                  exact .ok ⟨hPrivate.1, hShared.1, rfl, rfl,
                    hPrivate.2, hShared.2⟩

theorem bundle_alike
    (version : Version)
    (hLike : d.IsLike generator e) :
    AreAlike Bundle.SameButTimes
      (Bundle.new version d.privateParameters
        d.sharedParameters d.privateDigest d.sharedDigest)
      (Bundle.new version e.privateParameters
        e.sharedParameters e.privateDigest
        e.sharedDigest) := by
  have hPrivate := hLike.privateSame.content.1
  have hShared := hLike.sharedSame.content.1
  rw [Bundle.new, Bundle.new]
  by_cases hFirst : d.privateParameters.version = version
  · rw [dif_pos hFirst, dif_pos (hPrivate.symm.trans hFirst)]
    by_cases hSecond : d.sharedParameters.version = version
    · rw [dif_pos hSecond, dif_pos (hShared.symm.trans hSecond)]
      exact .ok ⟨rfl, hLike.privateSame, hLike.sharedSame,
        hLike.privateDigest, hLike.sharedDigest⟩
    · rw [dif_neg hSecond,
        dif_neg fun hOther => hSecond (hShared.trans hOther),
        hShared]
      exact .error _
  · rw [dif_neg hFirst,
      dif_neg fun hOther => hFirst (hPrivate.trans hOther),
      hPrivate]
    exact .error _

/- Drafts that differ in times are approved of alike. -/
theorem approve_alike
    (version : Version)
    (hLike : d.IsLike generator e) :
    AreAlike Bundle.SameButTimes
      (approve generator version d)
      (approve generator version e) := by
  apply (AreAlike.of_eq hLike.privateJudged).bind
  intro _ _ _
  apply (AreAlike.of_eq hLike.sharedJudged).bind
  intro _ _ _
  apply (bundle_alike version hLike).bind
  intro b c hBundle
  apply (AreAlike.of_eq (Validation.validateDocument_congr
    version hBundle.privateSame)).bind
  intro _ _ _
  apply (AreAlike.of_eq (Validation.validateDocument_congr
    version hBundle.sharedSame)).bind
  intro _ _ _
  exact .ok hBundle

------------------------------------------------------------
-- Fates
------------------------------------------------------------

/- Fates of one outcome, and of bundles that differ in times. -/
structure Fate.IsLike (x y : Fate) : Prop where
  outcome : x.outcome = y.outcome
  bundle : Option.Rel Bundle.SameButTimes x.bundle y.bundle

theorem Fate.IsLike.refl_rejected
    (o : VersionOutcome)
    (stage : RejectionStage)
    (reason : String) :
    (rejected o stage reason).IsLike
      (rejected o stage reason) :=
  ⟨rfl, .none⟩

/-
  The fate of a version with a steady generator is the same at
  any instants, but for the times in its bundle.
-/
theorem fate_alike
    {t t' : Timing}
    (hSteady : generators.IsSteadyAt told r version)
    (hTold : t.IsTold told)
    (hTold' : t'.IsTold told) :
    (fate generators r version t).IsLike
      (fate generators r version t') := by
  rw [fate, fate]
  cases hGet : generators.get version
      (.generate .privateParameters) with
  | error e => exact .refl_rejected _ _ _
  | ok generator =>
      have hDraft := draftAt_alike (hSteady generator hGet)
        hTold.privateAt hTold.sharedAt hTold'.privateAt
        hTold'.sharedAt
      dsimp only
      generalize draftAt generator r t.privateAt t.sharedAt =
        x at hDraft ⊢
      generalize draftAt generator r t'.privateAt t'.sharedAt =
        y at hDraft ⊢
      cases hDraft with
      | error reason => exact .refl_rejected _ _ _
      | @ok d e hLike =>
          have hBundle := approve_alike version hLike
          dsimp only [fateOfDraft, withDigests, started]
          generalize approve generator version d =
            x at hBundle ⊢
          generalize approve generator version e =
            y at hBundle ⊢
          rw [hLike.privateDigest, hLike.sharedDigest]
          cases hBundle with
          | error e => exact .refl_rejected _ _ _
          | ok hSame => exact ⟨rfl, .some hSame⟩

theorem Fate.IsLike.entries
    {x y : Fate}
    (hLike : x.IsLike y)
    (t t' : Instant)
    (before : Tree) :
    (x.entries t before).SameButTimes
      (y.entries t' before) := by
  intro name
  have hBundle := hLike.bundle
  rw [Fate.entries, Fate.entries]
  generalize x.bundle = first at hBundle ⊢
  generalize y.bundle = second at hBundle ⊢
  cases hBundle with
  | none => exact Node.SameButTimes.of_eq rfl
  | @some b c hSame =>
      dsimp only
      rw [← hSame.version, Table.get?_insert,
        Table.get?_insert]
      split
      · exact .some (.bundle hSame t t')
      · exact Node.SameButTimes.of_eq rfl

theorem ComesToFate.alike
    (hSteady : generators.IsSteadyAt told r version)
    (hFirst : ComesToFate told root generators r before version
      o w)
    (hSecond : ComesToFate told root generators r before
      version o' w') :
    o = o' ∧ ∀ name, Owns version name →
      Option.Rel Node.SameButTimes
        ((w.tree.entriesAt root).get? name)
        ((w'.tree.entriesAt root).get? name) := by
  rcases hFirst with ⟨t, hTold, rfl, hPlace⟩
  rcases hSecond with ⟨t', hTold', rfl, hPlace'⟩
  have hLike := fate_alike hSteady hTold hTold'
  refine ⟨hLike.outcome, fun name hOwns => ?_⟩
  rw [hPlace name hOwns, hPlace' name hOwns]
  exact hLike.entries _ _ _ name

------------------------------------------------------------
-- Runs
------------------------------------------------------------

section Reports

variable {versions : List Version}
variable {outcomes outcomes' : List VersionOutcome}

/- Versions with steady generators have the same outcomes. -/
theorem outcomes_eq
    (hSteady : ∀ version ∈ versions,
      generators.IsSteadyAt told r version)
    (hFirst : List.Forall₂
      (fun version o =>
        ComesToFate told root generators r before version o w)
      versions outcomes)
    (hSecond : List.Forall₂
      (fun version o =>
        ComesToFate told root generators r before version o w')
      versions outcomes') :
    outcomes = outcomes' := by
  induction hFirst generalizing outcomes' with
  | nil =>
      cases hSecond
      rfl
  | cons hHead _ ih =>
      rcases hSecond with _ | ⟨hHead', hTail'⟩
      rw [List.forall_mem_cons] at hSteady
      rw [(hHead.alike hSteady.1 hHead').1,
        ih hSteady.2 hTail']

end Reports

variable {current : Version}
variable {report report' : RunReport}

/- The indexes of two runs differ in the times they tell. -/
theorem ReportsFates.index_alike
    {name : String}
    (hFirst : ReportsFates told root generators r current
      before report w)
    (hSecond : ReportsFates told root generators r current
      before report' w')
    (hMarked : report.currentMarked = report'.currentMarked)
    (hIndex : name = indexFile ∨ name = newIndexFile) :
    Option.Rel Node.SameButTimes
      ((w.tree.entriesAt root).get? name)
      ((w'.tree.entriesAt root).get? name) := by
  have hHere := hFirst.index
  have hThere := hSecond.index
  rw [← hMarked] at hThere
  by_cases hIs : report.currentMarked = true
  · rw [if_pos hIs] at hHere hThere
    rcases hHere with ⟨t, -, hNew, hLeft⟩
    rcases hThere with ⟨t', -, hNew', hLeft'⟩
    rcases hIndex with rfl | rfl
    · rw [hNew, hNew']
      exact .some (.index current t t')
    · rw [hLeft, hLeft']
      exact .none
  · rw [if_neg hIs] at hHere hThere
    exact Node.SameButTimes.of_eq ((hHere name hIndex).trans
      (hThere name hIndex).symm)

theorem ReportsFates.sameButTimes
    (hSteady : ∀ version ∈ generators.versions,
      generators.IsSteadyAt told r version)
    (hFirst : ReportsFates told root generators r current
      before report w)
    (hSecond : ReportsFates told root generators r current
      before report' w') :
    report.SameButTimes report' ∧
      (w.tree.entriesAt root).SameButTimes
        (w'.tree.entriesAt root) := by
  have hOutcomes : report.outcomes = report'.outcomes :=
    outcomes_eq hSteady hFirst.each hSecond.each
  have hMarked : report.currentMarked =
      report'.currentMarked := by
    rw [Bool.eq_iff_iff, hFirst.marked, hSecond.marked,
      RunReport.Publishes, RunReport.Publishes, hOutcomes]
  constructor
  · exact ⟨hFirst.state.trans hSecond.state.symm,
      hFirst.named.trans hSecond.named.symm, hMarked,
      hFirst.fault.trans hSecond.fault.symm, hOutcomes⟩
  · intro name
    by_cases hOwned : ∃ version ∈ generators.versions,
      Owns version name
    · rcases hOwned with ⟨version, hMem, hOwns⟩
      rcases exists_outcome hFirst.each hMem with
        ⟨o, -, hFate⟩
      rcases exists_outcome hSecond.each hMem with
        ⟨o', -, hFate'⟩
      exact (hFate.alike (hSteady version hMem) hFate').2 name
        hOwns
    · have hNone : ∀ version ∈ generators.versions,
          ¬Owns version name :=
        fun version hMem hOwns => hOwned ⟨version, hMem, hOwns⟩
      by_cases hIndex : name = indexFile ∨ name = newIndexFile
      · exact hFirst.index_alike hSecond hMarked hIndex
      · rw [not_or] at hIndex
        exact Node.SameButTimes.of_eq
          ((hFirst.others name hNone hIndex.1 hIndex.2).trans
            (hSecond.others name hNone hIndex.1
              hIndex.2).symm)

/- Nothing but its own generator decides on a version. -/
theorem fate_congr
    {others : GeneratorSet}
    (hOwn : others.table.get? version =
      generators.table.get? version)
    (t : Timing) :
    fate others r version t = fate generators r version t := by
  rw [fate, fate, GeneratorSet.get, GeneratorSet.get, hOwn]

theorem ComesToFate.of_others
    {others : GeneratorSet}
    (hFate : ComesToFate told root others r before version o w)
    (hOwn : others.table.get? version =
      generators.table.get? version) :
    ComesToFate told root generators r before version o w := by
  rcases hFate with ⟨t, hTold, hOutcome, hPlace⟩
  rw [fate_congr hOwn] at hOutcome hPlace
  exact ⟨t, hTold, hOutcome, hPlace⟩

------------------------------------------------------------
-- Steady Generators
------------------------------------------------------------

/- Where the clock stands still, all generators are steady. -/
theorem isSteadyAt_of_standing
    {now : Instant}
    (generators : GeneratorSet)
    (r : Registry)
    (version : Version)
    (hStands : ∀ t, told t → t = now) :
    generators.IsSteadyAt told r version :=
  fun generator _ => generator.isSteady_of_standing r hStands

/- The library's own generators are steady in plain instants. -/
theorem isSteadyAt_builtin
    (r : Registry)
    (version : Version)
    (hPlain : ∀ t, told t → t.IsPlain) :
    GeneratorSet.builtin.IsSteadyAt told r version := by
  intro generator hGet
  have hMem := GeneratorSet.mem_of_get hGet
  simp only [GeneratorSet.builtin, List.mem_cons,
    Prod.mk.injEq, List.not_mem_nil, or_false] at hMem
  rcases hMem with ⟨-, rfl⟩ | ⟨-, rfl⟩
  · exact Generator.isSteady_ofContent _ _ r hPlain
  · exact Generator.isSteady_ofContent _ _ r hPlain

------------------------------------------------------------
-- Two Runs
------------------------------------------------------------

/-
  Two runs end together: in the same fault, which leaves the
  tree alone, or in the fates of all of their versions.
-/
inductive EndTogether
    (told : Instant → Prop)
    (root : Path)
    (generators : GeneratorSet)
    (r : Registry)
    (before : Tree)
    (report report' : RunReport)
    (w w' : World) : Prop
| fault
    (hFault : report.fault ≠ none)
    (hSame : report.SameButTimes report')
    (hTree : w'.tree = w.tree)
| fates
    {current : Version}
    (hFirst : ReportsFates told root generators r current
      before report w)
    (hSecond : ReportsFates told root generators r current
      before report' w')

theorem EndTogether.sameButTimes
    (hEnd : EndTogether told root generators r before report
      report' w w')
    (hSteady : ∀ version ∈ generators.versions,
      generators.IsSteadyAt told r version) :
    report.SameButTimes report' ∧
      (w.tree.entriesAt root).SameButTimes
        (w'.tree.entriesAt root) := by
  cases hEnd with
  | fault _ hSame hTree =>
      refine ⟨hSame, fun name => ?_⟩
      rw [hTree]
      exact Node.SameButTimes.of_eq rfl
  | fates hFirst hSecond =>
      exact hFirst.sameButTimes hSteady hSecond

/- Runs from the same root end together, whatever their turns. -/
theorem exists_endTogether
    (plan : Plan)
    (turns : List Nat)
    (runId : String)
    (startedAt : Instant)
    (r : Registry)
    (hCalm : s.IsCalm told)
    (hCalm' : s'.IsCalm told)
    (hPublisher : plan.publisher = Publisher.directory root)
    (hOrdered : Table.IsOrdered plan.generators.table)
    (hBundles : HasBundles root w.tree)
    (hTree : w'.tree = w.tree)
    (hNames : ∀ version ∈ plan.generators.versions,
      HasFreshNames s version (w.tree.entriesAt root) 0 ∧
        HasFreshNames s' version (w.tree.entriesAt root) 0) :
    ∃ report after report' after',
      (executeOn plan runId startedAt r).run s w =
        (.ok report, after) ∧
      (executeOn { plan with turns } runId startedAt r).run s'
        w' = (.ok report', after') ∧
      EndTogether told root plan.generators r
        (w.tree.entriesAt root) report report' after
        after' := by
  cases hPolicy : plan.policy.current plan.generators with
  | error fault =>
      exact ⟨_, _, _, _,
        executeOn_of_fault runId startedAt r hPolicy,
        executeOn_of_fault runId startedAt r hPolicy,
        .fault (Option.some_ne_none _)
          ⟨rfl, rfl, rfl, rfl, rfl⟩ hTree⟩
  | ok current =>
      rcases executeOn_calm plan runId startedAt r hCalm
          hPublisher hOrdered rfl hBundles
          (fun version hMem => (hNames version hMem).1)
          hPolicy with ⟨report, after, hRun, hReports⟩
      rcases executeOn_calm { plan with turns } runId startedAt
          r hCalm' hPublisher hOrdered hTree hBundles
          (fun version hMem => (hNames version hMem).2)
          hPolicy with ⟨report', after', hRun', hReports'⟩
      exact ⟨report, after, report', after', hRun, hRun',
        .fates hReports hReports'⟩

/-
  By itself, and next to any other generators, a version comes
  to a fate like the one that it has come to.
-/
theorem ComesToFate.exists_alone
    {tree : Tree}
    {others : GeneratorSet}
    (hFate : ComesToFate told root generators r
      (tree.entriesAt root) version o w)
    (hCalm : s.IsCalm told)
    (hTree : w'.tree = tree)
    (hBundles : HasBundles root tree)
    (hNames : HasFreshNames s version (tree.entriesAt root) 0)
    (hOwn : others.table.get? version =
      generators.table.get? version) :
    ∃ single alone,
      (process others (Publisher.directory root) r
        version).run s w' = (.ok single, alone) ∧
      ComesToFate told root generators r
        (tree.entriesAt root) version single alone ∧
      (generators.IsSteadyAt told r version →
        o = single ∧ ∀ name, Owns version name →
          Option.Rel Node.SameButTimes
            ((w.tree.entriesAt root).get? name)
            ((alone.tree.entriesAt root).get? name)) := by
  rcases process_calm others r hCalm hTree hBundles hNames
    with ⟨single, alone, hAlone, hSingle⟩
  have hComes := hSingle.of_others hOwn
  exact ⟨single, alone, hAlone, hComes, fun hSteady =>
    hFate.alike hSteady hComes⟩

/- Surroundings like those of one instant, but of another. -/
def later : Surroundings :=
  { still with instant := fun _ => ⟨1735689600, 0⟩ }

/-
  Two runs from the same reachable root, neither of them failed
  or cancelled, that differ in surroundings and in the turns
  their versions take. Each version comes to its fate in both
  of them, as it does by itself and next to any other
  generators. Where generators are steady, as all of them are
  while the clock stands still, all of these give the same
  outcomes and the same files but for times.
-/
theorem versions_independent
    (plan : Plan)
    (turns : List Nat)
    (runId : String)
    (startedAt : Instant)
    (r : Registry)
    (hCalm : s.IsCalm told)
    (hCalm' : s'.IsCalm told)
    (hPublisher : plan.publisher = Publisher.directory root)
    (hOrdered : Table.IsOrdered plan.generators.table)
    (hReachable : IsReachable root w.tree)
    (hTree : w'.tree = w.tree)
    (hNames : ∀ version ∈ plan.generators.versions,
      HasFreshNames s version (w.tree.entriesAt root) 0 ∧
        HasFreshNames s' version (w.tree.entriesAt root) 0) :
    let before := w.tree.entriesAt root
    let comes := ComesToFate told root plan.generators r before
    ∃ report after report' after',
      (executeOn plan runId startedAt r).run s w =
        (.ok report, after) ∧
      (executeOn { plan with turns } runId startedAt r).run s'
        w' = (.ok report', after') ∧
      ((∀ version ∈ plan.generators.versions,
          plan.generators.IsSteadyAt told r version) →
        report.SameButTimes report' ∧
          (after.tree.entriesAt root).SameButTimes
            (after'.tree.entriesAt root)) ∧
      (report.fault = none →
        ∀ version ∈ plan.generators.versions, ∃ o o',
          report.outcome? version = some o ∧
          report'.outcome? version = some o' ∧
          comes version o after ∧ comes version o' after' ∧
          ∀ others : GeneratorSet,
            others.table.get? version =
              plan.generators.table.get? version →
            ∃ single alone,
              (process others plan.publisher r version).run s'
                w' = (.ok single, alone) ∧
              comes version single alone ∧
              (plan.generators.IsSteadyAt told r version →
                o = single ∧ ∀ name, Owns version name →
                  Option.Rel Node.SameButTimes
                    ((after.tree.entriesAt root).get? name)
                    ((alone.tree.entriesAt root).get?
                      name))) := by
  intro before comes
  have hBundles := hReachable.hasBundles
  rcases exists_endTogether plan turns runId startedAt r hCalm
      hCalm' hPublisher hOrdered hBundles hTree hNames with
    ⟨report, after, report', after', hRun, hRun', hEnd⟩
  refine ⟨report, after, report', after', hRun, hRun',
    hEnd.sameButTimes, fun hFree version hMem => ?_⟩
  cases hEnd with
  | fault hFault => exact absurd hFree hFault
  | fates hFirst hSecond =>
      rcases exists_outcome hFirst.each hMem with
        ⟨o, hFound, hFate⟩
      rcases exists_outcome hSecond.each hMem with
        ⟨o', hFound', hFate'⟩
      refine ⟨o, o', hFound, hFound', hFate, hFate',
        fun others hOwn => ?_⟩
      rw [hPublisher]
      exact hFate.exists_alone hCalm' hTree hBundles
        (hNames version hMem).2 hOwn

/- Both versions, one after the other and side by side. -/
theorem versions_independent_small :
    ∃ report after report' after',
      (executeOn (smallRun (.ofText "out") (.small .small)) "a"
        ⟨0, 0⟩ (.small .small)).run still (World.ofTree []) =
          (.ok report, after) ∧
      (executeOn { smallRun (.ofText "out") (.small .small) with
        turns := [1, 0, 1, 1, 0] } "a" ⟨0, 0⟩
        (.small .small)).run later (World.ofTree []) =
          (.ok report', after') ∧
      report.SameButTimes report' ∧
      (after.tree.entriesAt (.ofText "out")).SameButTimes
        (after'.tree.entriesAt (.ofText "out")) := by
  have hFirst : Instant.IsPlain ⟨0, 0⟩ :=
    ⟨by decide, by decide⟩
  have hSecond : Instant.IsPlain ⟨1735689600, 0⟩ :=
    ⟨by decide, by decide⟩
  have hStill : still.IsCalm Instant.IsPlain :=
    ⟨fun _ => rfl, fun _ => rfl, fun _ => hFirst⟩
  have hLater : later.IsCalm Instant.IsPlain :=
    ⟨fun _ => rfl, fun _ => rfl, fun _ => hSecond⟩
  have hEmpty : IsEmptyRoot (.ofText "out")
      (World.ofTree []).tree := isEmptyRoot_small
  have hTree : (World.ofTree []).tree =
      (World.ofTree []).tree := rfl
  rcases versions_independent
      (smallRun (.ofText "out") (.small .small))
      [1, 0, 1, 1, 0] "a" ⟨0, 0⟩ (.small .small) hStill hLater
      rfl GeneratorSet.isProper_builtin.ordered (.empty hEmpty)
      hTree
      (fun _ _ => ⟨fun _ _ => ⟨rfl, rfl⟩,
        fun _ _ => ⟨rfl, rfl⟩⟩) with
    ⟨report, after, report', after', hRun, hRun', hSame, -⟩
  exact ⟨report, after, report', after', hRun, hRun',
    hSame fun version _ =>
      isSteadyAt_builtin _ version fun _ hPlain => hPlain⟩

/-
  While the clock stands still every generator is steady, so
  that two runs that differ in their turns report the same and
  leave the same root but for times, whatever the generators
  are. What they report of a version is what becomes of it by
  itself and next to any other generators.
-/
theorem runs_agree_of_standing
    {now : Instant}
    (plan : Plan)
    (turns : List Nat)
    (runId : String)
    (startedAt : Instant)
    (r : Registry)
    (hStands : ∀ t, told t → t = now)
    (hCalm : s.IsCalm told)
    (hCalm' : s'.IsCalm told)
    (hPublisher : plan.publisher = Publisher.directory root)
    (hOrdered : Table.IsOrdered plan.generators.table)
    (hReachable : IsReachable root w.tree)
    (hTree : w'.tree = w.tree)
    (hNames : ∀ version ∈ plan.generators.versions,
      HasFreshNames s version (w.tree.entriesAt root) 0 ∧
        HasFreshNames s' version (w.tree.entriesAt root) 0) :
    ∃ report after report' after',
      (executeOn plan runId startedAt r).run s w =
        (.ok report, after) ∧
      (executeOn { plan with turns } runId startedAt r).run s'
        w' = (.ok report', after') ∧
      report.SameButTimes report' ∧
      (after.tree.entriesAt root).SameButTimes
        (after'.tree.entriesAt root) ∧
      (report.fault = none →
        ∀ version ∈ plan.generators.versions, ∃ o,
          report.outcome? version = some o ∧
          ∀ others : GeneratorSet,
            others.table.get? version =
              plan.generators.table.get? version →
            ∃ alone,
              (process others plan.publisher r version).run s'
                w' = (.ok o, alone) ∧
              ∀ name, Owns version name →
                Option.Rel Node.SameButTimes
                  ((after.tree.entriesAt root).get? name)
                  ((alone.tree.entriesAt root).get?
                    name)) := by
  have hBundles := hReachable.hasBundles
  have hSteady : ∀ version,
      plan.generators.IsSteadyAt told r version :=
    fun version => isSteadyAt_of_standing _ r version hStands
  rcases exists_endTogether plan turns runId startedAt r hCalm
      hCalm' hPublisher hOrdered hBundles hTree hNames with
    ⟨report, after, report', after', hRun, hRun', hEnd⟩
  rcases hEnd.sameButTimes fun version _ => hSteady version
    with ⟨hReports, hTrees⟩
  refine ⟨report, after, report', after', hRun, hRun',
    hReports, hTrees, fun hFree version hMem => ?_⟩
  cases hEnd with
  | fault hFault => exact absurd hFree hFault
  | fates hFirst _ =>
      rcases exists_outcome hFirst.each hMem with
        ⟨o, hFound, hFate⟩
      refine ⟨o, hFound, fun others hOwn => ?_⟩
      rcases hFate.exists_alone hCalm' hTree hBundles
          (hNames version hMem).2 hOwn with
        ⟨single, alone, hAlone, -, hSame⟩
      rcases hSame (hSteady version) with ⟨rfl, hPlace⟩
      rw [hPublisher]
      exact ⟨alone, hAlone, hPlace⟩

end Run

end Federation
