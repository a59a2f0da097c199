import Federation.Proofs.Generation.Policy
import Federation.Proofs.Run.History

/-
  When the index of a root moves. After any history of runs,
  one more run leaves everything as it is if it is refused or
  finds a fault. Otherwise it reports the highest version that
  its policy allows, and the index names that version exactly
  if the run has completed and published it.

  Main declarations:
    * `Run.TellsIndex`
    * `Run.tellsIndex_of_completes`
    * `Run.index_follows_report`
-/

namespace Federation

namespace Run

open Publication (HasSoundRoot)

variable {s : Surroundings}
variable {root : Path}
variable {plan : Plan}
variable {report : RunReport}
variable {current : Version}
variable {w w' : World}

/- The answer to which version is current at a root. -/
def currentAt
    (s : Surroundings)
    (root : Path)
    (w : World) : Published (Option Version) :=
  ((Publication.current root).run s w).1

/-
  A report tells which version is current: the highest that
  the policy allows if it is marked, and else the version that
  was current before. Versions that it does not tell of as
  published have what they had.
-/
structure TellsIndex
    (s : Surroundings)
    (root : Path)
    (plan : Plan)
    (current : Version)
    (report : RunReport)
    (w w' : World) : Prop where
  named : report.currentVersion = some current
  highest : plan.policy.IsCurrent plan.generators current
  outcomes : report.outcomes.map VersionOutcome.version =
    plan.generators.versions
  marked : report.currentMarked = true ↔
    report.state = .completed ∧ report.Publishes current
  index : currentAt s root w' =
    if report.currentMarked then .ok (some current)
    else currentAt s root w
  kept : ∀ version, ¬report.Publishes version →
    (w'.tree.entriesAt root).get? version.display =
      (w.tree.entriesAt root).get? version.display

/- The version that is current is one of the root's entries. -/
theorem currentAt_congr
    (hFaultless : s.IsFaultless)
    (hBefore : w.tree.CanHaveRoot root)
    (hAfter : w'.tree.CanHaveRoot root)
    (hIndex :
      (w'.tree.entriesAt root).get? Publication.indexFile =
        (w.tree.entriesAt root).get? Publication.indexFile) :
    currentAt s root w' = currentAt s root w := by
  rw [currentAt, currentAt,
    Publication.current_run hFaultless hAfter,
    Publication.current_run hFaultless hBefore,
    Publication.indexed, Publication.indexed, hIndex]

theorem Completes.currentAt_eq
    (hCompletes : Completes root plan current
      (w.tree.entriesAt root) report w')
    (hFaultless : s.IsFaultless)
    (hRoot : HasSoundRoot root w.tree) :
    currentAt s root w' =
      if report.currentMarked then .ok (some current)
      else currentAt s root w := by
  have hAfter := hCompletes.hasSoundRoot hRoot.sound
  rcases hCompletes.outcome with ⟨done, hOutcome, hIndex⟩
  split at hIndex
  · rename_i hMarked
    rw [if_pos hMarked, currentAt,
      Publication.current_run hFaultless hAfter.canHave,
      hIndex.indexed_eq]
  · rename_i hUnmarked
    rw [if_neg hUnmarked]
    apply currentAt_congr hFaultless hRoot.canHave
      hAfter.canHave
    rw [hIndex, hOutcome.get?_indexFile]

theorem Completes.get?_display
    {before : Tree}
    {version : Version}
    (hCompletes : Completes root plan current before report w')
    (hNot : ¬report.Publishes version) :
    (w'.tree.entriesAt root).get? version.display =
      before.get? version.display := by
  rcases hCompletes.outcome with ⟨done, hOutcome, hIndex⟩
  have hDone := hOutcome.get?_display
    fun o hMem hSame hState => hNot ⟨o, hMem, hSame, hState⟩
  split at hIndex
  · rw [hIndex.get?_display, hDone]
  · rw [hIndex, hDone]

theorem tellsIndex_of_completes
    (hFaultless : s.IsFaultless)
    (hPlan : plan.PublishesTo root)
    (hKeyed : plan.generators.IsKeyed)
    (hRoot : HasSoundRoot root w.tree)
    (hCompletes : Completes root plan current
      (w.tree.entriesAt root) report w') :
    TellsIndex s root plan current report w w' where
  named := hCompletes.named
  highest := (VersionPolicy.current_eq_ok_iff
    hPlan.generators.ordered hKeyed).mp hCompletes.policy
  outcomes := by
    rcases hCompletes.outcome with ⟨done, hOutcome, -⟩
    exact hOutcome.map_version
  marked := hCompletes.marked
  index := hCompletes.currentAt_eq hFaultless hRoot
  kept _ hNot := hCompletes.get?_display hNot

/- A root is sound at the start and after every run. -/
theorem hasSoundRoot_of_reachable
    {plans : List Plan}
    {tree : Tree}
    (hFaultless : s.IsFaultless)
    (hInstants : ∀ step, (s.instant step).IsRepresentable)
    (hEmpty : IsEmptyRoot root tree)
    (hPlans : ∀ plan ∈ plans, plan.PublishesTo root)
    (hMem : w ∈ World.ofTree tree ::
      history s plans (World.ofTree tree)) :
    HasSoundRoot root w.tree := by
  have hFirst : HasSoundRoot root (World.ofTree tree).tree :=
    hEmpty.hasSoundRoot
  rcases List.mem_cons.mp hMem with rfl | hLater
  · exact hFirst
  · exact hasSoundRoot_history hFaultless hInstants hPlans
      hFirst w hLater

/- A run of both versions over a registry that is given. -/
def smallRun (root : Path) (r : Registry) : Plan where
  source := .done (.ok r)
  generators := .builtin
  policy := .empty
  publisher := .directory root
  turns := []

theorem publishesTo_smallRun
    (root : Path)
    (r : Registry) :
    (smallRun root r).PublishesTo root :=
  ⟨rfl, GeneratorSet.isProper_builtin, fun _ _ => rfl⟩

/- The run never fails, and tells of the second version. -/
theorem completes_smallRun
    (r : Registry)
    (hFaultless : s.IsFaultless)
    (hInstants : ∀ step, (s.instant step).IsRepresentable)
    (hRoot : HasSoundRoot root w.tree) :
    ∃ report w',
      (execute (smallRun root r)).run s w =
        (.ok report, w') ∧
      Completes root (smallRun root r) .v2
        (w.tree.entriesAt root) report w' := by
  have hDone := executeOn_completes (w := w.advance.advance)
    (s.name w.steps) (s.instant w.advance.steps) r hFaultless
    hInstants (publishesTo_smallRun root r) hRoot rfl
  exact hDone

/-
  One more run after any history of runs. An error is one of
  the registry, so that a version that has been published is
  never found missing when it is to become current. After an
  error, and after a fault, which is found exactly if the
  policy allows no version, the tree is what it was. Without
  them the report tells the index.
-/
theorem index_follows_report
    {plans : List Plan}
    {tree : Tree}
    (hFaultless : s.IsFaultless)
    (hInstants : ∀ step, (s.instant step).IsRepresentable)
    (hEmpty : IsEmptyRoot root tree)
    (hPlans : ∀ plan ∈ plans, plan.PublishesTo root)
    (hPlan : plan.PublishesTo root)
    (hKeyed : plan.generators.IsKeyed) :
    ∀ w ∈ World.ofTree tree ::
        history s plans (World.ofTree tree),
      (∀ e w', (execute plan).run s w = (.error e, w') →
        (∃ cause, e = .registry cause) ∧ w'.tree = w.tree) ∧
      ∀ report w',
        (execute plan).run s w = (.ok report, w') →
        (report.fault ≠ none →
          w'.tree = w.tree ∧
            ∀ v, ¬plan.policy.Allows plan.generators v) ∧
        (report.fault = none →
          ∃ current,
            TellsIndex s root plan current report w w') := by
  intro w hMem
  have hRoot := hasSoundRoot_of_reachable hFaultless
    hInstants hEmpty hPlans hMem
  rcases execute_cases hFaultless hInstants hPlan hRoot with
    ⟨cause, v, hRun, hTree⟩ |
    ⟨report, fault, v, hRun, hTree, hFault, hPolicy⟩ |
    ⟨report, current, v, hRun, hCompletes⟩ <;> rw [hRun]
  · constructor
    · rintro e w' hSame
      cases hSame
      exact ⟨⟨cause, rfl⟩, hTree⟩
    · rintro report w' hSame
      cases hSame
  · constructor
    · rintro e w' hSame
      cases hSame
    · rintro report w' hSame
      cases hSame
      have hNone := ((VersionPolicy.current_eq_error_iff
        hPlan.generators.ordered hKeyed).mp hPolicy).1
      refine ⟨fun _ => ⟨hTree, hNone⟩, fun hFree => ?_⟩
      rw [hFault] at hFree
      cases hFree
  · constructor
    · rintro e w' hSame
      cases hSame
    · rintro report w' hSame
      cases hSame
      exact ⟨fun hFaulty => absurd hCompletes.fault hFaulty,
        fun _ => ⟨current, tellsIndex_of_completes hFaultless
          hPlan hKeyed hRoot hCompletes⟩⟩

/- A run that follows a run in an empty tree tells the index. -/
theorem index_follows_report_small :
    ∃ w ∈ history still
        [smallRun (.ofText "out") (.small .small)]
        (World.ofTree []),
      ∃ report w',
        (execute (smallRun (.ofText "out")
          (.small .small))).run still w = (.ok report, w') ∧
        TellsIndex still (.ofText "out")
          (smallRun (.ofText "out") (.small .small)) .v2
          report w w' := by
  have hPlan := publishesTo_smallRun (.ofText "out")
    (.small .small)
  have hPlans := List.forall_mem_singleton.mpr hPlan
  have hSome : ∃ w, w ∈ history still
      [smallRun (.ofText "out") (.small .small)]
      (World.ofTree []) :=
    ⟨_, List.mem_cons_self⟩
  rcases hSome with ⟨w, hAfter⟩
  have hMem := List.mem_cons_of_mem (World.ofTree []) hAfter
  have hRoot := hasSoundRoot_of_reachable (s := still)
    (fun _ => rfl) isRepresentable_still isEmptyRoot_small hPlans
    hMem
  rcases completes_smallRun (s := still) (.small .small)
      (fun _ => rfl) isRepresentable_still hRoot with
    ⟨report, w', hRun, hCompletes⟩
  have hAll := (index_follows_report (s := still)
    (fun _ => rfl) isRepresentable_still isEmptyRoot_small hPlans
    hPlan GeneratorSet.isKeyed_builtin _ hMem).2 report w' hRun
  rcases hAll.2 hCompletes.fault with ⟨current, hTells⟩
  have hCurrent : current = .v2 := by
    have hNamed := hTells.named
    rw [hCompletes.named] at hNamed
    exact (Option.some.inj hNamed).symm
  rw [hCurrent] at hTells
  exact ⟨w, hAfter, report, w', hRun, hTells⟩

end Run

end Federation
