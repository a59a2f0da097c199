import Federation.Proofs.Run.CurrentVersion
import Federation.Proofs.Run.Lifecycle

/-
  The reports of runs, whatever the runs are answered: with
  any registry, generators, policy and publisher, in any
  surroundings. A report has an outcome of each version, or a
  fault and no outcome at all.

  Main declarations:
    * `RunReport.IsWellFormed`
    * `Run.IsProperResult`
    * `Run.behaves_execute`
    * `Run.report_isWellFormed`
-/

namespace Federation

------------------------------------------------------------
-- Reports
------------------------------------------------------------

/-
  A report without a fault has a well-formed outcome of each
  version, and one with a fault has none, nor a version that
  is current.
-/
structure RunReport.IsWellFormed
    (versions : List Version)
    (report : RunReport) : Prop where
  versions : report.fault = none →
    report.outcomes.map VersionOutcome.version = versions
  outcomes : ∀ o ∈ report.outcomes, o.IsWellFormed
  faulty : report.fault ≠ none →
    report.outcomes = [] ∧ report.currentVersion = none ∧
      report.currentMarked = false

namespace Run

variable {plan : Plan}
variable {s : Surroundings}
variable {w : World}

/-
  A run has a well-formed report, or it is refused by its
  registry or its publisher.
-/
inductive IsProperResult
    (versions : List Version) :
    Except RunError RunReport → Prop
| report
    {report : RunReport}
    (hFormed : report.IsWellFormed versions) :
    IsProperResult versions (.ok report)
| registry (cause : RegistryError) :
    IsProperResult versions (.error (.registry cause))
| publication (cause : PublicationError) :
    IsProperResult versions (.error (.publication cause))

theorem behaves_conclude
    (publisher : Publisher)
    (state : RunState)
    (current : Version)
    (outcomes : List VersionOutcome) :
    (conclude publisher state current outcomes).Behaves
      (fun _ => True)
      fun a => ∀ e, a = .error e →
        ∃ cause, e = .publication cause := by
  rw [conclude]
  split
  · apply (Program.behaves_any _).bind
    intro a _
    cases a with
    | ok _ =>
        intro e hError
        cases hError
    | error cause =>
        intro e hError
        cases hError
        exact ⟨cause, rfl⟩
  · intro e hError
    cases hError

/- Each of the versions of a plan ends in a terminal state. -/
theorem behaves_versions
    (plan : Plan)
    (r : Registry) :
    Program.AllBehave (fun _ => True) IsSettled
      plan.generators.versions
      (plan.generators.versions.map fun version =>
        process plan.generators plan.publisher r version) := by
  rw [Program.AllBehave, List.forall₂_map_right_iff,
    List.forall₂_same]
  intro version _
  exact behaves_process trivial trivial
    fun b _ => Program.behaves_any _

theorem behaves_executeOn
    (plan : Plan)
    (runId : String)
    (startedAt : Instant)
    (r : Registry) :
    (executeOn plan runId startedAt r).Behaves
      (fun _ => True)
      (IsProperResult plan.generators.versions) := by
  rw [executeOn]
  cases plan.policy.current plan.generators with
  | error fault =>
      apply (Program.behaves_any Program.now).bind
      intro finishedAt _
      refine .report
        ⟨fun hFree => ?_, ?_, fun _ => ⟨rfl, rfl, rfl⟩⟩
      · cases hFree
      · exact List.forall_mem_nil _
  | ok current =>
      apply (Program.behaves_interleave plan.turns
        (behaves_versions plan r)).bind
      intro results hResults
      have hEach := hResults.imp
        fun _ _ hSettled => hSettled.exists_isWellFormed
      rcases exists_outcomes hEach with
        ⟨outcomes, hOutcomes, hAll⟩
      rw [hOutcomes]
      apply (Program.behaves_any Program.isCancelled).bind
      intro isCancelled _
      apply (behaves_conclude _ _ _ _).bind
      intro a hError
      cases a with
      | error e =>
          rcases hError e rfl with ⟨cause, rfl⟩
          exact .publication cause
      | ok marked =>
          apply (Program.behaves_any Program.now).bind
          intro finishedAt _
          have hOutcome := isWellFormed_of_outcomes hAll
          exact .report ⟨fun _ => hOutcome.1, hOutcome.2,
            fun hFault => absurd rfl hFault⟩

theorem behaves_execute (plan : Plan) :
    (execute plan).Behaves (fun _ => True)
      (IsProperResult plan.generators.versions) := by
  apply (Program.behaves_any Program.freshName).bind
  intro runId _
  apply (Program.behaves_any Program.now).bind
  intro startedAt _
  apply (Program.behaves_any plan.source).bind
  intro a _
  cases a with
  | error cause => exact .registry cause
  | ok r => exact behaves_executeOn plan runId startedAt r

/-
  Every run, with whatever registry, generators, policy and
  publisher, and in whatever surroundings: it never finds a
  state that may not follow the one before. Its report has
  one outcome of each version, in ascending order, and each
  outcome is well formed; or it has a fault and no outcome,
  and no version is current in it.
-/
theorem report_isWellFormed
    (hOrdered : Table.IsOrdered plan.generators.table) :
    (∀ version old new,
      ((execute plan).run s w).1 ≠
        .error (.transition version old new)) ∧
    ∀ report, ((execute plan).run s w).1 = .ok report →
      (report.fault = none →
        report.outcomes.map VersionOutcome.version =
            plan.generators.versions ∧
          plan.generators.versions.Pairwise (· < ·) ∧
          ∀ o ∈ report.outcomes, o.IsWellFormed) ∧
      (report.fault ≠ none →
        report.outcomes = [] ∧
          report.currentVersion = none ∧
          report.currentMarked = false) := by
  have hProper := (behaves_execute plan).run (s := s) w
  constructor
  · intro version old new hError
    rw [hError] at hProper
    cases hProper
  · intro report hReport
    rw [hReport] at hProper
    cases hProper with
    | report hFormed =>
        refine ⟨fun hFree => ?_, hFormed.faulty⟩
        exact ⟨hFormed.versions hFree,
          List.pairwise_map.mpr hOrdered, hFormed.outcomes⟩

/- The run of both versions has a report without a fault. -/
theorem report_isWellFormed_small :
    ∃ report,
      ((execute (smallRun (.ofText "out")
        (.small .small))).run still (World.ofTree [])).1 =
        .ok report ∧
      report.fault = none ∧
      report.outcomes.map VersionOutcome.version =
        [.v1, .v2] ∧
      ∀ o ∈ report.outcomes, o.IsWellFormed := by
  have hRoot : Publication.HasSoundRoot (.ofText "out")
      (World.ofTree []).tree :=
    isEmptyRoot_small.hasSoundRoot
  rcases completes_smallRun (s := still) (.small .small)
      (fun _ => rfl) isRepresentable_still hRoot with
    ⟨report, w', hRun, hCompletes⟩
  have hReport :
      ((execute (smallRun (.ofText "out")
        (.small .small))).run still (World.ofTree [])).1 =
        .ok report := by
    rw [hRun]
  have hFormed := (report_isWellFormed (s := still)
    (w := World.ofTree [])
    GeneratorSet.isProper_builtin.ordered).2 report hReport
  rcases hFormed.1 hCompletes.fault with
    ⟨hVersions, -, hOutcomes⟩
  exact ⟨report, hReport, hCompletes.fault, hVersions,
    hOutcomes⟩

end Run

end Federation
