import Federation.Command.Generate
import Federation.Proofs.Publication.Index
import Federation.Proofs.Run.Lifecycle
import Federation.Proofs.Run.Version

/-
  What a run does below the root that it publishes to, and
  what it reports. A run is refused by its source, or it ends
  with a fault, or its report has an outcome of each version
  that tells what has become of it, and says whether the index
  has been moved.

  Main declarations:
    * `Run.Plan.PublishesTo`
    * `Run.ended_programs`
    * `Run.IsOutcome`
    * `Run.execute_cases`
-/

namespace Federation

namespace RunReport

/- The outcome of a version is that it has been published. -/
def Publishes
    (report : RunReport)
    (version : Version) : Prop :=
  ∃ o ∈ report.outcomes,
    o.version = version ∧ o.state = .published

end RunReport

namespace Run

open Program (rootFrame Awaits KeepsRoot)
open Publication
  (Owns HasSoundRoot HasBundle IsMarked IsPublished everything)

variable {s : Surroundings}
variable {root : Path}
variable {plan : Plan}
variable {w : World}

------------------------------------------------------------
-- Plans
------------------------------------------------------------

/-
  A plan is to publish below a root: with the publisher of
  the root, a proper set of generators, and a source that
  leaves the tree alone.
-/
structure Plan.PublishesTo
    (root : Path)
    (plan : Plan) : Prop where
  publisher : plan.publisher = Publisher.directory root
  generators : plan.generators.IsProper
  source : ∀ s w, (plan.source.run s w).2.tree = w.tree

/- To load a registry leaves the tree alone. -/
theorem tree_load
    (path : Path)
    (s : Surroundings)
    (w : World) :
    ((Registry.load path).run s w).2.tree = w.tree := by
  have hLoad : (Registry.load path).Behaves Operation.IsLook
      fun _ => True := by
    apply (Program.behaves_ask (.read path)).bind
    rintro (fault | content) _
    · trivial
    · trivial
  exact hLoad.tree_run s w

/- The plan of the command publishes in the output directory. -/
theorem publishesTo_plan
    {settings : Settings}
    {generators : GeneratorSet}
    (hGenerators : generators.IsProper)
    (registry output : Path) :
    (Generate.plan settings generators registry
      output).PublishesTo output :=
  ⟨rfl, hGenerators, tree_load registry⟩

/- The programs of a plan, one for each of its versions. -/
def programs
    (plan : Plan)
    (r : Registry) :
    List (Program (Except RunError VersionOutcome)) :=
  plan.generators.versions.map fun version =>
    process plan.generators plan.publisher r version

------------------------------------------------------------
-- Versions Side by Side
------------------------------------------------------------

/- The frame of what is done for a version below a root. -/
def versionFrame
    (root : Path)
    (version : Version) : Program.Frame :=
  rootFrame root (Owns version)

/- Different versions leave the names of each other alone. -/
theorem compatible_versionFrame
    {versions : List Version}
    (hNodup : versions.Nodup) :
    Program.Compatible (versionFrame root) versions := by
  apply hNodup.imp
  intro v v' hNe
  constructor
  · intro w w' hStep
    exact hStep.mono fun name hOwns hOther =>
      hNe (hOther.unique hOwns)
  · intro w w' hStep
    exact hStep.mono fun name hOwns hOther =>
      hNe (hOwns.unique hOther)

/- Altogether, they change nothing but what belongs to them. -/
theorem spans_versionFrame (versions : List Version) :
    Program.Spans (versionFrame root) versions
      (KeepsRoot root fun name =>
        ∀ version ∈ versions, ¬Owns version name) where
  refl := KeepsRoot.refl
  trans := KeepsRoot.trans
  spans version hMem _ _ hStep :=
    hStep.mono fun _ hNone => hNone version hMem

variable {r : Registry}

/-
  Each version ends as it would by itself, and what belongs to
  none of them is as before.
-/
theorem ended_programs
    (hFaultless : s.IsFaultless)
    (hInstants : ∀ step, (s.instant step).IsRepresentable)
    (hPlan : plan.PublishesTo root)
    (hRoot : HasSoundRoot root w.tree) :
    Program.AllEnded (versionFrame root)
      (fun version => Ends root version (w.tree.entriesAt root))
      plan.generators.versions w
      ((Program.interleave plan.turns
        (programs plan r)).run s w) := by
  apply Program.interleave_safely plan.turns
    (compatible_versionFrame hPlan.generators.nodup_versions)
  rw [Program.AllSafely, programs,
    List.forall₂_map_right_iff, List.forall₂_same,
    hPlan.publisher]
  intro version _
  exact safely_process hFaultless hInstants
    hPlan.generators.forms (hRoot.sound.settled version)
    ⟨hRoot.canHave, fun _ _ => rfl⟩

/-
  The outcomes of a run tell what there is below its root once
  all of its versions are done.
-/
structure IsOutcome
    (root : Path)
    (versions : List Version)
    (before : Tree)
    (outcomes : List VersionOutcome)
    (w : World) : Prop where
  canHave : w.tree.CanHaveRoot root
  others : Tree.AgreeOn
    (fun name => ∀ version ∈ versions, ¬Owns version name)
    (w.tree.entriesAt root) before
  each : List.Forall₂
    (fun version o => EndsIn root version before o w)
    versions outcomes

theorem exists_isOutcome
    (hFaultless : s.IsFaultless)
    (hInstants : ∀ step, (s.instant step).IsRepresentable)
    (hPlan : plan.PublishesTo root)
    (hRoot : HasSoundRoot root w.tree) :
    ∃ outcomes,
      ((Program.interleave plan.turns
        (programs plan r)).run s w).1.mapM id = .ok outcomes ∧
      IsOutcome root plan.generators.versions
        (w.tree.entriesAt root) outcomes
        ((Program.interleave plan.turns
          (programs plan r)).run s w).2 := by
  have hEnded := ended_programs (r := r) hFaultless hInstants
    hPlan hRoot
  have hWhole := hEnded.1 _ (spans_versionFrame _)
  rcases exists_outcomes hEnded.2 with ⟨outcomes, hAll, hEach⟩
  exact ⟨outcomes, hAll, hWhole.canHave hRoot.canHave,
    hWhole.agree, hEach⟩

namespace IsOutcome

variable {versions : List Version}
variable {before : Tree}
variable {outcomes : List VersionOutcome}

theorem map_version
    (hOutcome : IsOutcome root versions before outcomes w) :
    outcomes.map VersionOutcome.version = versions := by
  have hEach := hOutcome.each
  clear hOutcome
  induction hEach with
  | nil => rfl
  | cons hFirst _ ih => rw [List.map_cons, hFirst.concerns, ih]

theorem exists_of_mem
    {version : Version}
    (hOutcome : IsOutcome root versions before outcomes w)
    (hMem : version ∈ versions) :
    ∃ o ∈ outcomes, EndsIn root version before o w := by
  have hEach := hOutcome.each
  clear hOutcome
  induction hEach with
  | nil => cases hMem
  | cons hFirst _ ih =>
      rcases List.mem_cons.mp hMem with rfl | hLater
      · exact ⟨_, List.mem_cons_self, hFirst⟩
      · rcases ih hLater with ⟨o, hOther, hEnds⟩
        exact ⟨o, List.mem_cons_of_mem _ hOther, hEnds⟩

theorem endsIn_of_mem
    {o : VersionOutcome}
    (hOutcome : IsOutcome root versions before outcomes w)
    (hMem : o ∈ outcomes) :
    EndsIn root o.version before o w :=
  of_mem_outcomes (fun _ _ hEnds => hEnds.concerns)
    hOutcome.each hMem

/- A sound root is sound when all the versions are done. -/
theorem hasSoundRoot
    (hOutcome : IsOutcome root versions before outcomes w)
    (hSound : Publication.IsSound before) :
    HasSoundRoot root w.tree := by
  refine ⟨hOutcome.canHave,
    hSound.of_settled ?_ hOutcome.others⟩
  intro version hMem
  rcases hOutcome.exists_of_mem hMem with ⟨o, -, hEnds⟩
  have hKept := hEnds.keepsSettled (hSound.settled version)
  exact ⟨hKept.settled, hKept.kept⟩

/- A version that has been published has a directory. -/
theorem hasBundle
    {o : VersionOutcome}
    (hOutcome : IsOutcome root versions before outcomes w)
    (hMem : o ∈ outcomes)
    (hState : o.state = .published) :
    HasBundle o.version (w.tree.entriesAt root) := by
  rcases (hOutcome.endsIn_of_mem hMem).published hState with
    ⟨entries, hTracks, -, files, hFiles⟩
  exact ⟨files, (hTracks.agree _ .bundle).trans hFiles⟩

/- What is not published is left as it was. -/
theorem get?_display
    {version : Version}
    (hOutcome : IsOutcome root versions before outcomes w)
    (hNot : ∀ o ∈ outcomes, o.version = version →
      o.state ≠ .published) :
    (w.tree.entriesAt root).get? version.display =
      before.get? version.display := by
  by_cases hMem : version ∈ versions
  · rcases hOutcome.exists_of_mem hMem with ⟨o, hOther, hEnds⟩
    exact (hEnds.kept (hNot o hOther hEnds.concerns)).agree _
      .bundle
  · refine hOutcome.others _ fun other hOther hOwns => ?_
    exact hMem (hOwns.unique .bundle ▸ hOther)

/- The index belongs to no version. -/
theorem get?_indexFile
    (hOutcome : IsOutcome root versions before outcomes w) :
    (w.tree.entriesAt root).get? Publication.indexFile =
      before.get? Publication.indexFile :=
  hOutcome.others _ fun version _ hOwns =>
    Publication.not_owns_index version (Or.inl rfl) hOwns

end IsOutcome

------------------------------------------------------------
-- Moving the Index
------------------------------------------------------------

/- What is done at the end of a run that moves the index. -/
theorem conclude_marked
    {publisher : Publisher}
    {state : RunState}
    {current : Version}
    {outcomes : List VersionOutcome}
    {marked : World}
    (hState : state = .completed)
    (hPublished : ∃ o ∈ outcomes,
      o.version = current ∧ o.state = .published)
    (hMark : (publisher.markCurrent current).run s w =
      (.ok (), marked)) :
    (conclude publisher state current outcomes).run s w =
      (.ok true, marked) := by
  have hAny : (outcomes.any fun o =>
      o.version = current && o.state = .published) = true := by
    simpa using hPublished
  rw [conclude]
  simp only [hState, hAny, and_self, if_true]
  rw [Program.run_bind_eq, hMark]
  rfl

theorem conclude_unmarked
    {publisher : Publisher}
    {state : RunState}
    {current : Version}
    {outcomes : List VersionOutcome}
    (hNot : ¬(state = .completed ∧ ∃ o ∈ outcomes,
      o.version = current ∧ o.state = .published)) :
    (conclude publisher state current outcomes).run s w =
      (.ok false, w) := by
  have hAny : ¬(state = .completed ∧ (outcomes.any fun o =>
      o.version = current && o.state = .published) = true) := by
    simpa using hNot
  rw [conclude]
  simp only [hAny, if_false]
  rfl

------------------------------------------------------------
-- Runs
------------------------------------------------------------

/- A run that reports on all of its versions. -/
structure Completes
    (root : Path)
    (plan : Plan)
    (current : Version)
    (before : Tree)
    (report : RunReport)
    (w : World) : Prop where
  policy : plan.policy.current plan.generators = .ok current
  fault : report.fault = none
  named : report.currentVersion = some current
  marked : report.currentMarked = true ↔
    report.state = .completed ∧ report.Publishes current
  outcome : ∃ done,
    IsOutcome root plan.generators.versions before
      report.outcomes done ∧
    if report.currentMarked then
      IsMarked root current (done.tree.entriesAt root) w
    else w.tree = done.tree

theorem executeOn_of_fault
    {fault : PolicyFault}
    (runId : String)
    (startedAt : Instant)
    (r : Registry)
    (hPolicy : plan.policy.current plan.generators =
      .error fault) :
    (executeOn plan runId startedAt r).run s w =
      (.ok
        { runId, startedAt
          finishedAt := s.instant w.steps
          state := .completed
          currentVersion := none
          currentMarked := false
          fault := some fault
          outcomes := [] },
        w.advance) := by
  rw [executeOn, hPolicy]
  rfl

/- How a run ends whose versions are done in a world. -/
def stateAfter (s : Surroundings) (done : World) : RunState :=
  if s.isCancelled done.checks then .cancelled else .completed

/- A world after the flag has been asked for once more. -/
def asked (w : World) : World :=
  { w.advance with checks := w.checks + 1 }

/-
  A run reports what its versions end in, unless the index is
  to be moved at its end and cannot be.
-/
theorem run_executeOn
    {current : Version}
    {results : List (Except RunError VersionOutcome)}
    {outcomes : List VersionOutcome}
    {done : World}
    (runId : String)
    (startedAt : Instant)
    (r : Registry)
    (hPolicy : plan.policy.current plan.generators =
      .ok current)
    (hEnded : (Program.interleave plan.turns
      (programs plan r)).run s w = (results, done))
    (hAll : results.mapM id = .ok outcomes) :
    (executeOn plan runId startedAt r).run s w =
      match (conclude plan.publisher (stateAfter s done) current
        outcomes).run s (asked done) with
      | (.error e, last) => (.error e, last)
      | (.ok currentMarked, last) =>
          (.ok
            { runId, startedAt
              finishedAt := s.instant last.steps
              state := stateAfter s done
              currentVersion := some current
              currentMarked
              fault := none
              outcomes },
            last.advance) := by
  rw [programs] at hEnded
  have hFlag : Program.isCancelled.run s done =
      (s.isCancelled done.checks, asked done) := rfl
  rw [executeOn, hPolicy]
  dsimp only
  rw [Program.run_bind_eq, hEnded]
  dsimp only
  rw [hAll]
  dsimp only
  rw [Program.run_bind_eq, hFlag]
  dsimp only
  rw [Program.run_bind_eq, stateAfter]
  generalize (conclude plan.publisher _ current outcomes).run s
    (asked done) = ended
  rcases ended with ⟨_ | _, _⟩ <;> rfl

theorem executeOn_eq
    {current : Version}
    {results : List (Except RunError VersionOutcome)}
    {outcomes : List VersionOutcome}
    {marked : Bool}
    {done last : World}
    (runId : String)
    (startedAt : Instant)
    (r : Registry)
    (hPolicy : plan.policy.current plan.generators =
      .ok current)
    (hEnded : (Program.interleave plan.turns
      (programs plan r)).run s w = (results, done))
    (hAll : results.mapM id = .ok outcomes)
    (hConclude : (conclude plan.publisher (stateAfter s done)
      current outcomes).run s (asked done) =
        (.ok marked, last)) :
    (executeOn plan runId startedAt r).run s w =
      (.ok
        { runId, startedAt
          finishedAt := s.instant last.steps
          state := stateAfter s done
          currentVersion := some current
          currentMarked := marked
          fault := none
          outcomes },
        last.advance) := by
  rw [run_executeOn runId startedAt r hPolicy hEnded hAll,
    hConclude]

theorem executeOn_completes
    {current : Version}
    (runId : String)
    (startedAt : Instant)
    (r : Registry)
    (hFaultless : s.IsFaultless)
    (hInstants : ∀ step, (s.instant step).IsRepresentable)
    (hPlan : plan.PublishesTo root)
    (hRoot : HasSoundRoot root w.tree)
    (hPolicy : plan.policy.current plan.generators =
      .ok current) :
    ∃ report w',
      (executeOn plan runId startedAt r).run s w =
        (.ok report, w') ∧
      Completes root plan current (w.tree.entriesAt root)
        report w' := by
  rcases exists_isOutcome (r := r) hFaultless hInstants hPlan
    hRoot with ⟨outcomes, hAll, hOutcome⟩
  rcases hEnded : (Program.interleave plan.turns
    (programs plan r)).run s w with ⟨results, done⟩
  rw [hEnded] at hAll hOutcome
  dsimp only at hAll hOutcome
  have hAsked : HasSoundRoot root (asked done).tree :=
    hOutcome.hasSoundRoot hRoot.sound
  by_cases hMark : stateAfter s done = .completed ∧
    ∃ o ∈ outcomes, o.version = current ∧ o.state = .published
  · rcases hMark with ⟨hState, hPublished⟩
    have hThere : HasBundle current
        ((asked done).tree.entriesAt root) := by
      rcases hPublished with ⟨o, hMem, rfl, hDone⟩
      exact hOutcome.hasBundle hMem hDone
    have hSafe : (Publication.markCurrent root
        current).Safely s (rootFrame root everything)
          (asked done) _ :=
      Publication.safely_markCurrent hFaultless hInstants
        hAsked.sound ⟨hAsked.canHave, fun _ _ => rfl⟩
    rcases hSafe.run.2 _ (KeepsRoot.refl _) with
      ⟨-, hOk, hIndex⟩ | ⟨hMissing, -⟩
    · have hMarked : (plan.publisher.markCurrent current).run s
          (asked done) = (.ok (), ((Publication.markCurrent
            root current).run s (asked done)).2) := by
        rw [hPlan.publisher]
        exact Prod.ext hOk rfl
      have hConclude := conclude_marked hState hPublished
        hMarked
      refine ⟨_, _, executeOn_eq runId startedAt r hPolicy
        hEnded hAll hConclude, hPolicy, rfl, rfl,
        iff_of_true rfl ⟨hState, hPublished⟩, done, hOutcome,
        ?_⟩
      exact hIndex.of_rely (KeepsRoot.of_tree rfl)
    · exact absurd hThere hMissing
  · refine ⟨_, _, executeOn_eq runId startedAt r hPolicy
      hEnded hAll (conclude_unmarked hMark), hPolicy, rfl, rfl,
      iff_of_false Bool.false_ne_true hMark, done, hOutcome,
      ?_⟩
    rfl

/- A run goes on with what its source gives, if it gives any. -/
theorem run_execute
    (s : Surroundings)
    (plan : Plan)
    (w : World) :
    (execute plan).run s w =
      match plan.source.run s w.advance.advance with
      | (.error cause, v) => (.error (.registry cause), v)
      | (.ok r, v) =>
          (executeOn plan (s.name w.steps)
            (s.instant w.advance.steps) r).run s v := by
  change (plan.source.bind _).run s w.advance.advance = _
  rw [Program.run_bind]
  rcases plan.source.run s w.advance.advance with
    ⟨_ | _, _⟩ <;> rfl

/-
  A run is refused by its source, finds a fault, or reports on
  all of its versions. In no other way does it end.
-/
theorem execute_cases
    (hFaultless : s.IsFaultless)
    (hInstants : ∀ step, (s.instant step).IsRepresentable)
    (hPlan : plan.PublishesTo root)
    (hRoot : HasSoundRoot root w.tree) :
    (∃ cause w', (execute plan).run s w =
        (.error (.registry cause), w') ∧ w'.tree = w.tree) ∨
    (∃ report fault w', (execute plan).run s w =
        (.ok report, w') ∧ w'.tree = w.tree ∧
      report.fault = some fault ∧
      plan.policy.current plan.generators = .error fault) ∨
    ∃ report current w', (execute plan).run s w =
        (.ok report, w') ∧
      Completes root plan current (w.tree.entriesAt root)
        report w' := by
  have hTree := hPlan.source s w.advance.advance
  rw [run_execute]
  rcases hSource : plan.source.run s w.advance.advance with
    ⟨answer, v⟩
  rw [hSource] at hTree
  have hSame : v.tree = w.tree := hTree
  cases answer with
  | error cause => exact Or.inl ⟨cause, v, rfl, hSame⟩
  | ok r =>
      right
      cases hPolicy : plan.policy.current plan.generators with
      | error fault =>
          exact Or.inl ⟨_, fault, _,
            executeOn_of_fault (s.name w.steps)
              (s.instant w.advance.steps) r hPolicy, hSame,
            rfl, rfl⟩
      | ok current =>
          rw [← hSame] at hRoot ⊢
          rcases executeOn_completes (s.name w.steps)
              (s.instant w.advance.steps) r hFaultless
              hInstants hPlan hRoot hPolicy with
            ⟨report, w', hDone, hCompletes⟩
          exact Or.inr ⟨report, current, w', hDone, hCompletes⟩

end Run

end Federation
