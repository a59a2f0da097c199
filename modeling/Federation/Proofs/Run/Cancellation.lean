import Federation.Proofs.Publication.Confined
import Federation.Proofs.Run.Independence
import Federation.Proofs.Storage.Turns

/-
  Runs that are cancelled, at any moment and whatever fails.
  A version is abandoned only if the flag has been found set
  before anything is done for it; every other version ends as
  it does when nobody cancels, and the index of a run that is
  cancelled is left as it was.

  Main declarations:
    * `Surroundings.uncancelled`
    * `Run.ChecksStart`
    * `Run.HeedsFlag`
    * `Run.heeded_programs`
    * `Run.exists_segment`
    * `Run.exists_turns_uncancelled`
    * `Run.cancellation_isSafe`
-/

namespace Federation

------------------------------------------------------------
-- Flags
------------------------------------------------------------

/- A flag that is set stays set. -/
theorem Surroundings.KeepsCancelled.later
    {s : Surroundings}
    {first second : Nat}
    (hKeeps : s.KeepsCancelled)
    (hLater : first ≤ second)
    (hSet : s.isCancelled first = true) :
    s.isCancelled second = true := by
  induction hLater with
  | refl => exact hSet
  | step _ ih => exact hKeeps _ ih

/- The same surroundings, but nobody sets the flag. -/
def Surroundings.uncancelled
    (s : Surroundings) : Surroundings :=
  { s with isCancelled := fun _ => false }

theorem Surroundings.keepsCancelled_uncancelled
    (s : Surroundings) :
    s.uncancelled.KeepsCancelled :=
  fun _ hSet => hSet

/- All but the flag is answered alike. -/
theorem World.perform_uncancelled
    (s : Surroundings)
    (w : World)
    {operation : Operation}
    (hOther : operation ≠ .isCancelled) :
    w.perform s.uncancelled operation =
      w.perform s operation := by
  cases operation with
  | isCancelled => exact absurd rfl hOther
  | _ => rfl

/- What does not ask for the flag is the same without it. -/
theorem Program.Behaves.run_uncancelled
    {α : Type}
    {p : Program α}
    {post : α → Prop}
    (hUnasked : p.Behaves (· ≠ .isCancelled) post)
    (s : Surroundings)
    (w : World) :
    p.run s.uncancelled w = p.run s w := by
  induction p generalizing w with
  | done a => rfl
  | step operation next ih =>
      rw [Program.run, Program.run,
        World.perform_uncancelled s w hUnasked.1]
      exact ih _ (hUnasked.2 _) _

namespace Run

open Program (Safely confinedFrame takeTurns)
open Publication (Owns HasFreshNames indexFile)

variable {s : Surroundings}
variable {root : Path}
variable {plan : Plan}
variable {publisher : Publisher}
variable {generators : GeneratorSet}
variable {r : Registry}
variable {version : Version}
variable {before : Tree}
variable {o : VersionOutcome}
variable {outcomes : List VersionOutcome}
variable {w : World}

------------------------------------------------------------
-- Versions
------------------------------------------------------------

/- A version is abandoned where the flag is set. -/
theorem run_process_of_flag
    (hSet : s.isCancelled w.checks = true) :
    (process generators publisher r version).run s w =
      (.ok (abandoned version), asked w) := by
  have hFlag : Program.isCancelled.run s w =
      (true, asked w) :=
    Prod.ext hSet rfl
  rw [process_eq, Program.run_bind, hFlag]
  rfl

/- Where it is not set, the version is started. -/
theorem run_process_of_no_flag
    (hUnset : s.isCancelled w.checks = false) :
    (process generators publisher r version).run s w =
      (generateVersion generators publisher r
        (started version)).run s (asked w) := by
  have hFlag : Program.isCancelled.run s w =
      (false, asked w) :=
    Prod.ext hUnset rfl
  rw [process_eq, Program.run_bind, hFlag]
  rfl

/- What is started works under the names of its version. -/
theorem behaves_started
    (root : Path)
    (generators : GeneratorSet)
    (r : Registry)
    (version : Version) :
    (generateVersion generators (Publisher.directory root) r
        (started version)).Behaves
      (Operation.IsWithin root (Owns version))
      (IsDecided version) := by
  apply behaves_generateVersion (o := started version) .now ?_
    rfl ⟨rfl, rfl⟩ rfl
  rintro b rfl
  exact Publication.behaves_publish root b

/- What is done under some names does not ask for the flag. -/
theorem unasked_of_isWithin
    {names : String → Prop}
    (operation : Operation)
    (hWithin : operation.IsWithin root names) :
    operation ≠ .isCancelled := by
  rintro rfl
  cases hWithin

/- What is started does not ask for the flag again. -/
theorem unasked_started
    (root : Path)
    (generators : GeneratorSet)
    (r : Registry)
    (version : Version) :
    (generateVersion generators (Publisher.directory root) r
        (started version)).Behaves
      (· ≠ .isCancelled) (IsDecided version) :=
  (behaves_started root generators r version).mono
    unasked_of_isWithin fun _ hDecided => hDecided

/-
  A version asks for the flag before anything else. It is
  abandoned and nothing is done for it if the flag is set. If
  not, it never asks again, and it ends published or rejected
  whatever its operations are answered.
-/
def ChecksStart
    (version : Version)
    (p : Program (Except RunError VersionOutcome)) : Prop :=
  ∃ rest : Program (Except RunError VersionOutcome),
    (p = .step .isCancelled fun isSet : Bool =>
      if isSet then .done (.ok (abandoned version)) else rest) ∧
    rest.Behaves (· ≠ .isCancelled) (IsDecided version)

theorem checksStart_process
    (root : Path)
    (generators : GeneratorSet)
    (r : Registry)
    (version : Version) :
    ChecksStart version
      (process generators (Publisher.directory root) r
        version) :=
  ⟨_, rfl, unasked_started root generators r version⟩

/-
  An outcome, of a version that is abandoned only if the flag
  is set and what belongs to it is as before.
-/
structure HeedsFlag
    (s : Surroundings)
    (root : Path)
    (before : Tree)
    (version : Version)
    (o : VersionOutcome)
    (w : World) : Prop where
  concerns : o.version = version
  formed : o.IsWellFormed
  abandoned : o.state = .abandoned →
    s.isCancelled w.checks = true ∧
      Tree.AgreeOn (Owns version) (w.tree.entriesAt root)
        before

theorem safely_heedsFlag
    (hKeeps : s.KeepsCancelled)
    (hBefore : Tree.AgreeOn (Owns version)
      (w.tree.entriesAt root) before) :
    (process generators (Publisher.directory root) r
        version).Safely s (confinedFrame root (Owns version)) w
      fun result w => ∃ o, result = .ok o ∧
        HeedsFlag s root before version o w := by
  rw [process_eq]
  intro v hRely
  refine ⟨⟨Nat.le_succ _, fun _ _ => rfl⟩, ?_⟩
  cases hFlag : s.isCancelled v.checks with
  | true =>
      have hStep : (v.perform s .isCancelled).1 = true := hFlag
      rw [hStep]
      intro v' hLater
      refine ⟨_, rfl, rfl,
        VersionOutcome.isWellFormed_abandoned version,
        fun _ => ⟨?_, ?_⟩⟩
      · have hLess : v.checks ≤ v'.checks :=
          Nat.le_trans (Nat.le_succ _) hLater.1
        exact hKeeps.later hLess hFlag
      · intro name hOwns
        exact (hLater.2 name hOwns).trans
          ((hRely.2 name hOwns).trans (hBefore name hOwns))
  | false =>
      have hStep : (v.perform s .isCancelled).1 = false :=
        hFlag
      rw [hStep]
      refine ((behaves_started root generators r
        version).safely _).mono ?_
      rintro result v' ⟨o, rfl, hConcerns, hFormed, hState⟩
      exact ⟨o, rfl, hConcerns, hFormed,
        fun hAbandoned => absurd hAbandoned hState⟩

------------------------------------------------------------
-- All Versions
------------------------------------------------------------

/- Different versions leave the names of each other alone. -/
theorem compatible_confinedFrame
    {versions : List Version}
    (hNodup : versions.Nodup) :
    Program.Compatible
      (fun version => confinedFrame root (Owns version))
      versions := by
  apply hNodup.imp
  intro v v' hNe
  constructor
  · intro w w' hStep
    exact ⟨hStep.1, fun name hOwns =>
      hStep.2 name fun hOther => hNe (hOther.unique hOwns)⟩
  · intro w w' hStep
    exact ⟨hStep.1, fun name hOwns =>
      hStep.2 name fun hOther => hNe (hOwns.unique hOther)⟩

/- What belongs to none of them is left alone by all of them. -/
theorem spans_confinedFrame (versions : List Version) :
    Program.Spans
      (fun version => confinedFrame root (Owns version))
      versions
      fun w w' => Tree.AgreeOn
        (fun name => ∀ version ∈ versions, ¬Owns version name)
        (w'.tree.entriesAt root) (w.tree.entriesAt root) where
  refl _ := fun _ _ => rfl
  trans hFirst hSecond := fun name hName =>
    (hSecond name hName).trans (hFirst name hName)
  spans version hMem _ _ hStep := fun name hNone =>
    hStep.2 name (hNone version hMem)

/- What there is once all versions have heeded the flag. -/
structure HaveHeeded
    (s : Surroundings)
    (root : Path)
    (versions : List Version)
    (before : Tree)
    (outcomes : List VersionOutcome)
    (w : World) : Prop where
  others : Tree.AgreeOn
    (fun name => ∀ version ∈ versions, ¬Owns version name)
    (w.tree.entriesAt root) before
  each : List.Forall₂
    (fun version o => HeedsFlag s root before version o w)
    versions outcomes

theorem heeded_programs
    (plan : Plan)
    (r : Registry)
    (w : World)
    (hKeeps : s.KeepsCancelled)
    (hPublisher : plan.publisher = Publisher.directory root)
    (hOrdered : Table.IsOrdered plan.generators.table) :
    ∃ outcomes,
      ((Program.interleave plan.turns
        (programs plan r)).run s w).1.mapM id = .ok outcomes ∧
      HaveHeeded s root plan.generators.versions
        (w.tree.entriesAt root) outcomes
        ((Program.interleave plan.turns
          (programs plan r)).run s w).2 := by
  have hNodup : plan.generators.versions.Nodup :=
    hOrdered.nodup_keys
  have hEnded : Program.AllEnded
      (fun version => confinedFrame root (Owns version))
      (fun version result v => ∃ o, result = .ok o ∧
        HeedsFlag s root (w.tree.entriesAt root) version o v)
      plan.generators.versions w
      ((Program.interleave plan.turns
        (programs plan r)).run s w) := by
    apply Program.interleave_safely plan.turns
      (compatible_confinedFrame hNodup)
    rw [Program.AllSafely, programs,
      List.forall₂_map_right_iff, List.forall₂_same,
      hPublisher]
    intro version _
    exact safely_heedsFlag hKeeps fun _ _ => rfl
  have hWhole := hEnded.1 _ (spans_confinedFrame _)
  rcases exists_outcomes hEnded.2 with ⟨outcomes, hAll, hEach⟩
  exact ⟨outcomes, hAll, hWhole, hEach⟩

------------------------------------------------------------
-- One after the Other
------------------------------------------------------------

/- The programs of some versions. -/
def versionPrograms
    (generators : GeneratorSet)
    (publisher : Publisher)
    (r : Registry)
    (versions : List Version) :
    List (Program (Except RunError VersionOutcome)) :=
  versions.map fun version =>
    process generators publisher r version

/- Once the flag is set, all versions to come are abandoned. -/
theorem run_sequence_of_flag
    (versions : List Version)
    (hKeeps : s.KeepsCancelled)
    (hSet : s.isCancelled w.checks = true) :
    ((Program.sequence (versionPrograms generators publisher r
        versions)).run s w).1 =
      versions.map fun version => .ok (abandoned version) := by
  induction versions generalizing w with
  | nil => rfl
  | cons version versions ih =>
      rw [versionPrograms, List.map_cons, Program.sequence,
        Program.run_bind, Program.run_bind,
        run_process_of_flag hSet]
      have hLater : s.isCancelled (asked w).checks = true :=
        hKeeps _ hSet
      exact congrArg (Except.ok (abandoned version) :: ·)
        (ih hLater)

/- While it is not, the first of them is started. -/
theorem run_sequence_of_no_flag
    (root : Path)
    (generators : GeneratorSet)
    (r : Registry)
    (version : Version)
    (versions : List Version)
    (hUnset : s.isCancelled w.checks = false) :
    ∃ o v, o.state ≠ .abandoned ∧
      (asked w).checks ≤ v.checks ∧
      (generateVersion generators (Publisher.directory root) r
        (started version)).run s (asked w) = (.ok o, v) ∧
      ((Program.sequence (versionPrograms generators
        (Publisher.directory root) r
        (version :: versions))).run s w).1 =
          .ok o :: ((Program.sequence (versionPrograms
            generators (Publisher.directory root) r
            versions)).run s v).1 := by
  have hSafe := (behaves_started root generators r
    version).safely (s := s) (asked w)
  rcases hSafe.run with ⟨⟨hChecks, -⟩, hEnded⟩
  rcases hEnded _ (Program.Frame.rely_refl _ _) with
    ⟨o, hResult, -, -, hState⟩
  refine ⟨o, _, hState, hChecks, Prod.ext hResult rfl, ?_⟩
  rw [versionPrograms, List.map_cons, Program.sequence,
    Program.run_bind, Program.run_bind,
    run_process_of_no_flag hUnset, hResult]
  rfl

/-
  Of versions that follow one after the other, those that are
  abandoned are the last ones.
-/
theorem exists_segment
    (root : Path)
    (generators : GeneratorSet)
    (r : Registry)
    (versions : List Version)
    (w : World)
    (hKeeps : s.KeepsCancelled) :
    ∃ lower upper : List VersionOutcome,
      ((Program.sequence (versionPrograms generators
        (Publisher.directory root) r versions)).run s w).1 =
          (lower ++ upper).map .ok ∧
      (∀ o ∈ lower, o.state ≠ .abandoned) ∧
      ∀ o ∈ upper, o.state = .abandoned := by
  induction versions generalizing w with
  | nil =>
      exact ⟨[], [], rfl, List.forall_mem_nil _,
        List.forall_mem_nil _⟩
  | cons version versions ih =>
      cases hFlag : s.isCancelled w.checks with
      | true =>
          refine ⟨[], (version :: versions).map abandoned, ?_,
            List.forall_mem_nil _, ?_⟩
          · rw [run_sequence_of_flag _ hKeeps hFlag,
              List.nil_append, List.map_map]
            rfl
          · intro o hMem
            rcases List.mem_map.mp hMem with ⟨_, -, rfl⟩
            rfl
      | false =>
          rcases run_sequence_of_no_flag root generators r
              version versions hFlag with
            ⟨o, v, hState, -, -, hFirst⟩
          rcases ih v with
            ⟨lower, upper, hRest, hLower, hUpper⟩
          refine ⟨o :: lower, upper, ?_, ?_, hUpper⟩
          · rw [hFirst, hRest]
            rfl
          · exact List.forall_mem_cons.mpr ⟨hState, hLower⟩

------------------------------------------------------------
-- Without Cancellation
------------------------------------------------------------

/-
  A program of a version, and what it would be if nobody set
  the flag: the same, or anything once it is abandoned.
-/
inductive GoesOn
    (generators : GeneratorSet)
    (root : Path)
    (r : Registry) :
    Program (Except RunError VersionOutcome) →
      Program (Except RunError VersionOutcome) → Prop
| unstarted (version : Version) :
    GoesOn generators root r
      (process generators (Publisher.directory root) r version)
      (process generators (Publisher.directory root) r version)
| started
    {p : Program (Except RunError VersionOutcome)}
    {version : Version}
    (hUnasked : p.Behaves (· ≠ .isCancelled)
      (IsDecided version)) :
    GoesOn generators root r p p
| abandoned
    (version : Version)
    (q : Program (Except RunError VersionOutcome)) :
    GoesOn generators root r
      (.done (.ok (abandoned version))) q

/- One step of a version that is not abandoned. -/
theorem GoesOn.step
    {operation : Operation}
    {next : operation.Answer →
      Program (Except RunError VersionOutcome)}
    {q : Program (Except RunError VersionOutcome)}
    (w : World)
    (hGoesOn : GoesOn generators root r
      (.step operation next) q) :
    ∃ next', q = .step operation next' ∧
      (w.perform s.uncancelled operation).2 =
        (w.perform s operation).2 ∧
      GoesOn generators root r
        (next (w.perform s operation).1)
        (next' (w.perform s.uncancelled operation).1) := by
  generalize hStep : Program.step operation next = p at hGoesOn
  cases hGoesOn with
  | unstarted version =>
      rw [process_eq] at hStep ⊢
      cases hStep
      refine ⟨_, rfl, rfl, ?_⟩
      have hUnset : (w.perform s.uncancelled
          .isCancelled).1 = false := rfl
      rw [hUnset]
      cases (w.perform s .isCancelled).1 with
      | true => exact .abandoned version _
      | false =>
          exact .started
            (unasked_started root generators r version)
  | started hUnasked =>
      subst hStep
      have hSame := World.perform_uncancelled s w hUnasked.1
      refine ⟨next, rfl, by rw [hSame], ?_⟩
      rw [hSame]
      exact .started (hUnasked.2 _)
  | abandoned version q => cases hStep

/- A version that is done and not abandoned is done in both. -/
theorem GoesOn.of_done
    {a : Except RunError VersionOutcome}
    {q : Program (Except RunError VersionOutcome)}
    (hGoesOn : GoesOn generators root r (.done a) q) :
    q = .done a ∨
      ∃ version, a = .ok (Run.abandoned version) := by
  generalize hDone : Program.done a = p at hGoesOn
  cases hGoesOn with
  | unstarted version =>
      rw [process_eq] at hDone
      cases hDone
  | started hUnasked => exact Or.inl rfl
  | abandoned version q =>
      cases hDone
      exact Or.inr ⟨version, rfl⟩

/- Results of versions, with those that nobody cancels. -/
def AgreeUnlessAbandoned
    (results uncancelled :
      List (Except RunError VersionOutcome)) : Prop :=
  List.Forall₂
    (fun a b => b = a ∨ ∃ version, a = .ok (abandoned version))
    results uncancelled

theorem agreeUnlessAbandoned_of_goesOn
    {values results : List (Except RunError VersionOutcome)}
    {others :
      List (Program (Except RunError VersionOutcome))}
    (hGoesOn : List.Forall₂ (GoesOn generators root r)
      (values.map .done) others)
    (hValues : List.Forall₂
      (fun p b => ∀ a, p = .done a → b = a) others results) :
    AgreeUnlessAbandoned values results := by
  unfold AgreeUnlessAbandoned
  induction values generalizing others results with
  | nil =>
      cases hGoesOn
      cases hValues
      exact .nil
  | cons a values ih =>
      rcases hGoesOn with _ | ⟨hFirst, hRest⟩
      rcases hValues with _ | ⟨hValue, hValues⟩
      refine .cons ?_ (ih hRest hValues)
      rcases hFirst.of_done with rfl | hAbandoned
      · exact Or.inl (hValue a rfl)
      · exact Or.inr hAbandoned

/- Where all are abandoned, any results agree. -/
theorem agreeUnlessAbandoned_of_length
    {versions : List Version}
    {results : List (Except RunError VersionOutcome)}
    (hLength : results.length = versions.length) :
    AgreeUnlessAbandoned
      (versions.map fun version => .ok (abandoned version))
      results := by
  rw [AgreeUnlessAbandoned, List.forall₂_map_left_iff,
    List.forall₂_iff_get]
  exact ⟨hLength.symm, fun i hFirst _ => Or.inr ⟨_, rfl⟩⟩

/-
  Versions that follow one after the other do so as well where
  nobody sets the flag.
-/
theorem agreeUnlessAbandoned_sequence
    (root : Path)
    (generators : GeneratorSet)
    (r : Registry)
    (versions : List Version)
    (w : World)
    (hKeeps : s.KeepsCancelled) :
    AgreeUnlessAbandoned
      ((Program.sequence (versionPrograms generators
        (Publisher.directory root) r versions)).run s w).1
      ((Program.sequence (versionPrograms generators
        (Publisher.directory root) r versions)).run
          s.uncancelled w).1 := by
  induction versions generalizing w with
  | nil => exact .nil
  | cons version versions ih =>
      cases hFlag : s.isCancelled w.checks with
      | true =>
          rw [run_sequence_of_flag _ hKeeps hFlag]
          apply agreeUnlessAbandoned_of_length
          rw [Program.length_sequence, versionPrograms,
            List.length_map]
      | false =>
          rcases run_sequence_of_no_flag root generators r
              version versions hFlag with
            ⟨o, v, -, -, hRun, hFirst⟩
          have hUnset : s.uncancelled.isCancelled w.checks =
              false := rfl
          rcases run_sequence_of_no_flag root generators r
              version versions hUnset with
            ⟨o', v', -, -, hRun', hFirst'⟩
          rw [(unasked_started root generators r
            version).run_uncancelled, hRun] at hRun'
          cases hRun'
          rw [hFirst, hFirst']
          exact .cons (Or.inl rfl) (ih v)

/-
  The versions that are not abandoned end as they do in a run
  in which nobody sets the flag and the others wait. If they
  follow one after the other, they do so in that run.
-/
theorem exists_turns_uncancelled
    (root : Path)
    (generators : GeneratorSet)
    (r : Registry)
    (turns : List Nat)
    (versions : List Version)
    (w : World)
    (hKeeps : s.KeepsCancelled) :
    let programs := versionPrograms generators
      (Publisher.directory root) r versions
    ∃ turns', (turns = [] → turns' = []) ∧
      AgreeUnlessAbandoned
        ((Program.interleave turns programs).run s w).1
        ((Program.interleave turns' programs).run s.uncancelled
          w).1 := by
  intro programs
  by_cases hTurns : turns = []
  · subst hTurns
    exact ⟨[], fun _ => rfl, agreeUnlessAbandoned_sequence root
      generators r versions w hKeeps⟩
  have hStart : List.Forall₂ (GoesOn generators root r)
      programs programs := by
    rw [List.forall₂_same]
    intro p hMem
    rcases List.mem_map.mp hMem with ⟨version, -, rfl⟩
    exact .unstarted version
  rcases Program.exists_turns_done (s := s) turns programs w with
    ⟨enough, hDone⟩
  rcases Program.exists_turns_related s s.uncancelled w
      (fun _ _ _ w hGoesOn => hGoesOn.step w) hStart enough with
    ⟨turns', -, hGoesOn⟩
  rw [hDone] at hGoesOn
  refine ⟨turns', fun hNone => absurd hNone hTurns, ?_⟩
  rw [Program.run_interleave turns' programs w]
  exact agreeUnlessAbandoned_of_goesOn hGoesOn
    (Program.values_of_sequence _ _)

------------------------------------------------------------
-- Runs
------------------------------------------------------------

/- All results are outcomes if they are collected as such. -/
theorem eq_map_of_mapM
    {results : List (Except RunError VersionOutcome)}
    (hAll : results.mapM id = .ok outcomes) :
    results = outcomes.map .ok := by
  induction results generalizing outcomes with
  | nil =>
      cases hAll
      rfl
  | cons result results ih =>
      rw [List.mapM_cons] at hAll
      rcases Reading.exists_of_bind_eq_ok hAll with
        ⟨o, hFirst, hRest⟩
      rcases Reading.exists_of_bind_eq_ok hRest with
        ⟨rest, hOthers, hSame⟩
      cases hSame
      rw [List.map_cons, ← ih hOthers]
      exact congrArg (· :: results) hFirst

/- A run that has a report and no fault. -/
structure HasReport
    (s : Surroundings)
    (plan : Plan)
    (r : Registry)
    (w : World)
    (report : RunReport)
    (after done : World) : Prop where
  policy : ∃ current,
    plan.policy.current plan.generators = .ok current
  ended : (Program.interleave plan.turns
    (programs plan r)).run s w =
      (report.outcomes.map .ok, done)
  state : report.state = stateAfter s done
  kept : report.state = .cancelled → after.tree = done.tree

variable {report : RunReport}
variable {after : World}

theorem hasReport_of_run
    {runId : String}
    {startedAt : Instant}
    (hKeeps : s.KeepsCancelled)
    (hPublisher : plan.publisher = Publisher.directory root)
    (hOrdered : Table.IsOrdered plan.generators.table)
    (hRun : (executeOn plan runId startedAt r).run s w =
      (.ok report, after)) :
    (report.fault ≠ none ∧ report.outcomes = [] ∧
        after.tree = w.tree) ∨
      ∃ done, HasReport s plan r w report after done ∧
        HaveHeeded s root plan.generators.versions
          (w.tree.entriesAt root) report.outcomes done := by
  cases hPolicy : plan.policy.current plan.generators with
  | error fault =>
      rw [executeOn_of_fault runId startedAt r hPolicy] at hRun
      cases hRun
      exact Or.inl ⟨nofun, rfl, rfl⟩
  | ok current =>
      rcases heeded_programs plan r w hKeeps hPublisher
          hOrdered with
        ⟨outcomes, hAll, hHeeded⟩
      rcases hEnded : (Program.interleave plan.turns
        (programs plan r)).run s w with ⟨results, done⟩
      rw [hEnded] at hAll hHeeded
      rw [run_executeOn runId startedAt r hPolicy hEnded hAll]
        at hRun
      rcases hConclude : (conclude plan.publisher
        (stateAfter s done) current outcomes).run s
          (asked done) with ⟨answer, last⟩
      rw [hConclude] at hRun
      cases answer with
      | error e => cases hRun
      | ok marked =>
          cases hRun
          refine Or.inr ⟨done,
            ⟨⟨current, hPolicy⟩, ?_, rfl, fun hState => ?_⟩,
            hHeeded⟩
          · exact hEnded.trans
              (Prod.ext (eq_map_of_mapM hAll) rfl)
          · have hNot : ¬(stateAfter s done = .completed ∧
                ∃ o ∈ outcomes,
                  o.version = current ∧
                    o.state = .published) := by
              rintro ⟨hCompleted, -⟩
              cases hState.symm.trans hCompleted
            rw [conclude_unmarked hNot] at hConclude
            cases hConclude
            rfl

/-
  What the report of a run tells whose flag may be set at any
  moment. A version is abandoned in a run that is cancelled
  only, and it has nothing but its name in the report and what
  it had below the root. Other versions are published or
  rejected.
-/
structure TellsFlag
    (root : Path)
    (before : Tree)
    (report : RunReport)
    (after : World) : Prop where
  cancelled : (∃ o ∈ report.outcomes, o.state = .abandoned) →
    report.state = .cancelled
  index : report.state = .cancelled →
    (after.tree.entriesAt root).get? indexFile =
      before.get? indexFile
  each : ∀ o ∈ report.outcomes,
    o.state = .published ∨ o.state = .rejected ∨
      o = abandoned o.version ∧
        Tree.AgreeOn (Owns o.version)
          (after.tree.entriesAt root) before

theorem HaveHeeded.of_mem
    {versions : List Version}
    (hHeeded : HaveHeeded s root versions before outcomes w)
    (hMem : o ∈ outcomes) :
    HeedsFlag s root before o.version o w :=
  of_mem_outcomes (fun _ _ hHeeds => hHeeds.concerns)
    hHeeded.each hMem

theorem HaveHeeded.map_version
    {versions : List Version}
    (hHeeded : HaveHeeded s root versions before outcomes w) :
    outcomes.map VersionOutcome.version = versions :=
  (isWellFormed_of_outcomes (hHeeded.each.imp
    fun _ _ hHeeds => ⟨hHeeds.concerns, hHeeds.formed⟩)).1

theorem HeedsFlag.eq_abandoned
    (hHeeds : HeedsFlag s root before version o w)
    (hState : o.state = .abandoned) :
    o = Run.abandoned o.version := by
  rcases hHeeds.formed.abandoned hState with
    ⟨⟨hPrivate, hShared⟩, hRejection⟩
  rcases o with ⟨_, _, _, _, _⟩
  cases hState
  cases hPrivate
  cases hShared
  cases hRejection
  rfl

theorem HasReport.tellsFlag
    {done : World}
    (hReport : HasReport s plan r w report after done)
    (hHeeded : HaveHeeded s root plan.generators.versions
      before report.outcomes done) :
    TellsFlag root before report after := by
  have hCancelled : ∀ o ∈ report.outcomes,
      o.state = .abandoned → report.state = .cancelled := by
    intro o hMem hState
    have hSet := ((hHeeded.of_mem hMem).abandoned hState).1
    rw [hReport.state, stateAfter, hSet]
    rfl
  constructor
  · rintro ⟨o, hMem, hState⟩
    exact hCancelled o hMem hState
  · intro hState
    rw [hReport.kept hState]
    exact hHeeded.others indexFile fun version _ =>
      Publication.not_owns_index version (Or.inl rfl)
  · intro o hMem
    have hHeeds := hHeeded.of_mem hMem
    have hTerminal := hHeeds.formed.terminal
    cases hState : o.state with
    | published => exact Or.inl rfl
    | rejected => exact Or.inr (Or.inl rfl)
    | abandoned =>
        refine Or.inr (Or.inr
          ⟨hHeeds.eq_abandoned hState, ?_⟩)
        rw [hReport.kept (hCancelled o hMem hState)]
        exact (hHeeds.abandoned hState).2
    | pending | generating | validating =>
        rw [hState] at hTerminal
        cases hTerminal

/- Outcomes that agree unless the first one is abandoned. -/
def SameUnlessAbandoned (o o' : VersionOutcome) : Prop :=
  o.state ≠ .abandoned → o = o'

theorem sameUnlessAbandoned_of_results
    {outcomes' : List VersionOutcome}
    (hAgree : AgreeUnlessAbandoned (outcomes.map .ok)
      (outcomes'.map .ok)) :
    List.Forall₂ SameUnlessAbandoned outcomes outcomes' := by
  rw [AgreeUnlessAbandoned, List.forall₂_map_left_iff,
    List.forall₂_map_right_iff] at hAgree
  apply hAgree.imp
  intro o o' hEither hState
  rcases hEither with hSame | ⟨version, hAbandoned⟩
  · exact (Except.ok.inj hSame).symm
  · cases hAbandoned
    exact absurd rfl hState

/- The outcomes of a run in which nobody sets the flag. -/
theorem HasReport.exists_uncancelled
    {done : World}
    (hReport : HasReport s plan r w report after done)
    (hKeeps : s.KeepsCancelled)
    (hPublisher : plan.publisher = Publisher.directory root)
    (hOrdered : Table.IsOrdered plan.generators.table) :
    ∃ turns outcomes, (plan.turns = [] → turns = []) ∧
      ((Program.interleave turns (programs plan r)).run
        s.uncancelled w).1.mapM id = .ok outcomes ∧
      List.Forall₂ SameUnlessAbandoned report.outcomes
        outcomes := by
  rcases exists_turns_uncancelled root plan.generators r
      plan.turns plan.generators.versions w hKeeps with
    ⟨turns, hTurns, hAgree⟩
  rw [← hPublisher] at hAgree
  rcases heeded_programs { plan with turns } r w
      s.keepsCancelled_uncancelled hPublisher hOrdered with
    ⟨outcomes, hAll, -⟩
  have hResults := eq_map_of_mapM hAll
  have hEnded : ((Program.interleave plan.turns
      (programs plan r)).run s w).1 =
        report.outcomes.map .ok :=
    congrArg Prod.fst hReport.ended
  refine ⟨turns, outcomes, hTurns, hAll,
    sameUnlessAbandoned_of_results ?_⟩
  rw [← hResults, ← hEnded]
  exact hAgree

/-
  What has become of a version in a run without failures: if
  it is not abandoned, its outcome is that of its fate.
-/
def IsFated
    (told : Instant → Prop)
    (generators : GeneratorSet)
    (r : Registry)
    (version : Version)
    (o : VersionOutcome) : Prop :=
  o.version = version ∧
    (o.state ≠ .abandoned →
      ∃ t : Timing, t.IsTold told ∧
        o = (fate generators r version t).outcome)

theorem IsProcessed.isFated
    {told : Instant → Prop}
    (hProcessed : IsProcessed s told root generators r before
      version (.ok o) w) :
    IsFated told generators r version o := by
  generalize hResult : Except.ok o = result at hProcessed
  cases hProcessed with
  | abandoned =>
      cases hResult
      exact ⟨rfl, fun hState => absurd rfl hState⟩
  | decided t hTold =>
      cases hResult
      exact ⟨version_of_fate generators r version t,
        fun _ => ⟨t, hTold, rfl⟩⟩

/- Without failures, what is not abandoned comes to its fate. -/
theorem HasReport.isFated
    {told : Instant → Prop}
    {done : World}
    (hReport : HasReport s plan r w report after done)
    (hFaultless : s.IsFaultless)
    (hTold : ∀ step, told (s.instant step))
    (hPublisher : plan.publisher = Publisher.directory root)
    (hOrdered : Table.IsOrdered plan.generators.table)
    (hBundles : HasBundles root w.tree)
    (hNames : ∀ version ∈ plan.generators.versions,
      HasFreshNames s version (w.tree.entriesAt root) 0)
    (hMem : o ∈ report.outcomes) :
    IsFated told plan.generators r o.version o := by
  have hEach := (ended_processed (r := r) hFaultless hTold
    hPublisher hOrdered hBundles hNames).2
  rw [hReport.ended, List.forall₂_map_right_iff] at hEach
  have hFated := hEach.imp fun _ _ hProcessed =>
    hProcessed.isFated
  exact of_mem_outcomes (fun _ _ hFated => hFated.1) hFated hMem

/-
  A run without failures, cancelled or not, and another one
  that is not, from the same reachable root. A version that is
  not abandoned has the same outcome in both, if its generator
  is steady.
-/
theorem HasReport.outcome_eq
    {s' : Surroundings}
    {told : Instant → Prop}
    {turns : List Nat}
    {done w' : World}
    (hReport : HasReport s plan r w report after done)
    (hHeeded : HaveHeeded s root plan.generators.versions
      before report.outcomes done)
    (runId : String)
    (startedAt : Instant)
    (hFaultless : s.IsFaultless)
    (hTold : ∀ step, told (s.instant step))
    (hCalm : s'.IsCalm told)
    (hPublisher : plan.publisher = Publisher.directory root)
    (hOrdered : Table.IsOrdered plan.generators.table)
    (hReachable : IsReachable root w.tree)
    (hTree : w'.tree = w.tree)
    (hNames : ∀ version ∈ plan.generators.versions,
      HasFreshNames s version (w.tree.entriesAt root) 0 ∧
        HasFreshNames s' version (w.tree.entriesAt root) 0) :
    ∃ report' after',
      (executeOn { plan with turns } runId startedAt r).run s'
        w' = (.ok report', after') ∧
      ∀ o ∈ report.outcomes, o.state ≠ .abandoned →
        plan.generators.IsSteadyAt told r o.version →
        report'.outcome? o.version = some o := by
  rcases hReport.policy with ⟨current, hPolicy⟩
  have hBundles := hReachable.hasBundles
  rcases executeOn_calm { plan with turns } runId startedAt r
      hCalm hPublisher hOrdered hTree hBundles
      (fun version hMem => (hNames version hMem).2) hPolicy with
    ⟨report', after', hRun, hReports⟩
  refine ⟨report', after', hRun, ?_⟩
  intro o hMem hState hSteady
  have hVersion : o.version ∈ plan.generators.versions := by
    rw [← hHeeded.map_version]
    exact List.mem_map_of_mem hMem
  rcases (hReport.isFated hFaultless hTold hPublisher hOrdered
      hBundles (fun version hMem => (hNames version hMem).1)
      hMem).2 hState with ⟨t, hTimes, hFate⟩
  rcases exists_outcome hReports.each hVersion with
    ⟨o', hFound, t', hTimes', hFate', -⟩
  have hSame : o = o' := by
    rw [hFate, hFate']
    exact (fate_alike hSteady hTimes hTimes').outcome
  rw [hSame]
  rw [hSame] at hFound
  exact hFound

/- Once a version is abandoned, all that follow it are. -/
def AbandonsLast (outcomes : List VersionOutcome) : Prop :=
  ∃ lower upper, outcomes = lower ++ upper ∧
    (∀ o ∈ lower, o.state ≠ .abandoned) ∧
    ∀ o ∈ upper, o.state = .abandoned

theorem HasReport.abandonsLast
    {done : World}
    (hReport : HasReport s plan r w report after done)
    (hKeeps : s.KeepsCancelled)
    (hPublisher : plan.publisher = Publisher.directory root)
    (hTurns : plan.turns = []) :
    AbandonsLast report.outcomes := by
  have hEnded := congrArg Prod.fst hReport.ended
  rw [hTurns, programs, hPublisher] at hEnded
  rcases exists_segment root plan.generators r
      plan.generators.versions w hKeeps with
    ⟨lower, upper, hAll, hLower, hUpper⟩
  have hSame : report.outcomes = lower ++ upper := by
    apply List.map_injective_iff.mpr
      (fun _ _ => Except.ok.inj)
    exact hEnded.symm.trans hAll
  exact ⟨lower, upper, hSame, hLower, hUpper⟩

/-
  The flag may be set at any moment of a run, and any operation
  may fail. Each version asks for it once, before it starts.
  The report tells that the run is cancelled if a version is
  abandoned, the index of a cancelled run is kept, and so is
  all that belongs to versions that are abandoned, which are
  the last ones if versions follow each other. All others are
  published or rejected as they are in a run that nobody
  cancels, in which versions follow each other if they do so
  here. Where nothing fails, this is any such run, if
  generators are steady.
-/
theorem cancellation_isSafe
    {runId : String}
    {startedAt : Instant}
    (hKeeps : s.KeepsCancelled)
    (hPublisher : plan.publisher = Publisher.directory root)
    (hOrdered : Table.IsOrdered plan.generators.table)
    (hRun : (executeOn plan runId startedAt r).run s w =
      (.ok report, after)) :
    (∀ version, ChecksStart version
      (process plan.generators plan.publisher r version)) ∧
    TellsFlag root (w.tree.entriesAt root) report after ∧
    (plan.turns = [] → AbandonsLast report.outcomes) ∧
    (report.fault = none →
      report.outcomes.map VersionOutcome.version =
        plan.generators.versions ∧
      (∃ turns outcomes, (plan.turns = [] → turns = []) ∧
        ((Program.interleave turns (programs plan r)).run
          s.uncancelled w).1.mapM id = .ok outcomes ∧
        List.Forall₂ SameUnlessAbandoned report.outcomes
          outcomes) ∧
      (s.IsFaultless → IsReachable root w.tree →
        ∀ (told : Instant → Prop) (s' : Surroundings)
          (turns : List Nat) (w' : World),
        (∀ step, told (s.instant step)) → s'.IsCalm told →
        w'.tree = w.tree →
        (∀ version ∈ plan.generators.versions,
          HasFreshNames s version (w.tree.entriesAt root) 0 ∧
            HasFreshNames s' version (w.tree.entriesAt root)
              0) →
        ∃ report' after',
          (executeOn { plan with turns } runId startedAt r).run
            s' w' = (.ok report', after') ∧
          ∀ o ∈ report.outcomes, o.state ≠ .abandoned →
            plan.generators.IsSteadyAt told r o.version →
            report'.outcome? o.version = some o)) := by
  refine ⟨fun version => ?_, ?_⟩
  · rw [hPublisher]
    exact checksStart_process root plan.generators r version
  rcases hasReport_of_run hKeeps hPublisher hOrdered hRun with
    ⟨hFault, hNone, hTree⟩ | ⟨done, hReport, hHeeded⟩
  · refine ⟨⟨?_, fun _ => by rw [hTree], ?_⟩,
      fun _ => ⟨[], [], hNone, List.forall_mem_nil _,
        List.forall_mem_nil _⟩,
      fun hFree => absurd hFree hFault⟩
    · rintro ⟨o, hMem, -⟩
      rw [hNone] at hMem
      cases hMem
    · intro o hMem
      rw [hNone] at hMem
      cases hMem
  · refine ⟨hReport.tellsFlag hHeeded,
      hReport.abandonsLast hKeeps hPublisher,
      fun _ => ⟨hHeeded.map_version,
        hReport.exists_uncancelled hKeeps hPublisher hOrdered,
        ?_⟩⟩
    intro hFaultless hReachable told s' turns w' hTold hCalm
      hTree hNames
    exact hReport.outcome_eq hHeeded runId startedAt hFaultless
      hTold hCalm hPublisher hOrdered hReachable hTree hNames

/- Surroundings whose flag is found set from a check on. -/
def cancelledFrom (check : Nat) : Surroundings :=
  { still with isCancelled := fun n => decide (check ≤ n) }

/- The second version is abandoned, and the first one is not. -/
theorem cancellation_isSafe_small :
    ∃ o report after,
      (executeOn (smallRun (.ofText "out") (.small .small)) "a"
        ⟨0, 0⟩ (.small .small)).run (cancelledFrom 1)
          (World.ofTree []) = (.ok report, after) ∧
      report.outcomes = [o, abandoned .v2] ∧
      o.state ≠ .abandoned ∧
      TellsFlag (.ofText "out") [] report after := by
  have hTime : Instant.IsRepresentable ⟨0, 0⟩ := by decide
  have hKeeps : (cancelledFrom 1).KeepsCancelled := by
    intro check hSet
    simp only [cancelledFrom, decide_eq_true_eq] at hSet ⊢
    exact Nat.le_succ_of_le hSet
  have hPlan := publishesTo_smallRun (.ofText "out")
    (.small .small)
  have hOrdered := GeneratorSet.isProper_builtin.ordered
  rcases executeOn_completes (s := cancelledFrom 1)
      (w := World.ofTree []) "a" ⟨0, 0⟩ (.small .small)
      (fun _ => rfl) (fun _ => hTime) hPlan
      isEmptyRoot_small.hasSoundRoot rfl with
    ⟨report, after, hRun, hCompletes⟩
  have hAll := cancellation_isSafe hKeeps hPlan.publisher
    hOrdered hRun
  rcases hasReport_of_run hKeeps hPlan.publisher hOrdered
      hRun with ⟨hFault, -⟩ | ⟨done, hReport, -⟩
  · exact absurd hCompletes.fault hFault
  have hUnset : (cancelledFrom 1).isCancelled
      (World.ofTree []).checks = false := rfl
  rcases run_sequence_of_no_flag (.ofText "out") .builtin
      (.small .small) .v1 [.v2] hUnset with
    ⟨o, v, hState, hChecks, -, hSequence⟩
  have hSet : (cancelledFrom 1).isCancelled v.checks = true :=
    decide_eq_true hChecks
  rw [run_sequence_of_flag _ hKeeps hSet] at hSequence
  have hEnded : report.outcomes.map Except.ok =
      [o, abandoned .v2].map Except.ok :=
    (congrArg Prod.fst hReport.ended).symm.trans hSequence
  refine ⟨o, report, after, hRun, ?_, hState, hAll.2.1⟩
  exact List.map_injective_iff.mpr
    (fun _ _ => Except.ok.inj) hEnded

end Run

end Federation
