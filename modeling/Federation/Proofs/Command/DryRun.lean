import Federation.Command.Generate
import Federation.Proofs.Command.RegistryCheck
import Federation.Proofs.Generation.Refinement
import Federation.Proofs.Registry.Printing
import Federation.Proofs.Run.Independence

/-
  The dry run predicts the real one. A registry is checked and
  generated from in different ways: a real run has digests, is
  judged a second time, publishes and moves the index. Yet if
  nothing fails and nobody cancels, both succeed or neither.

  Main declarations:
    * `Run.process_publishes_iff`
    * `Run.exitCode_report_eq_zero_iff`
    * `Settings.IsOrdinary`
    * `Generate.Succeeds`
    * `Generate.IsOrdinary`, `Generate.IsUndisturbed`
    * `Generate.dry_run_predicts_run`
-/

namespace Federation

variable {s s' : Surroundings}
variable {t : Instant}
variable {root : Path}
variable {before : Tree}
variable {settings : Settings}
variable {registry output : String}
variable {w : World}

------------------------------------------------------------
-- Versions
------------------------------------------------------------

namespace Run

/- A version that is not cancelled is published if it passes. -/
theorem process_publishes_iff
    {publisher : Publisher}
    {version : Version}
    (hClock : ∀ step, (s.instant step).IsLike t)
    (r : Registry)
    (hReliable : publisher.IsReliable s version w.tree)
    (hUncancelled : s.isCancelled w.checks = false) :
    (∃ o, ((process .builtin publisher r version).run s w).1 =
        .ok o ∧ o.state = .published) ↔
      GeneratorSet.builtin.PassesAt version t r := by
  let timing : Timing :=
    ⟨s.instant (w.steps + 1), s.instant (w.steps + 2), t⟩
  have hFate : (fate .builtin r version timing).outcome.state =
        .published ↔
      GeneratorSet.builtin.PassesAt version t r :=
    published_iff_passesAt (hClock _) (hClock _)
  rw [run_process .builtin r version t hReliable hUncancelled,
    ← hFate]
  constructor
  · rintro ⟨_, hSame, hState⟩
    cases hSame
    exact hState
  · intro hState
    exact ⟨_, rfl, hState⟩

/- Where nothing is in the way, the directory is reliable. -/
theorem IsClear.isReliable
    {versions : List Version}
    {version : Version}
    {tree : Tree}
    {told : Instant → Prop}
    (hClear : IsClear s root versions tree)
    (hCalm : s.IsCalm told)
    (hMem : version ∈ versions) :
    (Publisher.directory root).IsReliable s version tree := by
  rintro b rfl w rfl
  have hSafe := Publication.safely_publish hCalm.faultless
    hCalm.told (hClear.names _ hMem) (hClear.noFile _ hMem)
    ⟨hClear.canHave, fun _ _ => rfl⟩
  exact (hSafe.run.2 _ (Program.KeepsRoot.refl _)).1

/- All of some versions are published exactly if all pass. -/
theorem all_published_iff
    {r : Registry}
    {versions : List Version}
    {outcomes : List VersionOutcome}
    (hEach : List.Forall₂
      (fun version o => ComesToFate (fun u => u.IsLike t) root
        .builtin r before version o w)
      versions outcomes) :
    (∀ o ∈ outcomes, o.state = .published) ↔
      ∀ version ∈ versions,
        GeneratorSet.builtin.PassesAt version t r := by
  induction hEach with
  | nil => exact iff_of_true nofun nofun
  | @cons version o versions outcomes hFate _ ih =>
      rcases hFate with ⟨timing, hTold, rfl, -⟩
      rw [List.forall_mem_cons, List.forall_mem_cons, ih,
        published_iff_passesAt hTold.privateAt
          hTold.sharedAt]

------------------------------------------------------------
-- Reports
------------------------------------------------------------

/-
  The report of a run over the library's generators tells of
  success exactly if both documents of each version pass. The
  index needs no condition of its own, for it is moved once
  the current version is published.
-/
theorem exitCode_report_eq_zero_iff
    {r : Registry}
    {current : Version}
    {report : RunReport}
    (hReports : ReportsFates (fun u => u.IsLike t) root .builtin
      r current before report w)
    (hCurrent : current ∈ GeneratorSet.builtin.versions) :
    report.exitCode = 0 ↔ GeneratorSet.builtin.PassesAll t r := by
  have hAll := all_published_iff hReports.each
  have hCode : report.exitCode = 0 ↔
      (∀ o ∈ report.outcomes, o.state = .published) ∧
        report.currentMarked = true := by
    simp [RunReport.exitCode, RunReport.isSuccess,
      hReports.fault, hReports.state]
  rw [hCode, hAll, hReports.marked]
  exact and_iff_left_of_imp fun hPasses =>
    hReports.publishes hPasses hCurrent

end Run

------------------------------------------------------------
-- Settings
------------------------------------------------------------

namespace Settings

/-
  Settings that name a registry and a directory, hold nothing
  back and leave open which versions may become current. The
  versions of a run may be done side by side or in sequence.
-/
structure IsOrdinary
    (registry output : String)
    (settings : Settings) : Prop where
  registry : settings.registry = some registry
  outputDir : settings.outputDir = some output
  heldBackVersions : settings.heldBackVersions = []
  eligibility : settings.eligibility = []

end Settings

namespace Generate

/- Without settings to the contrary, the second is current. -/
theorem current_plan
    (hOrdinary : settings.IsOrdinary registry output)
    (source target : Path) :
    (plan settings .builtin source target).policy.current
      .builtin = .ok .v2 := by
  rw [plan, hOrdinary.heldBackVersions]
  rfl

/-
  A run that ordinary settings ask for ends with a report of
  success.
-/
def Succeeds
    (s : Surroundings)
    (settings : Settings)
    (source target : Path)
    (turns : List Nat)
    (w : World) : Prop :=
  ∃ report,
    ((Run.execute { plan settings .builtin source target with
      turns }).run s w).1 = .ok report ∧
    report.exitCode = 0

/-
  Whatever turns its versions take, a run succeeds exactly if
  there is a registry in the file and both documents of each
  version pass.
-/
theorem succeeds_iff
    (hOrdinary : settings.IsOrdinary registry output)
    (hCalm : s.IsCalm fun u => u.IsLike t)
    (source target : Path)
    (turns : List Nat)
    (hClear : Run.IsClear s target
      GeneratorSet.builtin.versions w.tree) :
    Succeeds s settings source target turns w ↔
      ∃ r, Registry.inTree source w.tree = .ok r ∧
        GeneratorSet.builtin.PassesAll t r := by
  let runPlan : Run.Plan :=
    { plan settings .builtin source target with turns }
  have hSource : runPlan.source.run s w.advance.advance =
      (Registry.inTree source w.tree,
        w.advance.advance.advance) :=
    Registry.run_load source hCalm.faultless _
  have hPlan : Run.IsClear s target runPlan.generators.versions
      w.tree :=
    hClear
  rw [Succeeds, Run.run_execute, hSource]
  cases hFile : Registry.inTree source w.tree with
  | error e => exact iff_of_false nofun nofun
  | ok r =>
      have hTree : w.advance.advance.advance.tree = w.tree :=
        rfl
      rcases hPlan.executeOn_calm (s.name w.steps)
          (s.instant w.advance.steps) r hCalm rfl
          GeneratorSet.isProper_builtin.ordered hTree
          (current_plan hOrdinary source target) with
        ⟨report, w', hRun, hReports⟩
      dsimp only
      rw [hRun]
      have hCode := Run.exitCode_report_eq_zero_iff hReports
        (by decide)
      constructor
      · rintro ⟨_, hSame, hZero⟩
        cases hSame
        exact ⟨r, rfl, hCode.mp hZero⟩
      · rintro ⟨_, hSame, hPasses⟩
        cases hSame
        exact ⟨report, rfl, hCode.mpr hPasses⟩

/-
  A command succeeds exactly if there is a registry in the file
  and both documents of each version pass.
-/
theorem exitCode_replyWith_eq_zero_iff
    (hOrdinary : settings.IsOrdinary registry output)
    (hCalm : s.IsCalm fun u => u.IsLike t)
    (hClear : Run.IsClear s (.ofText output)
      GeneratorSet.builtin.versions w.tree)
    (asJson : Bool) :
    ((replyWith settings asJson).run s w).1.exitCode = 0 ↔
      ∃ r, Registry.inTree (.ofText registry) w.tree = .ok r ∧
        GeneratorSet.builtin.PassesAll t r := by
  have hRun := succeeds_iff hOrdinary hCalm
    (.ofText registry) (.ofText output)
    (plan settings .builtin (.ofText registry)
      (.ofText output)).turns hClear
  rw [replyWith, hOrdinary.registry, hOrdinary.outputDir,
    ← hRun, Succeeds]
  dsimp only
  rw [Program.run_bind_eq, execute, hOrdinary.eligibility,
    overridden]
  dsimp only
  rw [Program.run_bind_eq]
  generalize (Run.execute _).run s w = ended
  rcases ended with ⟨e | report, v⟩
  · exact iff_of_false nofun nofun
  · constructor
    · intro hZero
      exact ⟨report, rfl, hZero⟩
    · rintro ⟨_, hSame, hZero⟩
      cases hSame
      exact hZero

------------------------------------------------------------
-- Commands
------------------------------------------------------------

/-
  Arguments, environment and file together give settings that
  are ordinary.
-/
def IsOrdinary
    (s : Surroundings)
    (environment : Settings.Environment)
    (shared : SharedArguments)
    (arguments : GenerateArguments)
    (w : World)
    (registry output : String) : Prop :=
  ∃ settings,
    ((Settings.load shared.config environment).run s w).1 =
      .ok settings ∧
    (withArguments settings shared arguments).IsOrdinary
      registry output

/-
  Nothing fails, the flag is never set, and the directory can
  take what is published.
-/
structure IsUndisturbed
    (s : Surroundings)
    (output : String)
    (w : World) : Prop where
  faultless : s.IsFaultless
  uncancelled : ∀ check, s.isCancelled check = false
  clear : Run.IsClear s (.ofText output)
    GeneratorSet.builtin.versions w.tree

theorem IsUndisturbed.isCalm
    (hUndisturbed : IsUndisturbed s output w)
    (hClock : ∀ step, (s.instant step).IsLike t) :
    s.IsCalm fun u => u.IsLike t :=
  ⟨hUndisturbed.faultless, hUndisturbed.uncancelled, hClock⟩

variable {environment : Settings.Environment}
variable {shared : SharedArguments}

theorem exitCode_reply_eq_zero_iff
    {arguments : GenerateArguments}
    (hClock : ∀ step, (s.instant step).IsLike t)
    (hOrdinary : IsOrdinary s environment shared arguments w
      registry output)
    (hUndisturbed : IsUndisturbed s output w) :
    ((reply environment shared arguments).run s
        w).1.exitCode = 0 ↔
      ∃ r, Registry.inTree (.ofText registry) w.tree = .ok r ∧
        GeneratorSet.builtin.PassesAll t r := by
  rcases hOrdinary with ⟨settings, hLoad, hSettings⟩
  have hCalm := hUndisturbed.isCalm hClock
  have hTree : ((Settings.load shared.config
      environment).run s w).2.tree = w.tree :=
    (Settings.behaves_load _ _).tree_run s w
  have hClear := hUndisturbed.clear
  rw [← hTree] at hClear ⊢
  rw [reply, Program.run_bind_eq, hLoad]
  exact exitCode_replyWith_eq_zero_iff hSettings hCalm hClear
    arguments.asJson

/-
  The dry run predicts the real one, whatever the clocks tell,
  provided that schemas accept the instants of both or of none.
  A check of a file succeeds exactly if an undisturbed command
  with ordinary settings succeeds on the same file, and exactly
  if a run does in which the versions take any other turns. For
  any version, the dry run succeeds exactly if the version is
  published, when it is not cancelled and its publisher does
  not fail.
-/
theorem dry_run_predicts_run
    (hClocks : ∀ i j, (s.instant i).IsLike (s'.instant j)) :
    (∀ environment environment' shared shared' path arguments
        registry output w w',
      s.IsFaultless →
      RegistryCheck.Concerns s environment shared w registry
        path →
      IsOrdinary s' environment' shared' arguments w' registry
        output →
      IsUndisturbed s' output w' →
      World.node (.ofText registry) w.tree =
        World.node (.ofText registry) w'.tree →
      (((RegistryCheck.reply environment shared path).run s
          w).1.exitCode = 0 ↔
        ((reply environment' shared' arguments).run s'
          w').1.exitCode = 0) ∧
      ∀ settings turns,
        settings.IsOrdinary registry output →
        (((RegistryCheck.reply environment shared path).run s
            w).1.exitCode = 0 ↔
          Succeeds s' settings (.ofText registry)
            (.ofText output) turns w')) ∧
    ∀ r version publisher w w',
      publisher.IsReliable s' version w'.tree →
      s'.isCancelled w'.checks = false →
      (((RegistryCheck.dryRun .builtin r version).run s w).1 =
          .ok () ↔
        ∃ o, ((Run.process .builtin publisher r version).run s'
            w').1 = .ok o ∧
          o.state = .published) := by
  have hClock : ∀ step,
      (s.instant step).IsLike (s'.instant 0) :=
    fun step => hClocks step 0
  have hClock' : ∀ step,
      (s'.instant step).IsLike (s'.instant 0) :=
    fun step => (hClocks 0 step).symm.trans (hClocks 0 0)
  constructor
  · intro environment environment' shared shared' path
      arguments registry output w w' hFaultless hConcerns
      hOrdinary hUndisturbed hFile
    have hSame : Registry.inTree (.ofText registry) w.tree =
        Registry.inTree (.ofText registry) w'.tree := by
      rw [Registry.inTree, Registry.inTree, hFile]
    rw [RegistryCheck.exitCode_reply_eq_zero_iff hFaultless
      hClock hConcerns, hSame]
    constructor
    · rw [exitCode_reply_eq_zero_iff hClock' hOrdinary
        hUndisturbed]
    · intro settings turns hSettings
      rw [succeeds_iff hSettings
        (hUndisturbed.isCalm hClock') _ _ turns
        hUndisturbed.clear]
  · intro r version publisher w w' hReliable hUncancelled
    rw [RegistryCheck.dryRun_eq_ok_iff hClock,
      Run.process_publishes_iff hClock' r hReliable
        hUncancelled]

------------------------------------------------------------
-- A Small File
------------------------------------------------------------

/- A tree of a single file. -/
def singleFile (content : Bytes) : Tree :=
  [("registry.json", .file content)]

theorem node_singleFile (content : Bytes) :
    World.node (.ofText "registry.json")
      (singleFile content) = .ok (.file content) := by
  rfl

/- The text of a file that holds the small registry. -/
def smallFile : Bytes :=
  Text.toBytes (Json.indented (Registry.small .small).toJson)

theorem inTree_small :
    Registry.inTree (.ofText "registry.json")
      (singleFile smallFile) = .ok (.small .small) := by
  have hJson : Registry.isJsonFile (.ofText "registry.json") =
      true := by
    decide
  have hRead : Registry.read (Json.draft
      (Registry.small .small).toJson) =
        .ok (.small .small) := by
    decide +kernel
  have hVerify : (Registry.small .small).verify = .ok () := by
    decide +kernel
  rw [Registry.inTree, node_singleFile]
  exact Registry.ofFile_indented hJson hRead hVerify

theorem isClear_small (content : Bytes) :
    Run.IsClear Run.later (.ofText "out")
      GeneratorSet.builtin.versions (singleFile content) := by
  have hPassed : (Path.ofText "out").passed = [] := by decide
  have hEmpty : Run.IsEmptyRoot (.ofText "out")
      (singleFile content) := by
    refine ⟨_, rfl, rfl, ?_⟩
    rw [hPassed]
    exact nofun
  have hRoot := hEmpty.hasSoundRoot
  exact (Run.HasBundles.of_hasSoundRoot hRoot).isClear
    fun version _ =>
      (hRoot.sound.settled version).hasFreshNames _ _

/- Arguments that name the file, and settings that do so. -/
def smallArguments : GenerateArguments :=
  ⟨some "registry.json", [], true, false⟩

def smallSettings : Settings :=
  ⟨some "registry.json", some "out", [], true, []⟩

/-
  A check at the start of 1970 and a run at the start of 2025
  succeed, also if its versions take other turns, and so do
  the dry run and the run of one version.
-/
theorem dry_run_predicts_run_small :
    ((RegistryCheck.reply (fun _ => none) ⟨none, none⟩
        (some (.ofText "registry.json"))).run Run.still
      (.ofTree (singleFile smallFile))).1.exitCode = 0 ∧
    ((reply (fun _ => none) ⟨none, some "out"⟩
        smallArguments).run Run.later
      (.ofTree (singleFile smallFile))).1.exitCode = 0 ∧
    Succeeds Run.later smallSettings (.ofText "registry.json")
      (.ofText "out") [1, 0, 1, 1, 0]
      (.ofTree (singleFile smallFile)) ∧
    ((RegistryCheck.dryRun .builtin (.small .small) .v2).run
      Run.still (.ofTree [])).1 = .ok () ∧
    ∃ o,
      ((Run.process .builtin (.directory (.ofText "out"))
        (.small .small) .v2).run Run.later
          (.ofTree (singleFile smallFile))).1 = .ok o ∧
      o.state = .published := by
  have hStart : Instant.HasTimestamp ⟨1735689600, 0⟩ :=
    Instant.isPlain_start.hasTimestamp
  have hFirst : Instant.HasTimestamp ⟨0, 0⟩ :=
    Instant.IsPlain.hasTimestamp ⟨by decide, by decide⟩
  have hClock : ∀ i,
      (Run.still.instant i).IsLike ⟨1735689600, 0⟩ :=
    fun _ => iff_of_true hFirst hStart
  have hClocks : ∀ i j,
      (Run.still.instant i).IsLike (Run.later.instant j) :=
    fun i _ => hClock i
  have hPredicts := dry_run_predicts_run hClocks
  have hConcerns : RegistryCheck.Concerns Run.still
      (fun _ => none) ⟨none, none⟩
      (.ofTree (singleFile smallFile)) "registry.json" _ :=
    .named
  have hOrdinary : IsOrdinary Run.later (fun _ => none)
      ⟨none, some "out"⟩ smallArguments
      (.ofTree (singleFile smallFile)) "registry.json" "out" :=
    ⟨.initial, rfl, ⟨rfl, rfl, rfl, rfl⟩⟩
  have hUndisturbed : IsUndisturbed Run.later "out"
      (.ofTree (singleFile smallFile)) :=
    ⟨fun _ => rfl, fun _ => rfl, isClear_small smallFile⟩
  have hCheck := (RegistryCheck.exitCode_reply_eq_zero_iff
    (fun _ => rfl) hClock hConcerns).mpr
      ⟨_, inTree_small, GeneratorSet.passesAll_small hStart⟩
  have hDry := (RegistryCheck.dryRun_eq_ok_iff hClock
    (.small .small) .v2 (.ofTree [])).mpr
      ⟨.v2, rfl, Generator.passesAt_small⟩
  have hMem : .v2 ∈ GeneratorSet.builtin.versions := by decide
  have hCalm := hUndisturbed.isCalm fun _ =>
    iff_of_true hStart hStart
  have hReliable := hUndisturbed.clear.isReliable hCalm hMem
  have hBoth := hPredicts.1 _ _ _ _ _ _ _ _ _ _
    (fun _ => rfl) hConcerns hOrdinary hUndisturbed rfl
  exact ⟨hCheck, hBoth.1.mp hCheck,
    (hBoth.2 smallSettings _ ⟨rfl, rfl, rfl, rfl⟩).mp hCheck,
    hDry,
    (hPredicts.2 _ _ _ _ _ hReliable rfl).mp hDry⟩

end Generate

end Federation
