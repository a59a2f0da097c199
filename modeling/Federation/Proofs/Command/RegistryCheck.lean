import Federation.Command.RegistryCheck
import Federation.Proofs.Run.Approval

/-
  When a check of a registry succeeds: exactly if there is a
  registry in the file and both documents of each version pass.
  A check asks the clock for every document, but nothing of an
  instant matters except whether it is a timestamp.

  Main declarations:
    * `Registry.inTree`
    * `RegistryCheck.dryRun_eq_ok_iff`
    * `RegistryCheck.exitCode_check_eq_zero_iff`
    * `RegistryCheck.Concerns`
    * `RegistryCheck.exitCode_reply_eq_zero_iff`
-/

namespace Federation

variable {s : Surroundings}
variable {generators : GeneratorSet}
variable {g : Generator}
variable {r : Registry}
variable {version : Version}
variable {kind : DocumentKind}
variable {t : Instant}
variable {w : World}

------------------------------------------------------------
-- Registries in Trees
------------------------------------------------------------

namespace Registry

/- The registry in the file at a path. -/
def inTree
    (path : Path)
    (tree : Tree) : Except RegistryError Registry :=
  match World.node path tree with
  | .error fault => .error (.storage path fault)
  | .ok (.directory _) => .error (.storage path .isDirectory)
  | .ok (.file content) => ofFile path content

/- Without failures, the registry in the file is loaded. -/
theorem run_load
    (path : Path)
    (hFaultless : s.IsFaultless)
    (w : World) :
    (load path).run s w = (inTree path w.tree, w.advance) := by
  rw [load, Program.run_bind_eq, inTree]
  simp only [Program.read, Program.ask, Program.run,
    World.perform, World.look, hFaultless w.steps]
  cases World.node path w.tree with
  | error fault => rfl
  | ok node => cases node <;> rfl

end Registry

------------------------------------------------------------
-- Settings
------------------------------------------------------------

namespace Settings

/- To load settings leaves the tree alone. -/
theorem behaves_read (path : Path) :
    (read path).Behaves Operation.IsLook fun _ => True := by
  apply (Program.behaves_ask (.read path)).bind
  rintro (fault | content) _
  · trivial
  · trivial

theorem behaves_load
    (path : Option Path)
    (environment : Environment) :
    (load path environment).Behaves Operation.IsLook
      fun _ => True := by
  have hFile : (readFile path).Behaves Operation.IsLook
      fun _ => True := by
    cases path with
    | some path => exact behaves_read path
    | none =>
        apply (Program.behaves_ask (.isFile standardFile)).bind
        rintro (_ | _) _
        · trivial
        · exact behaves_read standardFile
  apply hFile.bind
  rintro (e | settings) _
  · trivial
  · trivial

end Settings

------------------------------------------------------------
-- Dry Runs
------------------------------------------------------------

namespace RegistryCheck

/- An error keeps being an error however it is worded. -/
theorem eq_ok_of_mapError
    {ε δ α : Type}
    {f : ε → δ}
    {x : Except ε α}
    {a : α}
    (hOk : x.mapError f = .ok a) :
    x = .ok a := by
  cases x with
  | error e => cases hOk
  | ok b =>
      cases hOk
      rfl

/- A document passes the dry run of its version's generator. -/
theorem dryRunKind_eq_ok_iff
    (hGet : generators.table.get? version = some g) :
    dryRunKind generators version r kind t = .ok () ↔
      g.PassesAt kind t r := by
  have hGenerate : generators.generate kind version t r =
      (g.generate kind t r).mapError .generation := by
    rw [GeneratorSet.generate, GeneratorSet.get_eq_of_get? hGet]
    rfl
  have hValidate : ∀ d : Document kind,
      generators.validate version d =
        (g.validate kind d).mapError .validation := by
    intro d
    rw [GeneratorSet.validate, GeneratorSet.get_eq_of_get? hGet]
    rfl
  constructor
  · intro hOk
    rcases Reading.exists_of_bind_eq_ok hOk with
      ⟨d, hDocument, hValid⟩
    rw [hGenerate] at hDocument
    rw [hValidate] at hValid
    exact ⟨d, eq_ok_of_mapError hDocument,
      eq_ok_of_mapError hValid⟩
  · rintro ⟨d, hDocument, hValid⟩
    rw [dryRunKind, hGenerate, hDocument]
    exact (hValidate d).trans (by rw [hValid]; rfl)

theorem dryRunKind_of_none
    (hNone : generators.table.get? version = none) :
    dryRunKind generators version r kind t ≠ .ok () := by
  rw [dryRunKind, GeneratorSet.generate, GeneratorSet.get,
    hNone]
  intro hOk
  cases hOk

/- A dry run judges the documents of two instants. -/
theorem run_dryRun
    (s : Surroundings)
    (generators : GeneratorSet)
    (r : Registry)
    (version : Version)
    (w : World) :
    ((dryRun generators r version).run s w).1 = (do
      dryRunKind generators version r .privateParameters
        (s.instant w.steps)
      dryRunKind generators version r .sharedParameters
        (s.instant (w.steps + 1))) := by
  rw [dryRun, Program.run_bind_eq, Program.run_now]
  cases dryRunKind generators version r .privateParameters
      (s.instant w.steps) with
  | error e => rfl
  | ok _ =>
      dsimp only
      rw [Program.run_bind_eq, Program.run_now]
      rfl

/-
  A dry run of a version succeeds exactly if both its documents
  pass.
-/
theorem dryRun_eq_ok_iff
    (hClock : ∀ step, (s.instant step).IsLike t)
    (r : Registry)
    (version : Version)
    (w : World) :
    ((dryRun .builtin r version).run s w).1 = .ok () ↔
      GeneratorSet.builtin.PassesAt version t r := by
  rw [run_dryRun]
  cases hGet : GeneratorSet.builtin.table.get? version with
  | none =>
      constructor
      · intro hOk
        rcases Reading.exists_of_bind_eq_ok hOk with
          ⟨_, hFirst, -⟩
        exact absurd hFirst (dryRunKind_of_none hGet)
      · rintro ⟨g, hOther, -⟩
        rw [hGet] at hOther
        cases hOther
  | some g =>
      have hBuiltin := (GeneratorSet.builtin_of_get? hGet).2
      have hPasses : ∀ kind step,
          dryRunKind .builtin version r kind
              (s.instant step) = .ok () ↔
            g.PassesAt kind t r :=
        fun kind step => (dryRunKind_eq_ok_iff hGet).trans
          (Generator.passesAt_congr hBuiltin (hClock step))
      constructor
      · intro hOk
        rcases Reading.exists_of_bind_eq_ok hOk with
          ⟨_, hFirst, hSecond⟩
        refine ⟨g, hGet, fun kind => ?_⟩
        cases kind with
        | privateParameters => exact (hPasses _ _).mp hFirst
        | sharedParameters => exact (hPasses _ _).mp hSecond
      · rintro ⟨other, hOther, hBoth⟩
        rw [hGet] at hOther
        cases hOther
        rw [(hPasses _ _).mpr (hBoth .privateParameters)]
        exact (hPasses _ _).mpr (hBoth .sharedParameters)

------------------------------------------------------------
-- Verdicts
------------------------------------------------------------

/-
  Nothing stands against any of some versions exactly if all
  of them pass.
-/
theorem rejected_eq_nil_iff
    (hClock : ∀ step, (s.instant step).IsLike t)
    (r : Registry)
    (versions : List Version)
    (w : World) :
    rejected ((verdicts .builtin r versions).run s w).1 = [] ↔
      ∀ version ∈ versions,
        GeneratorSet.builtin.PassesAt version t r := by
  induction versions generalizing w with
  | nil => exact iff_of_true rfl nofun
  | cons version rest ih =>
      have hFirst := dryRun_eq_ok_iff hClock r version w
      rw [verdicts, Program.run_bind_eq, Program.run_bind_eq,
        List.forall_mem_cons, ← hFirst, ← ih]
      generalize ((dryRun .builtin r version).run s w).1 = x
      cases x with
      | error e =>
          constructor
          · intro hNil
            cases hNil
          · rintro ⟨hOk, -⟩
            cases hOk
      | ok _ => exact (and_iff_right rfl).symm

theorem exitCode_answer_eq_zero_iff
    (path : Path)
    (r : Registry)
    (list : List Verdict) :
    (answer path r list).exitCode = 0 ↔ rejected list = [] := by
  cases hRejected : rejected list with
  | nil =>
      simp only [answer, hRejected]
      exact iff_of_true rfl trivial
  | cons version rest =>
      simp only [answer, hRejected]
      exact iff_of_false nofun nofun

/-
  A check succeeds exactly if there is a registry in the file
  and both documents of each version pass. A certificate that
  does not pass the gate makes it fail like anything else.
-/
theorem exitCode_check_eq_zero_iff
    (hFaultless : s.IsFaultless)
    (hClock : ∀ step, (s.instant step).IsLike t)
    (path : Path)
    (w : World) :
    ((check path).run s w).1.exitCode = 0 ↔
      ∃ r, Registry.inTree path w.tree = .ok r ∧
        GeneratorSet.builtin.PassesAll t r := by
  rw [check, Program.run_bind_eq,
    Registry.run_load path hFaultless]
  cases Registry.inTree path w.tree with
  | error e =>
      refine iff_of_false ?_ nofun
      cases e <;> exact nofun
  | ok r =>
      dsimp only
      rw [Program.run_bind_eq]
      apply (exitCode_answer_eq_zero_iff _ _ _).trans
      rw [rejected_eq_nil_iff hClock]
      constructor
      · intro hAll
        exact ⟨r, rfl, hAll⟩
      · rintro ⟨_, hSame, hAll⟩
        cases hSame
        exact hAll

------------------------------------------------------------
-- The Command
------------------------------------------------------------

variable {environment : Settings.Environment}
variable {shared : SharedArguments}
variable {registry : String}

/-
  The registry that a check is about: the one that arguments
  name, or else that of the settings.
-/
inductive Concerns
    (s : Surroundings)
    (environment : Settings.Environment)
    (shared : SharedArguments)
    (w : World)
    (registry : String) : Option Path → Prop
| named :
    Concerns s environment shared w registry
      (some (.ofText registry))
| configured
    {settings : Settings}
    (hLoad : ((Settings.load shared.config
      environment).run s w).1 = .ok settings)
    (hRegistry : settings.registry = some registry) :
    Concerns s environment shared w registry none

theorem exitCode_reply_eq_zero_iff
    {path : Option Path}
    (hFaultless : s.IsFaultless)
    (hClock : ∀ step, (s.instant step).IsLike t)
    (hConcerns : Concerns s environment shared w registry
      path) :
    ((reply environment shared path).run s w).1.exitCode = 0 ↔
      ∃ r, Registry.inTree (.ofText registry) w.tree = .ok r ∧
        GeneratorSet.builtin.PassesAll t r := by
  cases hConcerns with
  | named =>
      exact exitCode_check_eq_zero_iff hFaultless hClock _ w
  | configured hLoad hRegistry =>
      have hTree : ((Settings.load shared.config
          environment).run s w).2.tree = w.tree :=
        (Settings.behaves_load _ _).tree_run s w
      rw [reply, Program.run_bind_eq, hLoad]
      dsimp only
      rw [hRegistry, ← hTree]
      exact exitCode_check_eq_zero_iff hFaultless hClock _ _

end RegistryCheck

end Federation
