import Federation.Proofs.Run.Report

/-
  Histories of runs that publish below one root, which is
  empty at first. Whatever the generators are, and whichever
  way the steps of a run alternate, every run keeps the root
  sound.

  Main declarations:
    * `Run.hasSoundRoot_execute`
    * `Run.history`
    * `Run.hasSoundRoot_history`
    * `Run.IsEmptyRoot`
-/

namespace Federation

namespace Run

open Publication (HasSoundRoot)

variable {s : Surroundings}
variable {root : Path}
variable {plan : Plan}
variable {w : World}

------------------------------------------------------------
-- Runs
------------------------------------------------------------

/- A run that reports on all of its versions keeps the root sound. -/
theorem Completes.hasSoundRoot
    {current : Version}
    {report : RunReport}
    {before : Tree}
    (hCompletes : Completes root plan current before report w)
    (hSound : Publication.IsSound before) :
    HasSoundRoot root w.tree := by
  rcases hCompletes.outcome with ⟨done, hOutcome, hIndex⟩
  have hDone := hOutcome.hasSoundRoot hSound
  split at hIndex
  · rename_i hMarked
    rcases (hCompletes.marked.mp hMarked).2 with
      ⟨o, hMem, rfl, hState⟩
    exact hIndex.hasSoundRoot hDone.sound
      (hOutcome.hasBundle hMem hState)
  · rw [hIndex]
    exact hDone

/-
  A run keeps a root sound, however it ends, and whatever
  its generators have generated and approved of.
-/
theorem hasSoundRoot_execute
    (hFaultless : s.IsFaultless)
    (hInstants : ∀ step, (s.instant step).IsRepresentable)
    (hPlan : plan.PublishesTo root)
    (hRoot : HasSoundRoot root w.tree) :
    HasSoundRoot root ((execute plan).run s w).2.tree := by
  rcases execute_cases hFaultless hInstants hPlan hRoot with
    ⟨cause, w', hRun, hTree⟩ |
    ⟨report, fault, w', hRun, hTree, -⟩ |
    ⟨report, current, w', hRun, hCompletes⟩ <;> rw [hRun]
  · exact hTree ▸ hRoot
  · exact hTree ▸ hRoot
  · exact hCompletes.hasSoundRoot hRoot.sound

------------------------------------------------------------
-- Histories
------------------------------------------------------------

/- The worlds after each of some runs that follow each other. -/
def history (s : Surroundings) : List Plan → World → List World
| [], _ => []
| plan :: plans, w =>
    let w := ((execute plan).run s w).2
    w :: history s plans w

theorem hasSoundRoot_history
    {plans : List Plan}
    (hFaultless : s.IsFaultless)
    (hInstants : ∀ step, (s.instant step).IsRepresentable)
    (hPlans : ∀ plan ∈ plans, plan.PublishesTo root)
    (hRoot : HasSoundRoot root w.tree) :
    ∀ w' ∈ history s plans w, HasSoundRoot root w'.tree := by
  induction plans generalizing w with
  | nil => exact fun _ hMem => nomatch hMem
  | cons plan plans ih =>
      rw [List.forall_mem_cons] at hPlans
      have hNext := hasSoundRoot_execute hFaultless hInstants
        hPlans.1 hRoot
      rw [history, List.forall_mem_cons]
      exact ⟨hNext, ih hPlans.2 hNext⟩

/-
  A root without entries, once it has been created; the
  directories that its path leads back from are there.
-/
def IsEmptyRoot (root : Path) (tree : Tree) : Prop :=
  ∃ tree', Tree.createAll root.names tree = .ok tree' ∧
    tree'.find root.names = .ok (.directory []) ∧
    ∀ names ∈ root.passed, tree'.HasDirectory names

variable {tree : Tree}

theorem IsEmptyRoot.hasSoundRoot
    (hEmpty : IsEmptyRoot root tree) :
    HasSoundRoot root tree := by
  rcases hEmpty with ⟨tree', hCreate, hFound, hPassed⟩
  have hOutside : ∀ names ∈ root.passed,
      Tree.IsOutside root.names names := by
    rintro names hMem first rest rfl
    rcases hPassed _ hMem with ⟨inner, hInner⟩
    rw [Tree.find_append hFound] at hInner
    cases hInner
  have hEntries : tree.entriesAt root = [] := by
    rcases Tree.find_of_createAll hCreate hFound with
      hThere | ⟨hMissing, -⟩
    · exact Tree.entriesAt_eq hThere
    · rw [Tree.entriesAt, hMissing]
  refine ⟨⟨tree', hCreate,
    ⟨⟨[], hFound⟩, hPassed, hOutside⟩, ?_⟩, ?_⟩
  · rw [hEntries, Tree.entriesAt_eq hFound]
  · rw [hEntries]
    exact Publication.isSound_nil

/- Surroundings of one instant and one name. -/
def still : Surroundings where
  instant _ := ⟨0, 0⟩
  name _ := "a"
  failure _ := none
  isCancelled _ := false

theorem isRepresentable_still (step : Nat) :
    (still.instant step).IsRepresentable := by
  have hStart : Instant.IsRepresentable ⟨0, 0⟩ := by decide
  exact hStart

theorem isEmptyRoot_small :
    IsEmptyRoot (.ofText "out") [] := by
  have hPassed : (Path.ofText "out").passed = [] := by decide
  refine ⟨_, rfl, rfl, ?_⟩
  rw [hPassed]
  exact fun _ hMem => nomatch hMem

end Run

end Federation
