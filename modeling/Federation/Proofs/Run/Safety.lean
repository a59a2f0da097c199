import Federation.Proofs.Generation.Refinement
import Federation.Proofs.Run.Calm
import Federation.Proofs.Run.CurrentVersion

/-
  What there is to be found below a root, empty at first, after
  every run of any history: nothing but sound bundles and an
  index of them. So even if a generator gives documents of some
  other version, and approves of them, since these are refused.

  Main declarations:
    * `Run.IsPublicationRoot`
    * `Run.rejected_of_other_version`
    * `Run.isPublicationRoot_history`
-/

namespace Federation

namespace Run

open Publication (HasSoundRoot)

variable {s : Surroundings}
variable {told : Instant → Prop}
variable {root : Path}
variable {plan : Plan}
variable {generators : GeneratorSet}
variable {generator : Generator}
variable {r : Registry}
variable {version : Version}
variable {tree : Tree}
variable {w : World}

------------------------------------------------------------
-- Publication Roots
------------------------------------------------------------

/- A root that is not there or holds what it may hold. -/
def IsPublicationRoot (root : Path) (tree : Tree) : Prop :=
  tree.find root.names = .error .notFound ∨
    ∃ entries,
      tree.find root.names = .ok (.directory entries) ∧
      Publication.IsSound entries

theorem isPublicationRoot_of_hasSoundRoot
    (hRoot : HasSoundRoot root tree) :
    IsPublicationRoot root tree := by
  rcases hRoot.canHave with ⟨tree', hCreate, hThere, hSame⟩
  have hFound := hThere.find
  rw [hSame] at hFound
  rcases Tree.find_of_createAll hCreate hFound with
    hOk | ⟨hMissing, -⟩
  · exact Or.inr ⟨_, hOk, hRoot.sound⟩
  · exact Or.inl hMissing

------------------------------------------------------------
-- Documents of Other Versions
------------------------------------------------------------

/-
  A version whose generator gives documents of another one is
  rejected, whatever the generator approves of.
-/
theorem rejected_of_other_version
    (hGet : generators.table.get? version = some generator)
    (hOther : ∀ t d,
      generator.generate .privateParameters t r = .ok d →
        d.version ≠ version)
    (t : Timing) :
    (fate generators r version t).outcome.state =
      .rejected := by
  rcases fate_cases generators r version t with
    ⟨o, hFate, -, hState⟩ |
    ⟨found, d, b, hFound, hDraft, hApprove, -⟩
  · rw [hFate]
    exact hState
  · rw [GeneratorSet.get_eq_of_get? hGet] at hFound
    cases hFound
    have hPrivate := (Generator.generate_of_draftAt hDraft).1
    rcases exists_of_approve hApprove with ⟨hVersion, -⟩
    exact absurd hVersion (hOther _ _ hPrivate)

theorem ReportsFates.not_publishes
    {current : Version}
    {before : Tree}
    {report : RunReport}
    (hReports : ReportsFates told root generators r current
      before report w)
    (hGet : generators.table.get? version = some generator)
    (hOther : ∀ t d,
      generator.generate .privateParameters t r = .ok d →
        d.version ≠ version) :
    ¬report.Publishes version := by
  rintro ⟨o, hMem, rfl, hState⟩
  have hFate := of_mem_outcomes
    (fun _ _ hFate => ComesToFate.concerns hFate)
    hReports.each hMem
  rcases hFate with ⟨t, -, hOutcome, -⟩
  rw [hOutcome, rejected_of_other_version hGet hOther t]
    at hState
  cases hState

/-
  A generator whose documents declare some other version and
  hold nothing, and which approves of any document.
-/
def careless (version declared : Version) : Generator where
  version := version
  isEligible := true
  generate kind now _ := .ok (.new kind declared now [])
  validate _ _ := .ok ()

theorem formsDocuments_careless (version declared : Version) :
    (careless version declared).FormsDocuments := by
  intro kind t r d hTime hGenerate
  cases hGenerate
  exact Document.isWellFormed_new kind declared hTime
    ⟨.nil, fun _ hMem => nomatch hMem⟩

/- Its documents are not those of its version. -/
theorem version_of_careless
    {declared : Version}
    (hOther : declared ≠ version)
    (t : Instant)
    (d : Document .privateParameters)
    (hGenerate : (careless version declared).generate
      .privateParameters t r = .ok d) :
    d.version ≠ version := by
  cases hGenerate
  exact hOther

/- A run whose only generator is careless. -/
def carelessRun (root : Path) (r : Registry) : Plan :=
  { smallRun root r with
    generators := ⟨[(.v1, careless .v1 .v2)]⟩ }

theorem publishesTo_carelessRun
    (root : Path)
    (r : Registry) :
    (carelessRun root r).PublishesTo root := by
  have hKeys : ([.v1] : List Version).Pairwise (· < ·) := by
    decide
  refine ⟨rfl, ⟨Table.isOrdered_of_keys hKeys, ?_⟩,
    fun _ _ => rfl⟩
  simp [carelessRun, formsDocuments_careless]

/- Three runs with the same output directory. -/
def smallPlans : List Plan :=
  [ smallRun (.ofText "out") (.small .small),
    carelessRun (.ofText "out") (.small .small),
    Generate.plan .initial .builtin (.ofText "registry.json")
      (.ofText "out") ]

theorem publishesTo_smallPlans :
    ∀ plan ∈ smallPlans, plan.PublishesTo (.ofText "out") := by
  simp only [smallPlans, List.forall_mem_cons]
  exact ⟨publishesTo_smallRun _ _, publishesTo_carelessRun _ _,
    publishesTo_plan GeneratorSet.isProper_builtin _ _, nofun⟩

------------------------------------------------------------
-- Histories
------------------------------------------------------------

/-
  From an empty root on, after every run of any history of
  runs without failures: the directory of every version is a
  bundle whose documents are valid for the version and have
  the digests of its manifest, the index names a version that
  has a directory, and nothing else is below the root.
-/
theorem isPublicationRoot_history
    {plans : List Plan}
    (hFaultless : s.IsFaultless)
    (hInstants : ∀ step, (s.instant step).IsRepresentable)
    (hPlans : ∀ plan ∈ plans, plan.PublishesTo root)
    (hEmpty : IsEmptyRoot root tree) :
    ∀ w ∈ history s plans (World.ofTree tree),
      IsPublicationRoot root w.tree := by
  intro w hMem
  have hFirst : HasSoundRoot root (World.ofTree tree).tree :=
    hEmpty.hasSoundRoot
  exact isPublicationRoot_of_hasSoundRoot
    (hasSoundRoot_history hFaultless hInstants hPlans hFirst
      w hMem)

/-
  The first run publishes both versions. The second, whose
  generator gives documents of the second version for those of
  the first, does not publish the first. The third is the one
  of the command.
-/
theorem isPublicationRoot_history_small :
    ∃ first second third published refused,
      history still smallPlans (World.ofTree []) =
        [first, second, third] ∧
      (execute (smallRun (.ofText "out")
        (.small .small))).run still (World.ofTree []) =
          (.ok published, first) ∧
      (∀ version ∈ GeneratorSet.builtin.versions,
        published.Publishes version) ∧
      (execute (carelessRun (.ofText "out")
        (.small .small))).run still first =
          (.ok refused, second) ∧
      ¬refused.Publishes .v1 ∧
      ∀ w ∈ [first, second, third],
        IsPublicationRoot (.ofText "out") w.tree := by
  have hPlan := publishesTo_smallRun (.ofText "out")
    (.small .small)
  have hCareless := publishesTo_carelessRun (.ofText "out")
    (.small .small)
  have hTime : Instant.HasTimestamp ⟨0, 0⟩ :=
    Instant.IsPlain.hasTimestamp ⟨by decide, by decide⟩
  have hCalm : still.IsCalm fun u => u.IsLike ⟨0, 0⟩ :=
    ⟨fun _ => rfl, fun _ => rfl, fun _ => Iff.rfl⟩
  have hRoot : HasSoundRoot (.ofText "out")
      (World.ofTree []).tree :=
    isEmptyRoot_small.hasSoundRoot
  rcases execute_calm rfl hCalm hPlan hRoot rfl with
    ⟨published, first, hRun, hReports⟩
  have hNext : HasSoundRoot (.ofText "out") first.tree := by
    have hKept := hasSoundRoot_execute (s := still)
      (fun _ => rfl) isRepresentable_still hPlan hRoot
    rw [hRun] at hKept
    exact hKept
  rcases execute_calm rfl hCalm hCareless hNext rfl with
    ⟨refused, second, hRun', hReports'⟩
  have hHistory : ∃ third,
      history still smallPlans (World.ofTree []) =
        [first, second, third] := by
    simp only [smallPlans, history, hRun, hRun']
    exact ⟨_, rfl⟩
  rcases hHistory with ⟨third, hHistory⟩
  refine ⟨first, second, third, published, refused, hHistory,
    hRun,
    fun version => hReports.publishes
      (GeneratorSet.passesAll_small hTime), hRun',
    hReports'.not_publishes rfl
      (version_of_careless (by decide)), ?_⟩
  rw [← hHistory]
  exact isPublicationRoot_history (fun _ => rfl)
    isRepresentable_still publishesTo_smallPlans
    isEmptyRoot_small

end Run

end Federation
