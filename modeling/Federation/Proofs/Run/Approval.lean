import Federation.Proofs.Generation.Passing
import Federation.Proofs.Generation.WellFormed
import Federation.Proofs.Run.Fate

/-
  When a draft of the library's own generators is approved of:
  exactly if both its documents pass at the instants at which
  they are generated. A version then meets the fate of being
  published.

  Main declarations:
    * `Generator.IsApproved`
    * `Generator.isApproved_iff`
    * `Run.run_draft`
    * `Publisher.IsReliable`
    * `Run.run_process`
    * `Run.state_of_fate_iff`
    * `GeneratorSet.PassesAt`, `GeneratorSet.PassesAll`
    * `Run.published_iff_passesAt`
-/

namespace Federation

open VersionOutcome (advance_eq_ok reject_eq_ok)

namespace Generator

variable {g : Generator} {kind : DocumentKind}
variable {t first second : Instant}
variable {r : Registry}

------------------------------------------------------------
-- Drafts
------------------------------------------------------------

/- A document of the library has a digest at any instant. -/
theorem digest_isOk_of_generate
    {d : Document kind}
    (hBuiltin : g = .v1 ∨ g = .v2)
    (hGenerate : g.generate kind t r = .ok d) :
    ∃ digest, d.digest = .ok digest := by
  have hPlain := Instant.isPlain_start
  rcases hidesClock hBuiltin t r d hGenerate ⟨1735689600, 0⟩ with
    ⟨e, hSame⟩
  rw [← hSame.digest]
  have hLater := hSame.generated
  cases kind with
  | privateParameters =>
      rcases hBuiltin with rfl | rfl
      · exact (valid_generated_privateV1 hPlain hLater).1
      · exact (valid_generated_privateV2 hPlain hLater).1
  | sharedParameters =>
      rcases hBuiltin with rfl | rfl
      · exact (valid_generated_sharedV1 hPlain hLater).1
      · exact (valid_generated_sharedV2 hPlain hLater).1

/-
  The draft of a registry, its documents generated at two
  instants, is approved of for the generator's version.
-/
def IsApproved
    (g : Generator)
    (r : Registry)
    (first second : Instant) : Prop :=
  ∃ d b, Run.draftAt g r first second = .ok d ∧
    Run.approve g g.version d = .ok b

/- The documents of a draft are those that are generated. -/
theorem generate_of_draftAt
    {d : Run.Draft}
    (hDraft : Run.draftAt g r first second = .ok d) :
    g.generate .privateParameters first r =
        .ok d.privateParameters ∧
      g.generate .sharedParameters second r =
        .ok d.sharedParameters := by
  rw [Run.draftAt] at hDraft
  cases hPrivate :
      g.generate .privateParameters first r with
  | error e =>
      rw [hPrivate] at hDraft
      cases hDraft
  | ok privateParameters =>
      rw [hPrivate] at hDraft
      cases hShared :
          g.generate .sharedParameters second r with
      | error e =>
          rw [hShared] at hDraft
          cases hDraft
      | ok sharedParameters =>
          rw [hShared] at hDraft
          dsimp only at hDraft
          cases hDigests : Run.Draft.ofDocuments
              privateParameters sharedParameters with
          | error fault =>
              rw [hDigests] at hDraft
              cases hDraft
          | ok made =>
              rw [hDigests] at hDraft
              cases hDraft
              rcases Reading.exists_of_bind_eq_ok hDigests with
                ⟨_, _, hRest⟩
              rcases Reading.exists_of_bind_eq_ok hRest with
                ⟨_, _, hMade⟩
              cases hMade
              exact ⟨rfl, rfl⟩

/- A document of the library is one of its generator's version. -/
theorem version_of_generate
    {d : Document kind}
    (hBuiltin : g = .v1 ∨ g = .v2)
    (hGenerate : g.generate kind t r = .ok d) :
    d.version = g.version := by
  rcases exists_content hBuiltin with ⟨content, hSame, -⟩
  rw [hSame] at hGenerate
  rcases generate_ofContent_iff.mp hGenerate with ⟨_, -, rfl⟩
  rfl

/- The generators of the library judge a document as all do. -/
theorem validateDocument_of_validate
    {d : Document kind}
    (hBuiltin : g = .v1 ∨ g = .v2)
    (hValid : g.validate kind d = .ok ()) :
    Validation.validateDocument g.version d = .ok () := by
  rcases exists_content hBuiltin with ⟨content, hSame, -⟩
  rw [hSame] at hValid
  exact hValid

/- Documents that can be generated make a draft. -/
theorem exists_draftAt
    {d : Document .privateParameters}
    {e : Document .sharedParameters}
    (hBuiltin : g = .v1 ∨ g = .v2)
    (hPrivate : g.generate .privateParameters first r = .ok d)
    (hShared : g.generate .sharedParameters second r = .ok e) :
    ∃ digest digest', Run.draftAt g r first second =
      .ok ⟨d, e, digest, digest'⟩ := by
  rcases digest_isOk_of_generate hBuiltin hPrivate with
    ⟨digest, hDigest⟩
  rcases digest_isOk_of_generate hBuiltin hShared with
    ⟨digest', hDigest'⟩
  refine ⟨digest, digest', ?_⟩
  rw [Run.draftAt, hPrivate]
  dsimp only
  rw [hShared]
  dsimp only
  rw [Run.Draft.ofDocuments, hDigest, hDigest']
  rfl

/-
  A draft is approved of exactly if both its documents pass.
  That they are judged a second time, as parts of a bundle,
  does not matter, and neither do their digests.
-/
theorem isApproved_iff
    (hBuiltin : g = .v1 ∨ g = .v2) :
    g.IsApproved r first second ↔
      g.PassesAt .privateParameters first r ∧
        g.PassesAt .sharedParameters second r := by
  constructor
  · rintro ⟨d, b, hDraft, hApprove⟩
    rcases generate_of_draftAt hDraft with
      ⟨hPrivate, hShared⟩
    rcases Reading.exists_of_bind_eq_ok hApprove with
      ⟨_, hFirst, hRest⟩
    rcases Reading.exists_of_bind_eq_ok hRest with
      ⟨_, hSecond, -⟩
    exact ⟨⟨_, hPrivate, hFirst⟩, ⟨_, hShared, hSecond⟩⟩
  · rintro ⟨⟨d, hPrivate, hFirst⟩, ⟨e, hShared, hSecond⟩⟩
    rcases exists_draftAt hBuiltin hPrivate hShared with
      ⟨digest, digest', hDraft⟩
    have hVersion := version_of_generate hBuiltin hPrivate
    have hVersion' := version_of_generate hBuiltin hShared
    refine ⟨_, ⟨g.version, d, e, digest, digest', hVersion,
      hVersion'⟩, hDraft, ?_⟩
    rw [Run.approve, hFirst, hSecond, Bundle.new,
      dif_pos hVersion, dif_pos hVersion']
    dsimp only [bind, Except.bind]
    rw [validateDocument_of_validate hBuiltin hFirst,
      validateDocument_of_validate hBuiltin hSecond]
    rfl

end Generator

------------------------------------------------------------
-- Runs and Fates
------------------------------------------------------------

/- A draft is made at the instants of two steps of a run. -/
theorem Run.run_draft
    (s : Surroundings)
    (g : Generator)
    (r : Registry)
    (w : World) :
    ((draft g r).run s w).1 =
      draftAt g r (s.instant w.steps)
        (s.instant (w.steps + 1)) := by
  have hNext : w.advance.steps = w.steps + 1 := rfl
  rw [draft, Program.run_bind_eq, Program.run_now, draftAt]
  cases g.generate .privateParameters (s.instant w.steps) r with
  | error e => rfl
  | ok privateParameters =>
      dsimp only
      rw [Program.run_bind_eq, Program.run_now, hNext]
      cases g.generate .sharedParameters
          (s.instant (w.steps + 1)) r <;> rfl

/-
  In some surroundings a publisher does not fail to publish a
  bundle of a version over a tree.
-/
def Publisher.IsReliable
    (s : Surroundings)
    (version : Version)
    (tree : Tree)
    (publisher : Publisher) : Prop :=
  ∀ b : Bundle, b.version = version → ∀ w, w.tree = tree →
    ((publisher.publish b).run s w).1 = .ok ()

/-
  A version that is not cancelled comes to its fate, if the
  publisher does not fail. When it is published is of no
  account for its outcome.
-/
theorem Run.run_process
    {s : Surroundings}
    {publisher : Publisher}
    {w : World}
    (generators : GeneratorSet)
    (r : Registry)
    (version : Version)
    (publishedAt : Instant)
    (hReliable : publisher.IsReliable s version w.tree)
    (hUncancelled : s.isCancelled w.checks = false) :
    ((process generators publisher r version).run s w).1 =
      .ok (fate generators r version
        ⟨s.instant (w.steps + 1), s.instant (w.steps + 2),
          publishedAt⟩).outcome := by
  have hAsked : Program.isCancelled.run s w =
      (false, { w.advance with checks := w.checks + 1 }) := by
    rw [← hUncancelled]
    rfl
  rw [process_eq, Program.run_bind, hAsked]
  dsimp only
  rw [if_neg Bool.false_ne_true, generateVersion, fate]
  dsimp only [started]
  cases generators.get version (.generate .privateParameters) with
  | error e => exact reject_eq_ok rfl _ _
  | ok g =>
      dsimp only
      rw [Program.run_bind_eq, run_draft]
      dsimp only [World.advance]
      cases draftAt g r (s.instant (w.steps + 1))
          (s.instant (w.steps + 1 + 1)) with
      | error reason => exact reject_eq_ok rfl _ _
      | ok d =>
          have hJudged := advance_eq_ok
            (o := withDigests (started version) d) .validating
            rfl
          dsimp only [started] at hJudged ⊢
          rw [hJudged]
          dsimp only [publishDraft, fateOfDraft, withDigests]
          cases hApprove : approve g version d with
          | error e => exact reject_eq_ok rfl _ _
          | ok b =>
              have hVersion := version_of_approve hApprove
              have hTree : ∀ v,
                  ((draft g r).run s v).2.tree = v.tree :=
                (behaves_draft .now).tree_run s
              have hPublish := hReliable b hVersion _ (hTree
                { w.advance with checks := w.checks + 1 })
              dsimp only [World.advance] at hPublish ⊢
              rw [Program.run_bind_eq, hPublish]
              exact advance_eq_ok
                (o := { withDigests (started version) d with
                  state := .validating }) .published rfl

/- The fate of a version is to be published if it is approved. -/
theorem Run.state_of_fate_iff
    {generators : GeneratorSet}
    {g : Generator}
    {r : Registry}
    (t : Timing)
    (hGet : generators.get g.version
      (.generate .privateParameters) = .ok g) :
    (fate generators r g.version t).outcome.state = .published ↔
      g.IsApproved r t.privateAt t.sharedAt := by
  rcases fate_cases generators r g.version t with
    ⟨o, hFate, -, hState⟩ |
    ⟨generator, d, b, hSame, hDraft, hApprove, hFate⟩
  · rw [hFate]
    dsimp only
    rw [hState]
    refine ⟨nofun, ?_⟩
    rintro ⟨d, b, hDraft, hApprove⟩
    rw [fate, hGet] at hFate
    dsimp only at hFate
    rw [hDraft] at hFate
    dsimp only [fateOfDraft, withDigests, started] at hFate
    rw [hApprove] at hFate
    cases hFate
  · rw [hGet] at hSame
    cases hSame
    rw [hFate]
    exact iff_of_true rfl ⟨d, b, hDraft, hApprove⟩

------------------------------------------------------------
-- Sets of Generators
------------------------------------------------------------

namespace GeneratorSet

/- A version has a generator, and both its documents pass. -/
def PassesAt
    (generators : GeneratorSet)
    (version : Version)
    (t : Instant)
    (r : Registry) : Prop :=
  ∃ g, generators.table.get? version = some g ∧
    ∀ kind, g.PassesAt kind t r

/- Both documents of each version of a set pass. -/
def PassesAll
    (generators : GeneratorSet)
    (t : Instant)
    (r : Registry) : Prop :=
  ∀ version ∈ generators.versions,
    generators.PassesAt version t r

theorem get_eq_of_get?
    {generators : GeneratorSet}
    {g : Generator}
    {version : Version}
    (hGet : generators.table.get? version = some g)
    (operation : GeneratorOperation) :
    generators.get version operation = .ok g := by
  rw [get, hGet]

/- The set of the library has no other generators than these. -/
theorem builtin_of_get?
    {g : Generator}
    {version : Version}
    (hGet : builtin.table.get? version = some g) :
    g.version = version ∧ (g = .v1 ∨ g = .v2) := by
  have hMem := mem_of_get
    (get_eq_of_get? hGet (.generate .privateParameters))
  simp only [builtin, List.mem_cons, Prod.mk.injEq,
    List.not_mem_nil, or_false] at hMem
  rcases hMem with ⟨rfl, rfl⟩ | ⟨rfl, rfl⟩
  · exact ⟨rfl, Or.inl rfl⟩
  · exact ⟨rfl, Or.inr rfl⟩

end GeneratorSet

/-
  The fate of a version of the library is to be published if
  both its documents pass. Of the instants it is told nothing
  matters but whether they are timestamps.
-/
theorem Run.published_iff_passesAt
    {version : Version}
    {t : Instant}
    {r : Registry}
    {timing : Timing}
    (hPrivate : timing.privateAt.IsLike t)
    (hShared : timing.sharedAt.IsLike t) :
    (fate .builtin r version timing).outcome.state =
        .published ↔
      GeneratorSet.builtin.PassesAt version t r := by
  cases hGet : GeneratorSet.builtin.table.get? version with
  | none =>
      constructor
      · intro hState
        rw [fate, GeneratorSet.get, hGet] at hState
        cases hState
      · rintro ⟨g, hOther, -⟩
        rw [hGet] at hOther
        cases hOther
  | some g =>
      rcases GeneratorSet.builtin_of_get? hGet with
        ⟨rfl, hBuiltin⟩
      have hFate := state_of_fate_iff (r := r) timing
        (GeneratorSet.get_eq_of_get? hGet _)
      rw [hFate, Generator.isApproved_iff hBuiltin,
        Generator.passesAt_congr hBuiltin hPrivate,
        Generator.passesAt_congr hBuiltin hShared]
      constructor
      · rintro ⟨hFirst, hSecond⟩
        refine ⟨g, hGet, fun kind => ?_⟩
        cases kind with
        | privateParameters => exact hFirst
        | sharedParameters => exact hSecond
      · rintro ⟨other, hOther, hPasses⟩
        rw [hGet] at hOther
        cases hOther
        exact ⟨hPasses .privateParameters,
          hPasses .sharedParameters⟩

end Federation
