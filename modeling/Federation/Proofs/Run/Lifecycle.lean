import Federation.Proofs.Reading.Document
import Federation.Proofs.Storage.Confined
import Federation.Run.Basic

/-
  What becomes of the versions of a run, whatever the run is
  answered: with any generators and any publisher, in any
  surroundings. No version goes from a state to one that may
  not follow, and each ends in a state that tells which parts
  of its outcome there are.

  Main declarations:
    * `VersionOutcome.IsWellFormed`
    * `Run.IsDecided`, `Run.IsSettled`
    * `Run.behaves_generateVersion`
    * `Run.behaves_process`
    * `Run.exists_outcomes`
-/

namespace Federation

------------------------------------------------------------
-- Outcomes
------------------------------------------------------------

namespace VersionOutcome

/- There is a digest of each document. -/
def HasDigests (o : VersionOutcome) : Prop :=
  o.privateDigest.isSome ∧ o.sharedDigest.isSome

/- There is no digest of any document. -/
def LacksDigests (o : VersionOutcome) : Prop :=
  o.privateDigest = none ∧ o.sharedDigest = none

/- The digests that a version has in a part of a run. -/
def HasDigestsOf (o : VersionOutcome) : RejectionStage → Prop
| .generation => o.LacksDigests
| .validation => o.HasDigests
| .publication => o.HasDigests

/-
  An outcome in which a version goes no further. Its state
  tells whether there are digests and a rejection; a version
  that is rejected has the digests of that part of the run.
-/
structure IsWellFormed (o : VersionOutcome) : Prop where
  terminal : o.state.isTerminal = true
  published : o.state = .published →
    o.HasDigests ∧ o.rejection = none
  rejected : o.state = .rejected ↔ o.rejection.isSome
  digests : ∀ rejection, o.rejection = some rejection →
    o.HasDigestsOf rejection.stage
  abandoned : o.state = .abandoned →
    o.LacksDigests ∧ o.rejection = none

variable {o : VersionOutcome}

theorem advance_eq_ok
    (state : VersionState)
    (hMay : o.state.mayBecome state = true) :
    o.advance state = .ok { o with state } :=
  if_pos hMay

theorem reject_eq_ok
    (hMay : o.state.mayBecome .rejected = true)
    (stage : RejectionStage)
    (reason : String) :
    o.reject stage reason =
      .ok { o with
        state := .rejected
        rejection := some ⟨stage, reason⟩ } := by
  rw [reject, advance_eq_ok _ hMay]
  rfl

theorem isWellFormed_published
    (hDigests : o.HasDigests)
    (hRejection : o.rejection = none) :
    IsWellFormed { o with state := .published } where
  terminal := rfl
  published _ := ⟨hDigests, hRejection⟩
  rejected := by simp [hRejection]
  digests rejection hSome := by
    rw [hRejection] at hSome
    cases hSome
  abandoned hState := by cases hState

theorem isWellFormed_rejected
    {stage : RejectionStage}
    {reason : String}
    (hDigests : o.HasDigestsOf stage) :
    IsWellFormed { o with
      state := .rejected
      rejection := some ⟨stage, reason⟩ } where
  terminal := rfl
  published hState := by cases hState
  rejected := by simp
  digests rejection hSome := by
    cases hSome
    exact hDigests
  abandoned hState := by cases hState

theorem isWellFormed_abandoned (version : Version) :
    IsWellFormed ⟨version, .abandoned, none, none, none⟩ where
  terminal := rfl
  published hState := by cases hState
  rejected := by simp
  digests rejection hSome := by cases hSome
  abandoned _ := ⟨⟨rfl, rfl⟩, rfl⟩

end VersionOutcome

namespace Run

open Reading (exists_of_bind_eq_ok)
open VersionOutcome (advance_eq_ok reject_eq_ok)

variable {publisher : Publisher}
variable {generators : GeneratorSet}
variable {generator : Generator}
variable {r : Registry}
variable {version : Version}
variable {o : VersionOutcome}
variable {d : Draft}
variable {allowed : Operation → Prop}

------------------------------------------------------------
-- Versions
------------------------------------------------------------

/-
  The bundle that is approved of is the draft's, for the
  version asked for, and both documents are valid for it.
-/
theorem exists_of_approve
    {b : Bundle}
    (hApprove : approve generator version d = .ok b) :
    ∃ hPrivate hShared,
      b = ⟨version, d.privateParameters, d.sharedParameters,
        d.privateDigest, d.sharedDigest, hPrivate,
        hShared⟩ ∧
      Validation.validateDocument version
        d.privateParameters = .ok () ∧
      Validation.validateDocument version
        d.sharedParameters = .ok () := by
  rcases exists_of_bind_eq_ok hApprove with ⟨_, _, hRest⟩
  rcases exists_of_bind_eq_ok hRest with ⟨_, _, hRest⟩
  rcases exists_of_bind_eq_ok hRest with
    ⟨bundle, hBundle, hRest⟩
  rcases exists_of_bind_eq_ok hRest with
    ⟨_, hPrivate, hRest⟩
  rcases exists_of_bind_eq_ok hRest with
    ⟨_, hShared, hRest⟩
  cases hRest
  rw [Bundle.new] at hBundle
  split at hBundle
  · split at hBundle
    · cases hBundle
      exact ⟨_, _, rfl, hPrivate, hShared⟩
    · cases hBundle
  · cases hBundle

theorem version_of_approve
    {b : Bundle}
    (hApprove : approve generator version d = .ok b) :
    b.version = version := by
  rcases exists_of_approve hApprove with ⟨_, _, rfl, -⟩
  rfl

/- A version that has been started is published or rejected. -/
def IsDecided
    (version : Version)
    (result : Except RunError VersionOutcome) : Prop :=
  ∃ o, result = .ok o ∧ o.version = version ∧
    o.IsWellFormed ∧ o.state ≠ .abandoned

theorem isDecided_reject
    (stage : RejectionStage)
    (reason : String)
    (hMay : o.state.mayBecome .rejected = true)
    (hDigests : o.HasDigestsOf stage) :
    IsDecided o.version (o.reject stage reason) := by
  rw [reject_eq_ok hMay]
  exact ⟨_, rfl, rfl,
    VersionOutcome.isWellFormed_rejected hDigests, nofun⟩

theorem behaves_draft
    (hNow : allowed .now) :
    (draft generator r).Behaves allowed fun _ => True := by
  apply (Program.behaves_ask hNow).bind
  intro first _
  cases generator.generate .privateParameters first r with
  | error e => trivial
  | ok privateParameters =>
      apply (Program.behaves_ask hNow).bind
      intro second _
      cases generator.generate .sharedParameters second r <;>
        trivial

/- To publish is all that is done with a draft. -/
theorem behaves_publishDraft
    (hPublish : ∀ b : Bundle, b.version = o.version →
      (publisher.publish b).Behaves allowed fun _ => True)
    (hState : o.state = .validating)
    (hDigests : o.HasDigests)
    (hRejection : o.rejection = none) :
    (publishDraft publisher generator d o).Behaves allowed
      (IsDecided o.version) := by
  have hMay : o.state.mayBecome .rejected = true := by
    rw [hState]
    rfl
  rw [publishDraft]
  cases hApprove : approve generator o.version d with
  | error e =>
      exact isDecided_reject _ e.message hMay hDigests
  | ok b =>
      apply (hPublish b (version_of_approve hApprove)).bind
      intro a _
      cases a with
      | error e =>
          exact isDecided_reject _ e.message hMay hDigests
      | ok _ =>
          have hAdvance := advance_eq_ok (o := o) .published
            (by rw [hState]; rfl)
          exact ⟨_, hAdvance, rfl,
            VersionOutcome.isWellFormed_published hDigests
              hRejection, nofun⟩

theorem behaves_generateVersion
    (hNow : allowed .now)
    (hPublish : ∀ b : Bundle, b.version = o.version →
      (publisher.publish b).Behaves allowed fun _ => True)
    (hState : o.state = .generating)
    (hDigests : o.LacksDigests)
    (hRejection : o.rejection = none) :
    (generateVersion generators publisher r o).Behaves
      allowed (IsDecided o.version) := by
  have hMay : o.state.mayBecome .rejected = true := by
    rw [hState]
    rfl
  rw [generateVersion]
  cases generators.get o.version
      (.generate .privateParameters) with
  | error e =>
      exact isDecided_reject _ e.message hMay hDigests
  | ok generator =>
      apply (behaves_draft hNow).bind
      intro a _
      cases a with
      | error reason =>
          exact isDecided_reject _ reason hMay hDigests
      | ok d =>
          have hAdvance := advance_eq_ok (o := withDigests o d)
            .validating (by rw [withDigests, hState]; rfl)
          dsimp only
          rw [hAdvance]
          exact behaves_publishDraft
            (o := { withDigests o d with state := .validating })
            hPublish rfl ⟨rfl, rfl⟩ hRejection

/- The outcome of a version that is not started. -/
def abandoned (version : Version) : VersionOutcome :=
  ⟨version, .abandoned, none, none, none⟩

/- A version that is not cancelled goes on from here. -/
def started (version : Version) : VersionOutcome :=
  ⟨version, .generating, none, none, none⟩

/- A version is started if the flag is not set. -/
theorem process_eq
    (generators : GeneratorSet)
    (publisher : Publisher)
    (r : Registry)
    (version : Version) :
    process generators publisher r version =
      Program.isCancelled.bind fun isCancelled =>
        if isCancelled then
          .done (.ok (abandoned version))
        else
          generateVersion generators publisher r
            (started version) := by
  rfl

/-
  A version is abandoned before anything is done for it, or
  else it is published or rejected.
-/
def IsSettled
    (version : Version)
    (result : Except RunError VersionOutcome) : Prop :=
  result = .ok (abandoned version) ∨
    IsDecided version result

theorem IsSettled.exists_isWellFormed
    {result : Except RunError VersionOutcome}
    (hSettled : IsSettled version result) :
    ∃ o, result = .ok o ∧ o.version = version ∧
      o.IsWellFormed := by
  rcases hSettled with
    rfl | ⟨o, rfl, hVersion, hFormed, -⟩
  · exact ⟨_, rfl, rfl,
      VersionOutcome.isWellFormed_abandoned version⟩
  · exact ⟨o, rfl, hVersion, hFormed⟩

/- Whatever a version is answered, it ends in a terminal state. -/
theorem behaves_process
    (hCancelled : allowed .isCancelled)
    (hNow : allowed .now)
    (hPublish : ∀ b : Bundle, b.version = version →
      (publisher.publish b).Behaves allowed fun _ => True) :
    (process generators publisher r version).Behaves allowed
      (IsSettled version) := by
  rw [process_eq]
  apply (Program.behaves_ask hCancelled).bind
  intro isCancelled _
  cases isCancelled with
  | true => exact Or.inl rfl
  | false =>
      exact (behaves_generateVersion (o := started version)
        hNow hPublish rfl ⟨rfl, rfl⟩ rfl).mono
        (fun _ hAllowed => hAllowed) fun _ => Or.inr

------------------------------------------------------------
-- Outcomes of All Versions
------------------------------------------------------------

/- There are outcomes of all versions if there is one of each. -/
theorem exists_outcomes
    {ends : Version → VersionOutcome → Prop}
    {versions : List Version}
    {results : List (Except RunError VersionOutcome)}
    (hEnded : List.Forall₂
      (fun version result =>
        ∃ o, result = .ok o ∧ ends version o)
      versions results) :
    ∃ outcomes, results.mapM id = .ok outcomes ∧
      List.Forall₂ ends versions outcomes := by
  induction hEnded with
  | nil => exact ⟨[], rfl, .nil⟩
  | cons hFirst _ ih =>
      rcases hFirst with ⟨o, rfl, hEnds⟩
      rcases ih with ⟨outcomes, hRest, hAll⟩
      refine ⟨o :: outcomes, ?_, .cons hEnds hAll⟩
      rw [List.mapM_cons, hRest]
      rfl

/- What outcomes tell of their versions, each tells of its own. -/
theorem of_mem_outcomes
    {ends : Version → VersionOutcome → Prop}
    {versions : List Version}
    {outcomes : List VersionOutcome}
    (hConcerns : ∀ version o, ends version o →
      o.version = version)
    (hEach : List.Forall₂ ends versions outcomes)
    (hMem : o ∈ outcomes) :
    ends o.version o := by
  induction hEach with
  | nil => cases hMem
  | cons hFirst _ ih =>
      rcases List.mem_cons.mp hMem with rfl | hLater
      · rw [hConcerns _ _ hFirst]
        exact hFirst
      · exact ih hLater

/- Each outcome is of its version, and there are no others. -/
theorem isWellFormed_of_outcomes
    {versions : List Version}
    {outcomes : List VersionOutcome}
    (hAll : List.Forall₂
      (fun version o => o.version = version ∧ o.IsWellFormed)
      versions outcomes) :
    outcomes.map VersionOutcome.version = versions ∧
      ∀ o ∈ outcomes, o.IsWellFormed := by
  induction hAll with
  | nil => exact ⟨rfl, List.forall_mem_nil _⟩
  | cons hFirst _ ih =>
      rw [List.map_cons, hFirst.1, ih.1, List.forall_mem_cons]
      exact ⟨rfl, hFirst.2, ih.2⟩

end Run

end Federation
