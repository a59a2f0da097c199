import Federation.Proofs.Publication.Directory
import Federation.Proofs.Run.Lifecycle

/-
  What becomes of a version in surroundings without failures.
  Nothing but its generator, the registry and the instants that
  it is told decide on its outcome and on what is at its place,
  whatever is done at the places of other versions.

  Main declarations:
    * `Run.Timing`
    * `Run.fate`
    * `Run.fate_cases`
    * `Run.IsProcessed`
    * `Run.safely_processed`
-/

namespace Federation

namespace Run

open Program (Safely rootFrame Awaits Tracks)
open Publication (Owns HasFreshNames)
open VersionOutcome (advance_eq_ok reject_eq_ok)

variable {s : Surroundings}
variable {root : Path}
variable {generators : GeneratorSet}
variable {generator : Generator}
variable {r : Registry}
variable {version : Version}
variable {before : Tree}
variable {told : Instant → Prop}
variable {o : VersionOutcome}
variable {d : Draft}
variable {w : World}

------------------------------------------------------------
-- Drafts
------------------------------------------------------------

/- The draft of documents that are generated at two instants. -/
def draftAt
    (generator : Generator)
    (r : Registry)
    (first second : Instant) : Except String Draft :=
  match generator.generate .privateParameters first r with
  | .error e => .error e.message
  | .ok privateParameters =>
      match generator.generate .sharedParameters second r with
      | .error e => .error e.message
      | .ok sharedParameters =>
          (Draft.ofDocuments privateParameters
            sharedParameters).mapError Canonical.Fault.message

/- To generate is to be told two instants and nothing else. -/
theorem safely_draft
    {names : String → Prop}
    {known : World → Prop}
    (hTold : ∀ step, told (s.instant step))
    (hStable : Program.IsStable root names known)
    (hKnown : known w) :
    (draft generator r).Safely s (rootFrame root names) w
      fun a w =>
        (∃ first second, told first ∧ told second ∧
          a = draftAt generator r first second) ∧
        known w := by
  apply (Program.safely_now hTold hStable hKnown).bind
  rintro first v ⟨hFirst, hKnown⟩
  cases hPrivate :
      generator.generate .privateParameters first r with
  | error e =>
      intro v' hRely
      refine ⟨⟨first, first, hFirst, hFirst, ?_⟩,
        hStable _ _ hRely hKnown⟩
      rw [draftAt, hPrivate]
  | ok privateParameters =>
      apply (Program.safely_now hTold hStable hKnown).bind
      rintro second v ⟨hSecond, hKnown⟩
      cases hShared :
          generator.generate .sharedParameters second r with
      | error e =>
          intro v' hRely
          refine ⟨⟨first, second, hFirst, hSecond, ?_⟩,
            hStable _ _ hRely hKnown⟩
          simp only [draftAt, hPrivate, hShared]
      | ok sharedParameters =>
          intro v' hRely
          refine ⟨⟨first, second, hFirst, hSecond, ?_⟩,
            hStable _ _ hRely hKnown⟩
          simp only [draftAt, hPrivate, hShared]

------------------------------------------------------------
-- Fates
------------------------------------------------------------

/-
  The instants that a version is told: when its documents are
  generated, and when its bundle is published.
-/
structure Timing where
  privateAt : Instant
  sharedAt : Instant
  publishedAt : Instant

/- The instants are among those that are told. -/
structure Timing.IsTold
    (told : Instant → Prop)
    (t : Timing) : Prop where
  privateAt : told t.privateAt
  sharedAt : told t.sharedAt
  publishedAt : told t.publishedAt

/- An outcome, and the bundle if the version is published. -/
structure Fate where
  outcome : VersionOutcome
  bundle : Option Bundle

/- The fate of a version that is rejected. -/
def rejected
    (o : VersionOutcome)
    (stage : RejectionStage)
    (reason : String) : Fate where
  outcome :=
    { o with
      state := .rejected
      rejection := some ⟨stage, reason⟩ }
  bundle := none

/- The fate of a version with a draft. -/
def fateOfDraft
    (generator : Generator)
    (d : Draft)
    (o : VersionOutcome) : Fate :=
  match approve generator o.version d with
  | .error e => rejected o .validation e.message
  | .ok b => ⟨{ o with state := .published }, some b⟩

/- The fate of a version that is not cancelled. -/
def fate
    (generators : GeneratorSet)
    (r : Registry)
    (version : Version)
    (t : Timing) : Fate :=
  match generators.get version
      (.generate .privateParameters) with
  | .error e => rejected (started version) .generation e.message
  | .ok generator =>
      match draftAt generator r t.privateAt t.sharedAt with
      | .error reason =>
          rejected (started version) .generation reason
      | .ok d =>
          fateOfDraft generator d
            { withDigests (started version) d with
              state := .validating }

/- The entries of a root once a version has met its fate. -/
def Fate.entries
    (x : Fate)
    (publishedAt : Instant)
    (before : Tree) : Tree :=
  match x.bundle with
  | none => before
  | some b =>
      before.insert b.version.display
        (.directory (b.directory publishedAt))

theorem Fate.entries_published
    (o : VersionOutcome)
    (b : Bundle)
    (publishedAt : Instant)
    (before : Tree) :
    (Fate.mk o (some b)).entries publishedAt before =
      before.insert b.version.display
        (.directory (b.directory publishedAt)) :=
  rfl

/- A version is rejected, or else a bundle is approved of. -/
theorem fate_cases
    (generators : GeneratorSet)
    (r : Registry)
    (version : Version)
    (t : Timing) :
    (∃ o, fate generators r version t = ⟨o, none⟩ ∧
      o.version = version ∧ o.state = .rejected) ∨
    ∃ generator d b,
      generators.get version (.generate .privateParameters) =
        .ok generator ∧
      draftAt generator r t.privateAt t.sharedAt = .ok d ∧
      approve generator version d = .ok b ∧
      fate generators r version t =
        ⟨{ withDigests (started version) d with
          state := .published }, some b⟩ := by
  rw [fate]
  cases hGet : generators.get version
      (.generate .privateParameters) with
  | error e => exact Or.inl ⟨_, rfl, rfl, rfl⟩
  | ok generator =>
      dsimp only
      cases hDraft :
          draftAt generator r t.privateAt t.sharedAt with
      | error reason => exact Or.inl ⟨_, rfl, rfl, rfl⟩
      | ok d =>
          dsimp only [fateOfDraft, withDigests, started]
          cases hApprove : approve generator version d with
          | error e => exact Or.inl ⟨_, rfl, rfl, rfl⟩
          | ok b =>
              exact Or.inr ⟨generator, d, b, rfl, hDraft,
                hApprove, rfl⟩

theorem version_of_fate
    (generators : GeneratorSet)
    (r : Registry)
    (version : Version)
    (t : Timing) :
    (fate generators r version t).outcome.version =
      version := by
  rcases fate_cases generators r version t with
    ⟨o, hFate, hVersion, -⟩ | ⟨_, _, _, -, -, -, hFate⟩ <;>
    rw [hFate]
  · exact hVersion
  · rfl

------------------------------------------------------------
-- Versions
------------------------------------------------------------

/-
  A version has been processed: it is abandoned after a check
  that finds the flag set, or it has the outcome and the place
  of its fate at instants that it has been told.
-/
inductive IsProcessed
    (s : Surroundings)
    (told : Instant → Prop)
    (root : Path)
    (generators : GeneratorSet)
    (r : Registry)
    (before : Tree)
    (version : Version) :
    Except RunError VersionOutcome → World → Prop
| abandoned
    {w : World}
    (hCancelled : ∃ check, s.isCancelled check = true)
    (hAwaits : Awaits root (Owns version) before w) :
    IsProcessed s told root generators r before version
      (.ok (abandoned version)) w
| decided
    {w : World}
    (t : Timing)
    (hTold : t.IsTold told)
    (hAwaits : Awaits root (Owns version)
      ((fate generators r version t).entries t.publishedAt
        before) w) :
    IsProcessed s told root generators r before version
      (.ok (fate generators r version t).outcome) w

/- The result of a version that has met a fate. -/
def MeetsFate
    (told : Instant → Prop)
    (root : Path)
    (before : Tree)
    (version : Version)
    (x : Fate)
    (result : Except RunError VersionOutcome)
    (w : World) : Prop :=
  result = .ok x.outcome ∧
    ∃ publishedAt, told publishedAt ∧
      Awaits root (Owns version)
        (x.entries publishedAt before) w

theorem safely_rejected
    (stage : RejectionStage)
    (reason : String)
    (hInstant : ∃ t, told t)
    (hMay : o.state.mayBecome .rejected = true)
    (hAwaits : Awaits root (Owns o.version) before w) :
    (Program.done (o.reject stage reason)).Safely s
      (rootFrame root (Owns o.version)) w
      (MeetsFate told root before o.version
        (rejected o stage reason)) := by
  intro v hRely
  rcases hInstant with ⟨t, hTime⟩
  exact ⟨reject_eq_ok hMay stage reason, t, hTime,
    hAwaits.of_rely hRely⟩

theorem safely_publishDraft
    (hFaultless : s.IsFaultless)
    (hTold : ∀ step, told (s.instant step))
    (hNames : HasFreshNames s o.version before 0)
    (hPlace : ∀ content,
      before.get? o.version.display ≠ some (.file content))
    (hState : o.state = .validating)
    (hAwaits : Awaits root (Owns o.version) before w) :
    (publishDraft (Publisher.directory root) generator d
        o).Safely s (rootFrame root (Owns o.version)) w
      (MeetsFate told root before o.version
        (fateOfDraft generator d o)) := by
  rw [publishDraft, fateOfDraft]
  cases hApprove : approve generator o.version d with
  | error e =>
      exact safely_rejected _ _ ⟨_, hTold 0⟩
        (by rw [hState]; rfl) hAwaits
  | ok b =>
      have hAdvance := advance_eq_ok (o := o) .published
        (by rw [hState]; rfl)
      dsimp only
      have hVersion := version_of_approve hApprove
      rw [← hVersion] at hNames hPlace hAwaits ⊢
      apply (Publication.safely_publish hFaultless hTold hNames
        hPlace hAwaits).bind
      rintro a v ⟨rfl, t, hTime, hTracks⟩ v' hRely
      refine ⟨?_, t, hTime, (hTracks.of_rely hRely).awaits⟩
      rw [hAdvance, hVersion]

/- To meet a fate at instants that are told is to be decided. -/
theorem isProcessed_of_meetsFate
    {x : Fate}
    {first second : Instant}
    (version : Version)
    (hFirst : told first)
    (hSecond : told second)
    (hFate : ∀ t,
      fate generators r version ⟨first, second, t⟩ = x)
    (result : Except RunError VersionOutcome)
    (w : World)
    (hMeets : MeetsFate told root before version x result w) :
    IsProcessed s told root generators r before version result
      w := by
  rcases hMeets with ⟨rfl, t, hTime, hAwaits⟩
  rw [← hFate t] at hAwaits ⊢
  exact .decided ⟨first, second, t⟩ ⟨hFirst, hSecond, hTime⟩
    hAwaits

theorem safely_generateVersion
    (hFaultless : s.IsFaultless)
    (hTold : ∀ step, told (s.instant step))
    (hNames : HasFreshNames s version before 0)
    (hPlace : ∀ content,
      before.get? version.display ≠ some (.file content))
    (hAwaits : Awaits root (Owns version) before w) :
    (generateVersion generators (Publisher.directory root) r
        (started version)).Safely s
      (rootFrame root (Owns version)) w
      (IsProcessed s told root generators r before
        version) := by
  rw [generateVersion]
  dsimp only [started]
  cases hGet : generators.get version
      (.generate .privateParameters) with
  | error e =>
      refine (safely_rejected (o := started version)
        .generation e.message ⟨_, hTold 0⟩ rfl hAwaits).mono
        (isProcessed_of_meetsFate version (hTold 0) (hTold 0)
          fun t => ?_)
      rw [fate, hGet]
  | ok generator =>
      apply (safely_draft hTold Awaits.isStable hAwaits).bind
      rintro _ v ⟨⟨first, second, hFirst, hSecond, rfl⟩,
        hAwaits⟩
      cases hDraft : draftAt generator r first second with
      | error reason =>
          refine (safely_rejected (o := started version)
            .generation reason ⟨_, hFirst⟩ rfl hAwaits).mono
            (isProcessed_of_meetsFate version hFirst hSecond
              fun t => ?_)
          rw [fate, hGet]
          simp only [hDraft]
      | ok d =>
          refine (safely_publishDraft
            (o := { withDigests (started version) d with
              state := .validating })
            hFaultless hTold hNames hPlace rfl hAwaits).mono
            (isProcessed_of_meetsFate version hFirst hSecond
              fun t => ?_)
          rw [fate, hGet]
          simp only [hDraft]

/-
  Without failures, a version comes to the fate that it has at
  the instants it is told, unless the flag is found set.
-/
theorem safely_processed
    (hFaultless : s.IsFaultless)
    (hTold : ∀ step, told (s.instant step))
    (hNames : HasFreshNames s version before 0)
    (hPlace : ∀ content,
      before.get? version.display ≠ some (.file content))
    (hAwaits : Awaits root (Owns version) before w) :
    (process generators (Publisher.directory root) r
        version).Safely s (rootFrame root (Owns version)) w
      (IsProcessed s told root generators r before
        version) := by
  rw [process_eq]
  apply (Program.safely_isCancelled Awaits.isStable
    hAwaits).bind
  rintro a v ⟨⟨check, hCheck⟩, hAwaits⟩
  cases a with
  | true =>
      intro v' hRely
      exact .abandoned ⟨check, hCheck.symm⟩
        (hAwaits.of_rely hRely)
  | false =>
      exact safely_generateVersion hFaultless hTold hNames
        hPlace hAwaits

end Run

end Federation
