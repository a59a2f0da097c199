import Federation.Proofs.Generation.WellFormed
import Federation.Proofs.Run.Fate

/-
  What a run does for one of its versions. Whatever the
  generator is, only a sound bundle is published, so that the
  version is settled again in the end and has lost no bundle.
  Unless it is published, all that belongs to it is kept.

  Main declarations:
    * `Run.Draft.IsSound`
    * `Run.isSound_of_approve`
    * `Run.EndsIn`
    * `Run.safely_process`
-/

namespace Federation

namespace Run

open Reading (exists_of_bind_eq_ok)
open Program (Safely rootFrame Awaits)
open Publication (Owns Settled HasBundle IsPublished)

variable {s : Surroundings}
variable {root : Path}
variable {version : Version}
variable {entries : Tree}
variable {generator : Generator}
variable {d : Draft}
variable {w : World}

------------------------------------------------------------
-- Drafts
------------------------------------------------------------

/- A draft of documents as they are held, with their digests. -/
structure Draft.IsSound (d : Draft) : Prop where
  privateFormed : d.privateParameters.IsWellFormed
  sharedFormed : d.sharedParameters.IsWellFormed
  privateDigest :
    d.privateParameters.digest = .ok d.privateDigest
  sharedDigest :
    d.sharedParameters.digest = .ok d.sharedDigest

theorem Draft.isSound_of_ofDocuments
    {privateParameters : Document .privateParameters}
    {sharedParameters : Document .sharedParameters}
    (hPrivate : privateParameters.IsWellFormed)
    (hShared : sharedParameters.IsWellFormed)
    (hDraft : ofDocuments privateParameters
      sharedParameters = .ok d) :
    d.IsSound := by
  rcases exists_of_bind_eq_ok hDraft with
    ⟨privateDigest, hFirst, hDraft⟩
  rcases exists_of_bind_eq_ok hDraft with
    ⟨sharedDigest, hSecond, hDraft⟩
  cases hDraft
  exact ⟨hPrivate, hShared, hFirst, hSecond⟩

theorem Draft.isSound_of_draftAt
    {r : Registry}
    {first second : Instant}
    (hForms : generator.FormsDocuments)
    (hFirst : first.IsRepresentable)
    (hSecond : second.IsRepresentable)
    (hDraft : draftAt generator r first second = .ok d) :
    d.IsSound := by
  rw [draftAt] at hDraft
  cases hPrivate :
      generator.generate .privateParameters first r with
  | error e =>
      rw [hPrivate] at hDraft
      cases hDraft
  | ok privateParameters =>
      cases hShared :
          generator.generate .sharedParameters second r with
      | error e =>
          simp [hPrivate, hShared] at hDraft
      | ok sharedParameters =>
          simp only [hPrivate, hShared] at hDraft
          apply Draft.isSound_of_ofDocuments
            (hForms _ _ _ _ hFirst hPrivate)
            (hForms _ _ _ _ hSecond hShared)
          cases hBoth : Draft.ofDocuments privateParameters
              sharedParameters with
          | error fault =>
              rw [hBoth] at hDraft
              cases hDraft
          | ok both =>
              rw [hBoth] at hDraft
              cases hDraft
              rfl

------------------------------------------------------------
-- Approval
------------------------------------------------------------

/-
  The bundle that is approved is sound and of the version
  asked for, no matter what the generator approves of.
-/
theorem isSound_of_approve
    {b : Bundle}
    (hSound : d.IsSound)
    (hApprove : approve generator version d = .ok b) :
    b.version = version ∧ b.IsSound := by
  rcases exists_of_approve hApprove with
    ⟨_, _, rfl, hPrivate, hShared⟩
  exact ⟨rfl, hSound.privateFormed, hSound.sharedFormed,
    hSound.privateDigest, hSound.sharedDigest, hPrivate,
    hShared⟩

------------------------------------------------------------
-- Places
------------------------------------------------------------

/-
  A version is settled, and there is a directory at its place
  if there was one among earlier entries.
-/
structure KeepsSettled
    (root : Path)
    (version : Version)
    (entries : Tree)
    (w : World) : Prop where
  settled : Settled version (w.tree.entriesAt root)
  kept : HasBundle version entries →
    HasBundle version (w.tree.entriesAt root)

theorem KeepsSettled.of_awaits
    (hSettled : Settled version entries)
    (hAwaits : Awaits root (Owns version) entries w) :
    KeepsSettled root version entries w where
  settled := hSettled.congr hAwaits.agree
  kept := fun ⟨files, hFiles⟩ =>
    ⟨files, (hAwaits.agree _ .bundle).trans hFiles⟩

theorem KeepsSettled.of_published
    (hPublished : IsPublished root version w) :
    KeepsSettled root version entries w := by
  rcases hPublished with
    ⟨entries', hTracks, hSettled, files, hFiles⟩
  exact ⟨hSettled.congr hTracks.agree, fun _ =>
    ⟨files, (hTracks.agree _ .bundle).trans hFiles⟩⟩

------------------------------------------------------------
-- Outcomes
------------------------------------------------------------

/-
  The outcome of a version tells what is below the root: the
  version is published, or what belongs to it is as it was.
-/
structure EndsIn
    (root : Path)
    (version : Version)
    (entries : Tree)
    (o : VersionOutcome)
    (w : World) : Prop where
  concerns : o.version = version
  terminal : o.state.isTerminal = true
  published : o.state = .published → IsPublished root version w
  kept : o.state ≠ .published →
    Awaits root (Owns version) entries w

theorem EndsIn.keepsSettled
    {o : VersionOutcome}
    (hEnds : EndsIn root version entries o w)
    (hSettled : Settled version entries) :
    KeepsSettled root version entries w := by
  by_cases hState : o.state = .published
  · exact .of_published (hEnds.published hState)
  · exact .of_awaits hSettled (hEnds.kept hState)

/- A version is done with, and its outcome tells the root. -/
def Ends
    (root : Path)
    (version : Version)
    (entries : Tree)
    (result : Except RunError VersionOutcome)
    (w : World) : Prop :=
  ∃ o, result = .ok o ∧ EndsIn root version entries o w

variable {generators : GeneratorSet}
variable {r : Registry}
variable {o : VersionOutcome}

theorem EndsIn.of_kept
    (hConcerns : o.version = version)
    (hState : o.state = .rejected ∨ o.state = .abandoned)
    (hAwaits : Awaits root (Owns version) entries w) :
    EndsIn root version entries o w where
  concerns := hConcerns
  terminal := by
    rcases hState with hState | hState <;> rw [hState] <;> rfl
  published hPublished := by
    rcases hState with hState | hState <;>
      rw [hState] at hPublished <;> cases hPublished
  kept _ := hAwaits

/- The outcome of a fate tells what is below the root. -/
theorem EndsIn.of_fate
    {t : Timing}
    (hForms : ∀ entry ∈ generators.table,
      entry.2.FormsDocuments)
    (hSettled : Settled version entries)
    (hTold : t.IsTold Instant.IsRepresentable)
    (hAwaits : Awaits root (Owns version)
      ((fate generators r version t).entries t.publishedAt
        entries) w) :
    EndsIn root version entries
      (fate generators r version t).outcome w := by
  rcases fate_cases generators r version t with
    ⟨o, hFate, hConcerns, hState⟩ |
    ⟨generator, d, b, hGet, hDraft, hApprove, hFate⟩
  · rw [hFate] at hAwaits ⊢
    exact .of_kept hConcerns (Or.inl hState) hAwaits
  · rw [hFate] at hAwaits ⊢
    have hGenerator := hForms _ (GeneratorSet.mem_of_get hGet)
    have hSound := Draft.isSound_of_draftAt hGenerator
      hTold.privateAt hTold.sharedAt hDraft
    rcases isSound_of_approve hSound hApprove with
      ⟨rfl, hBundle⟩
    refine ⟨rfl, rfl, fun _ => ?_, fun hNot => absurd rfl hNot⟩
    have hFiles := hBundle.isBundle hTold.publishedAt
    have hThere := Table.get?_insert_self b.version.display
      (Node.directory (b.directory t.publishedAt)) entries
    exact ⟨_, hAwaits.tracks .bundle hThere,
      hSettled.insert hFiles, _, hThere⟩

/-
  A run is done with a version in a state that ends it, and
  the outcome tells what is below the root.
-/
theorem safely_process
    (hFaultless : s.IsFaultless)
    (hInstants : ∀ step, (s.instant step).IsRepresentable)
    (hForms : ∀ entry ∈ generators.table,
      entry.2.FormsDocuments)
    (hSettled : Settled version entries)
    (hAwaits : Awaits root (Owns version) entries w) :
    (process generators (Publisher.directory root) r
        version).Safely s (rootFrame root (Owns version)) w
      (Ends root version entries) := by
  refine (safely_processed hFaultless hInstants
    (hSettled.hasFreshNames s 0) hSettled.noFile
    hAwaits).mono ?_
  intro result v hProcessed
  cases hProcessed with
  | abandoned hCancelled hKept =>
      exact ⟨_, rfl, .of_kept rfl (Or.inr rfl) hKept⟩
  | decided t hTold hPlace =>
      exact ⟨_, rfl, .of_fate hForms hSettled hTold hPlace⟩

end Run

end Federation
