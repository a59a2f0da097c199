import Federation.Proofs.Publication.Writers
import Federation.Proofs.Run.Replacement

/-
  Two calls that name published versions current, side by side
  in a reachable root, whatever turns they take. The index is
  whole at every point, and at the end it names one of both
  versions. But the calls write the new index under the same
  name, so that if both have written it before it is moved,
  one of them finds nothing to move and ends in an error.

  Main declarations:
    * `Run.HoldsBundles.canMark`
    * `Run.marks_side_by_side`
    * `Run.exists_lost_mark`
-/

namespace Federation

namespace Run

open Publication
  (HasBundle CanMark NamesOneOf Collide markCurrent lostIndex
    indexFile newIndexFile)

variable {s : Surroundings}
variable {root : Path}
variable {first second : Version}
variable {w : World}

------------------------------------------------------------
-- Published Versions
------------------------------------------------------------

/- A version that is published has a manifest. -/
theorem HoldsBundles.holdsFile
    {version : Version}
    {entries : Tree}
    (hHolds : HoldsBundles entries)
    (hThere : HasBundle version entries) :
    Program.HoldsFile entries version.display
      Publication.manifestFile := by
  rcases hThere with ⟨files, hFiles⟩
  rcases hHolds.bundle version _ hFiles with
    ⟨_, hSame, hBundle⟩
  cases hSame
  exact hBundle.holdsFile hFiles

theorem HoldsBundles.canMark
    {entries : Tree}
    (hHolds : HoldsBundles entries)
    (hFirst : HasBundle first entries)
    (hSecond : HasBundle second entries) :
    CanMark [first, second] entries where
  manifest version hMem := by
    apply hHolds.holdsFile
    rcases List.mem_pair.mp hMem with rfl | rfl
    · exact hFirst
    · exact hSecond
  index := hHolds.index _ (Or.inl rfl)
  new := hHolds.index _ (Or.inr rfl)

/- A root in which both versions of the library are published. -/
theorem exists_both_published :
    ∃ w : World, IsReachable (.ofText "out") w.tree ∧
      HasBundle .v1 (w.tree.entriesAt (.ofText "out")) ∧
      HasBundle .v2 (w.tree.entriesAt (.ofText "out")) := by
  rcases Bundle.exists_isSound_small ⟨by decide, by decide⟩
      (isRepresentable_still 0) with ⟨b, hFirst, hSound⟩
  rcases exists_published_small hSound with
    ⟨w, hReachable, files, hBundle, hAwaits⟩
  rcases Generator.exists_bundle_of_passesAt (Or.inr rfl)
      Instant.isPlain_start.1 Generator.passesAt_small with
    ⟨c, hSecond, hSound'⟩
  have hRoot := Publication.HasSoundRoot.of_awaits
    (isSound_single hBundle) hAwaits
  rcases exists_published (s := still) hReachable
      (fun _ => rfl) isRepresentable_still
      ((hRoot.sound.settled c.version).hasFreshNames _ _)
      hSound' with
    ⟨v, t, hReachable', hAwaits'⟩
  have hSecond' : c.version.display = Version.display .v2 :=
    congrArg Version.display hSecond
  rw [hSecond'] at hAwaits'
  refine ⟨v, hReachable', ⟨files, ?_⟩, ⟨c.directory t, ?_⟩⟩
  · rw [hAwaits'.agree _ trivial,
      Table.get?_insert_of_ne _ _ (by decide),
      hAwaits.agree _ trivial, ← hFirst,
      Table.get?_insert_self]
  · rw [hAwaits'.agree _ trivial, Table.get?_insert_self]

------------------------------------------------------------
-- Side by Side
------------------------------------------------------------

/-
  Two calls that name published versions current, side by side
  in a reachable root where nothing fails. After any turns the
  index is as it was, or it is whole and names one of the two
  versions, and nothing but the index has changed. With more
  turns both calls are done, as if one followed the other
  after these. Then the index names one of the versions, and
  no new one is left. Both calls are successful unless at some
  point both had written the new index and neither had moved
  it. In that case one of them is, and the other one ends in
  an error, since there was nothing left to move.
-/
theorem marks_side_by_side
    (hReachable : IsReachable root w.tree)
    (hFaultless : s.IsFaultless)
    (hInstants : ∀ step, (s.instant step).IsRepresentable)
    (hFirst : HasBundle first (w.tree.entriesAt root))
    (hSecond : HasBundle second (w.tree.entriesAt root))
    (turns : List Nat) :
    let calls := [markCurrent root first,
      markCurrent root second]
    let before := w.tree.entriesAt root
    let now := (Program.takeTurns s turns calls
      w).2.tree.entriesAt root
    (now.get? indexFile = before.get? indexFile ∨
        NamesOneOf root [first, second] now) ∧
      (∀ name, name ≠ indexFile → name ≠ newIndexFile →
        now.get? name = before.get? name) ∧
      ∃ rest a b last,
        Program.takeTurns s (turns ++ rest) calls w =
          ([.done a, .done b], last) ∧
        (Program.interleave turns calls).run s w =
          ([a, b], last) ∧
        NamesOneOf root [first, second]
          (last.tree.entriesAt root) ∧
        (last.tree.entriesAt root).get? newIndexFile = none ∧
        (¬Collide s root (turns ++ rest) calls w ∧
            a = .ok () ∧ b = .ok () ∨
          Collide s root (turns ++ rest) calls w ∧
            (a = .ok () ∧ b = lostIndex root ∨
              a = lostIndex root ∧ b = .ok ())) := by
  intro calls before now
  have hBundles := hReachable.hasBundles
  have hCan := hBundles.holds.canMark hFirst hSecond
  have hJoint := Publication.joint_markCurrent hCan
    hBundles.awaits
  rcases hJoint.takeTurns hFaultless hInstants hCan turns with
    ⟨p, q, v, collided, hTurns, hStage, -⟩
  have hNow : now = v.tree.entriesAt root :=
    congrArg (fun point => point.2.tree.entriesAt root) hTurns
  rw [hNow]
  exact ⟨hStage.visible.1, hStage.visible.2,
    hJoint.interleave hFaultless hInstants hCan turns⟩

/- Two versions are named current in turns of one step each. -/
theorem marks_side_by_side_small :
    let calls := [markCurrent (.ofText "out") .v1,
      markCurrent (.ofText "out") .v2]
    ∃ w : World, IsReachable (.ofText "out") w.tree ∧
      HasBundle .v1 (w.tree.entriesAt (.ofText "out")) ∧
      HasBundle .v2 (w.tree.entriesAt (.ofText "out")) ∧
      ∃ a b last,
        (Program.interleave [0, 1, 0, 1] calls).run still w =
          ([a, b], last) ∧
        NamesOneOf (.ofText "out") [.v1, .v2]
          (last.tree.entriesAt (.ofText "out")) ∧
        (a = .ok () ∨ b = .ok ()) := by
  intro calls
  rcases exists_both_published with
    ⟨w, hReachable, hFirst, hSecond⟩
  rcases (marks_side_by_side (s := still) hReachable
      (fun _ => rfl) isRepresentable_still hFirst hSecond
      [0, 1, 0, 1]).2.2 with
    ⟨_, a, b, last, -, hRun, hNames, -, hResults⟩
  refine ⟨w, hReachable, hFirst, hSecond, a, b, last, hRun,
    hNames, ?_⟩
  rcases hResults with ⟨-, hOk, -⟩ | ⟨-, ⟨hOk, -⟩ | ⟨-, hOk⟩⟩
  · exact Or.inl hOk
  · exact Or.inl hOk
  · exact Or.inr hOk

/-
  In every reachable root there are turns in which one of two
  calls is lost, though both versions are published and there
  is no failure: each call writes before any of them moves.
-/
theorem lostIndex_mem_interleave
    (hReachable : IsReachable root w.tree)
    (hFaultless : s.IsFaultless)
    (hInstants : ∀ step, (s.instant step).IsRepresentable)
    (hFirst : HasBundle first (w.tree.entriesAt root))
    (hSecond : HasBundle second (w.tree.entriesAt root)) :
    lostIndex root ∈
      ((Program.interleave [0, 0, 0, 1, 1, 1]
        [markCurrent root first,
          markCurrent root second]).run s w).1 := by
  have hBundles := hReachable.hasBundles
  have hCan := hBundles.holds.canMark hFirst hSecond
  have hCollide := Publication.collide_markCurrent hCan
    hBundles.awaits hFaultless
  have hJoint := Publication.joint_markCurrent hCan
    hBundles.awaits
  rcases hJoint.interleave hFaultless hInstants hCan
      [0, 0, 0, 1, 1, 1] with
    ⟨rest, a, b, last, -, hRun, -, -, hResults⟩
  rw [hRun]
  rcases hResults with ⟨hNot, -⟩ | ⟨-, ⟨-, rfl⟩ | ⟨rfl, -⟩⟩
  · exact absurd (hCollide.append rest) hNot
  · exact List.mem_cons_of_mem _ List.mem_cons_self
  · exact List.mem_cons_self

/- So it is for both versions of the library. -/
theorem exists_lost_mark :
    let calls := [markCurrent (.ofText "out") .v1,
      markCurrent (.ofText "out") .v2]
    ∃ w : World, IsReachable (.ofText "out") w.tree ∧
      HasBundle .v1 (w.tree.entriesAt (.ofText "out")) ∧
      HasBundle .v2 (w.tree.entriesAt (.ofText "out")) ∧
      lostIndex (.ofText "out") ∈
        ((Program.interleave [0, 0, 0, 1, 1, 1] calls).run
          still w).1 := by
  intro calls
  rcases exists_both_published with
    ⟨w, hReachable, hFirst, hSecond⟩
  exact ⟨w, hReachable, hFirst, hSecond,
    lostIndex_mem_interleave hReachable (fun _ => rfl)
      isRepresentable_still hFirst hSecond⟩

end Run

end Federation
