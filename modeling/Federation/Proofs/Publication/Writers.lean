import Federation.Proofs.Publication.Index
import Federation.Proofs.Storage.Turns
import Mathlib.Data.List.Induction

/-
  Two calls that name versions current, side by side in one
  root. Each of them writes a new index and then moves it to
  the place of the old one. The new one has the same name for
  both, so that once both have written it, the first of them
  to move it leaves nothing for the other.

  Main declarations:
    * `Publication.Shows`
    * `Publication.IsEarly`
    * `Publication.Stage`, `Publication.Joint`
    * `Publication.Joint.forward_first`
    * `Publication.Collide`
    * `Publication.Joint.takeTurns`
-/

namespace Federation

namespace Publication

open Program (Awaits Tracks HoldsFile takeTurns)

variable {s : Surroundings}
variable {root : Path}
variable {version : Version}
variable {versions : List Version}
variable {before : Tree}
variable {index new : Option Node}
variable {collided : Bool}
variable {p q : Program (Published Unit)}
variable {a b : Published Unit}
variable {v w : World}

------------------------------------------------------------
-- Entries
------------------------------------------------------------

/- A root has an index and a new one, and is else as before. -/
structure Shows
    (root : Path)
    (before : Tree)
    (index new : Option Node)
    (w : World) : Prop where
  has : w.tree.HasRoot root
  index : (w.tree.entriesAt root).get? indexFile = index
  new : (w.tree.entriesAt root).get? newIndexFile = new
  others : ∀ name, name ≠ indexFile → name ≠ newIndexFile →
    (w.tree.entriesAt root).get? name = before.get? name

/- There is no directory at a place. -/
def IsFree (place : Option Node) : Prop :=
  ∀ inner, place ≠ some (.directory inner)

/- A file that is the whole index of one of some versions. -/
def IsIndexOf (versions : List Version) (node : Node) : Prop :=
  ∃ version ∈ versions, ∃ t : Instant, t.IsRepresentable ∧
    node = .file (indexContent version t)

theorem IsIndexOf.isFree
    {node : Node}
    (hIndex : IsIndexOf versions node) :
    IsFree (some node) := by
  rcases hIndex with ⟨_, _, t, _, rfl⟩
  exact fun _ => nofun

/-
  Some versions can be named current: they have manifests, and
  no directory is at the place of the index or the new one.
-/
structure CanMark
    (versions : List Version)
    (before : Tree) : Prop where
  manifest : ∀ version ∈ versions,
    HoldsFile before version.display manifestFile
  index : IsFree (before.get? indexFile)
  new : IsFree (before.get? newIndexFile)

namespace Shows

theorem tracks
    (hShows : Shows root before index new w) :
    Tracks root everything (w.tree.entriesAt root) w :=
  ⟨hShows.has, fun _ _ => rfl⟩

theorem of_tracks
    {entries : Tree}
    (hTracks : Tracks root everything entries w)
    (hIndex : entries.get? indexFile = index)
    (hNew : entries.get? newIndexFile = new)
    (hOthers : ∀ name,
      name ≠ indexFile → name ≠ newIndexFile →
      entries.get? name = before.get? name) :
    Shows root before index new w where
  has := hTracks.has
  index := (hTracks.agree _ trivial).trans hIndex
  new := (hTracks.agree _ trivial).trans hNew
  others name hOld hOther :=
    (hTracks.agree name trivial).trans
      (hOthers name hOld hOther)

/- Before anything has changed. -/
theorem of_awaits
    (hManifest : HoldsFile before version.display manifestFile)
    (hAwaits : Awaits root everything before w) :
    Shows root before (before.get? indexFile)
      (before.get? newIndexFile) w :=
  of_tracks (hManifest.tracks hAwaits trivial) rfl rfl
    fun _ _ _ => rfl

/- The manifest of a version is where it was. -/
theorem isFile
    (hShows : Shows root before index new w)
    (hManifest : HoldsFile before version.display
      manifestFile) :
    (w.perform s (.isFile ((root.join version.display).join
      manifestFile))).1 = true := by
  have hSame := hShows.others version.display
    (fun hSame => not_owns_index version (Or.inl hSame) .bundle)
    (fun hSame => not_owns_index version (Or.inr hSame) .bundle)
  rw [Program.isFile_iff hShows.tracks.awaits trivial,
    HoldsFile, Tree.find, Tree.descend, hSame]
  exact hManifest

end Shows

------------------------------------------------------------
-- Steps of a Call
------------------------------------------------------------

/- The last step of a call: the new index is moved. -/
def moveIndex (root : Path) : Program (Published Unit) :=
  attempt .rename (root.join newIndexFile)
    (.rename (root.join newIndexFile) (root.join indexFile))
    fun _ => .done (.ok ())

/- The last two steps: the new index is written before. -/
def writeIndex
    (root : Path)
    (version : Version)
    (t : Instant) : Program (Published Unit) :=
  attempt .write (root.join newIndexFile)
    (.write (root.join newIndexFile) (indexContent version t))
    fun _ => moveIndex root

/- The last three steps: the instant is told before. -/
def tellIndex
    (root : Path)
    (version : Version) : Program (Published Unit) :=
  Program.now.bind (writeIndex root version)

/- The error of a call that finds no new index to move. -/
def lostIndex (root : Path) : Published Unit :=
  .error (.storage .rename (root.join newIndexFile) .notFound)

theorem forward_markCurrent
    (hShows : Shows root before index new w)
    (hManifest : HoldsFile before version.display
      manifestFile) :
    (markCurrent root version).forward s w =
      (tellIndex root version, w.advance) := by
  have hFile : w.perform s (.isFile ((root.join
      version.display).join manifestFile)) =
        (true, w.advance) :=
    Prod.ext (hShows.isFile hManifest) rfl
  simp only [markCurrent, versionDirectory, Program.isFile,
    Program.ask, bind, Program.bind, Program.forward, hFile]
  rfl

theorem forward_tellIndex
    (root : Path)
    (version : Version)
    (w : World) :
    (tellIndex root version).forward s w =
      (writeIndex root version (s.instant w.steps),
        w.advance) :=
  rfl

theorem Shows.advance
    (hShows : Shows root before index new w) :
    Shows root before index new w.advance :=
  ⟨hShows.has, hShows.index, hShows.new, hShows.others⟩

/- The new index is written whether there is one or not. -/
theorem forward_writeIndex
    (version : Version)
    (t : Instant)
    (hFaultless : s.IsFaultless)
    (hShows : Shows root before index new w)
    (hFree : IsFree new) :
    ∃ v, (writeIndex root version t).forward s w =
        (moveIndex root, v) ∧
      Shows root before index
        (some (.file (indexContent version t))) v := by
  rw [← hShows.new] at hFree
  have hWrite : (Program.ask (.write (root.join newIndexFile)
      (indexContent version t))).Safely s _ w _ :=
    Program.safely_write hFaultless hShows.tracks trivial hFree
  rcases hWrite.exists_perform with ⟨v, hStep, hTracks⟩
  refine ⟨v, ?_, .of_tracks hTracks ?_ ?_ ?_⟩
  · simp only [writeIndex, attempt, Program.write, Program.ask,
      Program.bind, Program.forward, hStep]
  · rw [Table.get?_insert_of_ne _ _
      newIndexFile_ne_indexFile.symm, hShows.index]
  · exact Table.get?_insert_self _ _ _
  · intro name hOld hNew
    rw [Table.get?_insert_of_ne _ _ hNew,
      hShows.others name hOld hNew]

/- The new index is moved, whoever has written it. -/
theorem forward_moveIndex
    {node : Node}
    (hFaultless : s.IsFaultless)
    (hNew : IsIndexOf versions node)
    (hShows : Shows root before index (some node) w)
    (hFree : IsFree index) :
    ∃ v, (moveIndex root).forward s w = (.done (.ok ()), v) ∧
      Shows root before (some node) none v := by
  rcases hNew with ⟨_, _, t, _, rfl⟩
  rw [← hShows.index] at hFree
  have hMove : (Program.ask (.rename (root.join newIndexFile)
      (root.join indexFile))).Safely s _ w _ :=
    Program.safely_rename hFaultless hShows.tracks trivial
      trivial newIndexFile_ne_indexFile hShows.new
      (replace_file hFree)
  rcases hMove.exists_perform with ⟨v, hStep, hTracks⟩
  refine ⟨v, ?_, .of_tracks hTracks ?_ ?_ ?_⟩
  · simp only [moveIndex, attempt, Program.rename, Program.ask,
      Program.bind, Program.forward, hStep]
  · exact Tree.get?_moved_new newIndexFile_ne_indexFile
  · exact Tree.get?_moved_old ..
  · intro name hOld hNew
    rw [Tree.get?_moved_of_ne hNew hOld,
      hShows.others name hOld hNew]

/- A call that has written may find nothing left to move. -/
theorem forward_moveIndex_of_none
    (hFaultless : s.IsFaultless)
    (hShows : Shows root before index none w) :
    (moveIndex root).forward s w =
      (.done (lostIndex root), w.advance) := by
  have hMissing : Tree.find
      (root.names ++ [newIndexFile]) w.tree =
        .error .notFound := by
    rw [Tree.find_append hShows.has.find, Tree.find_single,
      hShows.new]
  have hFault : w.perform s (.rename (root.join newIndexFile)
      (root.join indexFile)) =
        (.error .notFound, w.advance) := by
    rw [World.perform, World.act, hFaultless w.steps,
      Tree.rename]
    dsimp only [Path.join]
    rw [hMissing]
    rfl
  simp only [moveIndex, attempt, Program.rename, Program.ask,
    Program.bind, Program.forward, hFault]
  rfl

------------------------------------------------------------
-- Stages
------------------------------------------------------------

/- A call that has not written a new index yet. -/
inductive IsEarly
    (root : Path)
    (versions : List Version) :
    Program (Published Unit) → Prop
| start
    {version : Version}
    (hMem : version ∈ versions) :
    IsEarly root versions (markCurrent root version)
| found
    {version : Version}
    (hMem : version ∈ versions) :
    IsEarly root versions (tellIndex root version)
| told
    {version : Version}
    {t : Instant}
    (hMem : version ∈ versions)
    (hTime : t.IsRepresentable) :
    IsEarly root versions (writeIndex root version t)

theorem IsEarly.exists_step
    (hEarly : IsEarly root versions p) :
    ∃ operation next, p = .step operation next := by
  cases hEarly with
  | start => exact ⟨_, _, rfl⟩
  | found => exact ⟨_, _, rfl⟩
  | told => exact ⟨_, _, rfl⟩

theorem IsEarly.ne_moveIndex
    (hEarly : IsEarly root versions p) :
    p ≠ moveIndex root := by
  cases hEarly with
  | start => exact nofun
  | found => exact nofun
  | told => exact nofun

/- A call goes on to be early until it writes a new index. -/
theorem IsEarly.forward
    (hFaultless : s.IsFaultless)
    (hInstants : ∀ step, (s.instant step).IsRepresentable)
    (hCan : CanMark versions before)
    (hEarly : IsEarly root versions p)
    (hShows : Shows root before index new w)
    (hFree : IsFree new) :
    ∃ p' v, p.forward s w = (p', v) ∧
      (IsEarly root versions p' ∧
          Shows root before index new v ∨
        p' = moveIndex root ∧
          ∃ node, IsIndexOf versions node ∧
            Shows root before index (some node) v) := by
  cases hEarly with
  | start hMem =>
      exact ⟨_, _, forward_markCurrent hShows
        (hCan.manifest _ hMem),
        Or.inl ⟨.found hMem, hShows.advance⟩⟩
  | found hMem =>
      exact ⟨_, _, forward_tellIndex root _ w,
        Or.inl ⟨.told hMem (hInstants _), hShows.advance⟩⟩
  | @told version t hMem hTime =>
      rcases forward_writeIndex version t hFaultless hShows
        hFree with ⟨v, hForward, hWritten⟩
      exact ⟨_, v, hForward, Or.inr ⟨rfl, _,
        ⟨version, hMem, t, hTime, rfl⟩, hWritten⟩⟩

/-
  How far two calls have come, the first of them no less than
  the second, what they have left in the root, and whether they
  have collided: both had written a new index before one of them
  moved it.
-/
inductive Stage
    (root : Path)
    (before : Tree)
    (versions : List Version) :
    (collided : Bool) →
      Program (Published Unit) → Program (Published Unit) →
      World → Prop
| early
    {p q : Program (Published Unit)}
    {w : World}
    (hFirst : IsEarly root versions p)
    (hSecond : IsEarly root versions q)
    (hShows : Shows root before (before.get? indexFile)
      (before.get? newIndexFile) w) :
    Stage root before versions false p q w
| written
    {q : Program (Published Unit)}
    {new : Node}
    {w : World}
    (hSecond : IsEarly root versions q)
    (hNew : IsIndexOf versions new)
    (hShows : Shows root before (before.get? indexFile)
      (some new) w) :
    Stage root before versions false (moveIndex root) q w
| bothWritten
    {new : Node}
    {w : World}
    (hNew : IsIndexOf versions new)
    (hShows : Shows root before (before.get? indexFile)
      (some new) w) :
    Stage root before versions true (moveIndex root)
      (moveIndex root) w
| moved
    {q : Program (Published Unit)}
    {index : Node}
    {w : World}
    (hSecond : IsEarly root versions q)
    (hIndex : IsIndexOf versions index)
    (hShows : Shows root before (some index) none w) :
    Stage root before versions false (.done (.ok ())) q w
| writtenNext
    {index new : Node}
    {w : World}
    (hIndex : IsIndexOf versions index)
    (hNew : IsIndexOf versions new)
    (hShows : Shows root before (some index) (some new) w) :
    Stage root before versions false (.done (.ok ()))
      (moveIndex root) w
| movedByOther
    {index : Node}
    {w : World}
    (hIndex : IsIndexOf versions index)
    (hShows : Shows root before (some index) none w) :
    Stage root before versions true (.done (.ok ()))
      (moveIndex root) w
| bothMoved
    {index : Node}
    {w : World}
    (hIndex : IsIndexOf versions index)
    (hShows : Shows root before (some index) none w) :
    Stage root before versions false (.done (.ok ()))
      (.done (.ok ())) w
| lost
    {index : Node}
    {w : World}
    (hIndex : IsIndexOf versions index)
    (hShows : Shows root before (some index) none w) :
    Stage root before versions true (.done (.ok ()))
      (.done (lostIndex root)) w

/- The stage of two calls, either of which is the first. -/
def Joint
    (root : Path)
    (before : Tree)
    (versions : List Version)
    (collided : Bool)
    (p q : Program (Published Unit))
    (w : World) : Prop :=
  Stage root before versions collided p q w ∨
    Stage root before versions collided q p w

theorem Joint.symm
    (hJoint : Joint root before versions collided p q w) :
    Joint root before versions collided q p w :=
  Or.symm hJoint

/- Calls that have both written a new index have collided. -/
theorem Stage.not_bothWritten
    (hStage : Stage root before versions false p q w) :
    ¬(p = moveIndex root ∧ q = moveIndex root) := by
  rintro ⟨hFirst, hSecond⟩
  cases hStage with
  | early hEarly _ _ => exact hEarly.ne_moveIndex hFirst
  | written hEarly _ _ => exact hEarly.ne_moveIndex hSecond
  | moved _ _ _ => exact nomatch hFirst
  | writtenNext _ _ _ => exact nomatch hFirst
  | bothMoved _ _ => exact nomatch hFirst

theorem Joint.not_bothWritten
    (hJoint : Joint root before versions false p q w) :
    ¬(p = moveIndex root ∧ q = moveIndex root) := by
  rcases hJoint with hStage | hStage
  · exact hStage.not_bothWritten
  · exact fun hBoth => hStage.not_bothWritten hBoth.symm

/-
  What a step of one of two calls leads to. They have collided
  if they had before, or if both have written a new index now.
-/
def ComesTo
    (root : Path)
    (before : Tree)
    (versions : List Version)
    (collided : Bool)
    (p q : Program (Published Unit))
    (w : World) : Prop :=
  ∃ collided', Joint root before versions collided' p q w ∧
    (collided' = true ↔ collided = true ∨
      p = moveIndex root ∧ q = moveIndex root)

namespace ComesTo

theorem symm
    (hComes : ComesTo root before versions collided p q w) :
    ComesTo root before versions collided q p w := by
  rcases hComes with ⟨collided', hJoint, hIff⟩
  exact ⟨collided', hJoint.symm,
    hIff.trans (or_congr_right And.comm)⟩

/- Without a step of any of them, nothing else has come. -/
theorem of_joint
    (hJoint : Joint root before versions collided p q w) :
    ComesTo root before versions collided p q w := by
  refine ⟨collided, hJoint, Or.inl, fun hBoth => ?_⟩
  rcases hBoth with hBefore | hNow
  · exact hBefore
  · cases collided with
    | true => rfl
    | false => exact absurd hNow hJoint.not_bothWritten

theorem of_stage
    (hStage : Stage root before versions collided p q w) :
    ComesTo root before versions collided p q w :=
  of_joint (Or.inl hStage)

theorem of_bothWritten
    (hStage : Stage root before versions true (moveIndex root)
      (moveIndex root) w) :
    ComesTo root before versions collided (moveIndex root)
      (moveIndex root) w :=
  ⟨true, Or.inl hStage, iff_of_true rfl (Or.inr ⟨rfl, rfl⟩)⟩

end ComesTo

section Steps

variable (hFaultless : s.IsFaultless)
variable (hInstants : ∀ step, (s.instant step).IsRepresentable)
variable (hCan : CanMark versions before)

include hFaultless hInstants hCan

/- The call that is further goes on. -/
theorem Stage.forward_first
    (hStage : Stage root before versions collided p q w) :
    ∃ p' v, p.forward s w = (p', v) ∧
      ComesTo root before versions collided p' q v := by
  cases hStage with
  | early hFirst hSecond hShows =>
      rcases hFirst.forward hFaultless hInstants hCan hShows
        hCan.new with
        ⟨p', v, hForward, ⟨hStill, hShows⟩ |
          ⟨rfl, new, hNew, hShows⟩⟩
      · exact ⟨p', v, hForward,
          .of_stage (.early hStill hSecond hShows)⟩
      · exact ⟨_, v, hForward,
          .of_stage (.written hSecond hNew hShows)⟩
  | written hSecond hNew hShows =>
      rcases forward_moveIndex hFaultless hNew hShows
        hCan.index with ⟨v, hForward, hShows⟩
      exact ⟨_, v, hForward,
        .of_stage (.moved hSecond hNew hShows)⟩
  | bothWritten hNew hShows =>
      rcases forward_moveIndex hFaultless hNew hShows
        hCan.index with ⟨v, hForward, hShows⟩
      exact ⟨_, v, hForward,
        .of_stage (.movedByOther hNew hShows)⟩
  | moved hSecond hIndex hShows =>
      exact ⟨_, w, rfl,
        .of_stage (.moved hSecond hIndex hShows)⟩
  | writtenNext hIndex hNew hShows =>
      exact ⟨_, w, rfl,
        .of_stage (.writtenNext hIndex hNew hShows)⟩
  | movedByOther hIndex hShows =>
      exact ⟨_, w, rfl,
        .of_stage (.movedByOther hIndex hShows)⟩
  | bothMoved hIndex hShows =>
      exact ⟨_, w, rfl, .of_stage (.bothMoved hIndex hShows)⟩
  | lost hIndex hShows =>
      exact ⟨_, w, rfl, .of_stage (.lost hIndex hShows)⟩

/- The call that is behind goes on. -/
theorem Stage.forward_second
    (hStage : Stage root before versions collided p q w) :
    ∃ q' v, q.forward s w = (q', v) ∧
      ComesTo root before versions collided p q' v := by
  cases hStage with
  | early hFirst hSecond hShows =>
      rcases hSecond.forward hFaultless hInstants hCan hShows
        hCan.new with
        ⟨q', v, hForward, ⟨hStill, hShows⟩ |
          ⟨rfl, new, hNew, hShows⟩⟩
      · exact ⟨q', v, hForward,
          .of_stage (.early hFirst hStill hShows)⟩
      · exact ⟨_, v, hForward,
          (ComesTo.of_stage (.written hFirst hNew hShows)).symm⟩
  | written hSecond hNew hShows =>
      rcases hSecond.forward hFaultless hInstants hCan hShows
        hNew.isFree with
        ⟨q', v, hForward, ⟨hStill, hShows⟩ |
          ⟨rfl, new, hNew, hShows⟩⟩
      · exact ⟨q', v, hForward,
          .of_stage (.written hStill hNew hShows)⟩
      · -- Now there is one new index for both of them.
        exact ⟨_, v, hForward,
          .of_bothWritten (.bothWritten hNew hShows)⟩
  | bothWritten hNew hShows =>
      rcases forward_moveIndex hFaultless hNew hShows
        hCan.index with ⟨v, hForward, hShows⟩
      exact ⟨_, v, hForward,
        (ComesTo.of_stage (.movedByOther hNew hShows)).symm⟩
  | moved hSecond hIndex hShows =>
      rcases hSecond.forward hFaultless hInstants hCan hShows
        (fun _ => nofun) with
        ⟨q', v, hForward, ⟨hStill, hShows⟩ |
          ⟨rfl, new, hNew, hShows⟩⟩
      · exact ⟨q', v, hForward,
          .of_stage (.moved hStill hIndex hShows)⟩
      · exact ⟨_, v, hForward,
          .of_stage (.writtenNext hIndex hNew hShows)⟩
  | writtenNext hIndex hNew hShows =>
      rcases forward_moveIndex hFaultless hNew hShows
        hIndex.isFree with ⟨v, hForward, hShows⟩
      exact ⟨_, v, hForward,
        .of_stage (.bothMoved hNew hShows)⟩
  | movedByOther hIndex hShows =>
      -- What this call has written is the index by now.
      exact ⟨_, w.advance,
        forward_moveIndex_of_none hFaultless hShows,
        .of_stage (.lost hIndex hShows.advance)⟩
  | bothMoved hIndex hShows =>
      exact ⟨_, w, rfl, .of_stage (.bothMoved hIndex hShows)⟩
  | lost hIndex hShows =>
      exact ⟨_, w, rfl, .of_stage (.lost hIndex hShows)⟩

/- Whichever of the calls is further, one of them goes on. -/
theorem Joint.forward_first
    (hJoint : Joint root before versions collided p q w) :
    ∃ p' v, p.forward s w = (p', v) ∧
      ComesTo root before versions collided p' q v := by
  rcases hJoint with hStage | hStage
  · exact hStage.forward_first hFaultless hInstants hCan
  · rcases hStage.forward_second hFaultless hInstants hCan with
      ⟨p', v, hForward, hComes⟩
    exact ⟨p', v, hForward, hComes.symm⟩

theorem Joint.forward_second
    (hJoint : Joint root before versions collided p q w) :
    ∃ q' v, q.forward s w = (q', v) ∧
      ComesTo root before versions collided p q' v := by
  rcases hJoint.symm.forward_first hFaultless hInstants hCan
    with ⟨q', v, hForward, hComes⟩
  exact ⟨q', v, hForward, hComes.symm⟩

end Steps

------------------------------------------------------------
-- Turns
------------------------------------------------------------

/-
  At some point of some turns, both of two calls have written
  a new index and neither of them has moved it.
-/
def Collide
    (s : Surroundings)
    (root : Path)
    (turns : List Nat)
    (calls : List (Program (Published Unit)))
    (w : World) : Prop :=
  ∃ part, part <+: turns ∧
    (takeTurns s part calls w).1 =
      [moveIndex root, moveIndex root]

theorem Collide.append
    {turns : List Nat}
    {calls : List (Program (Published Unit))}
    (hCollide : Collide s root turns calls w)
    (rest : List Nat) :
    Collide s root (turns ++ rest) calls w := by
  rcases hCollide with ⟨part, hPart, hBoth⟩
  exact ⟨part, hPart.trans (List.prefix_append _ _), hBoth⟩

theorem collide_append_singleton_iff
    {turns : List Nat}
    {turn : Nat}
    {calls : List (Program (Published Unit))} :
    Collide s root (turns ++ [turn]) calls w ↔
      Collide s root turns calls w ∨
        (takeTurns s (turns ++ [turn]) calls w).1 =
          [moveIndex root, moveIndex root] := by
  constructor
  · rintro ⟨part, hPart, hBoth⟩
    rcases List.prefix_concat_iff.mp hPart with rfl | hBefore
    · exact Or.inr hBoth
    · exact Or.inl ⟨part, hBefore, hBoth⟩
  · rintro (hBefore | hBoth)
    · exact hBefore.append _
    · exact ⟨_, List.prefix_rfl, hBoth⟩

section Turns

variable (hFaultless : s.IsFaultless)
variable (hInstants : ∀ step, (s.instant step).IsRepresentable)
variable (hCan : CanMark versions before)

include hFaultless hInstants hCan

/- One turn of one of two calls, or of neither. -/
theorem Joint.takeTurn
    (hJoint : Joint root before versions collided p q w)
    (turn : Nat) :
    ∃ p' q' v, takeTurns s [turn] [p, q] w = ([p', q'], v) ∧
      ComesTo root before versions collided p' q' v := by
  match turn with
  | 0 =>
      rcases hJoint.forward_first hFaultless hInstants hCan with
        ⟨p', v, hForward, hComes⟩
      refine ⟨p', q, v, ?_, hComes⟩
      rw [Program.takeTurns_zero, hForward]
      rfl
  | 1 =>
      rcases hJoint.forward_second hFaultless hInstants hCan
        with ⟨q', v, hForward, hComes⟩
      refine ⟨p, q', v, ?_, hComes⟩
      rw [Program.takeTurns_one, hForward]
      rfl
  | _ + 2 => exact ⟨p, q, w, rfl, .of_joint hJoint⟩

/-
  Two calls that have not collided, after any turns: they are
  at a stage, and have collided exactly if at some point both
  have written a new index and neither has moved it.
-/
theorem Joint.takeTurns
    (hJoint : Joint root before versions false p q w)
    (turns : List Nat) :
    ∃ p' q' v collided,
      Program.takeTurns s turns [p, q] w = ([p', q'], v) ∧
      Joint root before versions collided p' q' v ∧
      (collided = true ↔ Collide s root turns [p, q] w) := by
  induction turns using List.reverseRecOn with
  | nil =>
      refine ⟨p, q, w, false, rfl, hJoint, nofun, ?_⟩
      rintro ⟨part, hPart, hBoth⟩
      rw [List.prefix_nil.mp hPart] at hBoth
      cases hBoth
      exact absurd ⟨rfl, rfl⟩ hJoint.not_bothWritten
  | append_singleton turns turn ih =>
      rcases ih with ⟨p', q', v, collided, hTurns, hStage, hIff⟩
      rcases hStage.takeTurn hFaultless hInstants hCan turn with
        ⟨p'', q'', v', hTurn, collided', hStage', hIff'⟩
      have hLast : Program.takeTurns s (turns ++ [turn])
          [p, q] w = ([p'', q''], v') := by
        rw [Program.takeTurns_append, hTurns, hTurn]
      refine ⟨p'', q'', v', collided', hLast, hStage', ?_⟩
      rw [hIff', hIff, collide_append_singleton_iff, hLast]
      simp

end Turns

------------------------------------------------------------
-- What Can Be Seen
------------------------------------------------------------

/-
  The index among some entries is whole and names one of some
  versions.
-/
def NamesOneOf
    (root : Path)
    (versions : List Version)
    (entries : Tree) : Prop :=
  ∃ version ∈ versions,
    indexed root entries = .ok (some version) ∧
    ∃ t, entries.get? indexFile =
      some (.file (indexContent version t))

theorem Shows.namesOneOf
    {node : Node}
    (hShows : Shows root before (some node) new w)
    (hIndex : IsIndexOf versions node) :
    NamesOneOf root versions (w.tree.entriesAt root) := by
  rcases hIndex with ⟨version, hMem, t, hTime, rfl⟩
  refine ⟨version, hMem, ?_, t, hShows.index⟩
  have hRead := CurrentIndex.decode?_members
    (i := ⟨version, t⟩) hTime
  rw [indexed, hShows.index]
  dsimp only [indexContent]
  rw [hRead]

theorem Stage.visible
    (hStage : Stage root before versions collided p q w) :
    ((w.tree.entriesAt root).get? indexFile =
        before.get? indexFile ∨
      NamesOneOf root versions (w.tree.entriesAt root)) ∧
    ∀ name, name ≠ indexFile → name ≠ newIndexFile →
      (w.tree.entriesAt root).get? name =
        before.get? name := by
  cases hStage with
  | early _ _ hShows =>
      exact ⟨Or.inl hShows.index, hShows.others⟩
  | written _ _ hShows =>
      exact ⟨Or.inl hShows.index, hShows.others⟩
  | bothWritten _ hShows =>
      exact ⟨Or.inl hShows.index, hShows.others⟩
  | moved _ hIndex hShows =>
      exact ⟨Or.inr (hShows.namesOneOf hIndex), hShows.others⟩
  | writtenNext hIndex _ hShows =>
      exact ⟨Or.inr (hShows.namesOneOf hIndex), hShows.others⟩
  | movedByOther hIndex hShows =>
      exact ⟨Or.inr (hShows.namesOneOf hIndex), hShows.others⟩
  | bothMoved hIndex hShows =>
      exact ⟨Or.inr (hShows.namesOneOf hIndex), hShows.others⟩
  | lost hIndex hShows =>
      exact ⟨Or.inr (hShows.namesOneOf hIndex), hShows.others⟩

/- What can be seen in the root at any stage of two calls. -/
theorem Joint.visible
    (hJoint : Joint root before versions collided p q w) :
    ((w.tree.entriesAt root).get? indexFile =
        before.get? indexFile ∨
      NamesOneOf root versions (w.tree.entriesAt root)) ∧
    ∀ name, name ≠ indexFile → name ≠ newIndexFile →
      (w.tree.entriesAt root).get? name =
        before.get? name :=
  Or.elim hJoint Stage.visible Stage.visible

/-
  Two calls that are done: a new index of one of them has been
  moved, and if they have collided, the other one is lost.
-/
theorem Stage.ended
    (hStage : Stage root before versions collided p q w)
    (hFirst : p = .done a)
    (hSecond : q = .done b) :
    NamesOneOf root versions (w.tree.entriesAt root) ∧
      (w.tree.entriesAt root).get? newIndexFile = none ∧
      a = .ok () ∧
      b = if collided then lostIndex root else .ok () := by
  cases hStage with
  | early hEarly _ _ =>
      rcases hEarly.exists_step with ⟨_, _, rfl⟩
      cases hFirst
  | written _ _ _ => exact nomatch hFirst
  | bothWritten _ _ => exact nomatch hFirst
  | moved hEarly _ _ =>
      rcases hEarly.exists_step with ⟨_, _, rfl⟩
      cases hSecond
  | writtenNext _ _ _ => exact nomatch hSecond
  | movedByOther _ _ => exact nomatch hSecond
  | bothMoved hIndex hShows =>
      cases hFirst
      cases hSecond
      exact ⟨hShows.namesOneOf hIndex, hShows.new, rfl, rfl⟩
  | lost hIndex hShows =>
      cases hFirst
      cases hSecond
      exact ⟨hShows.namesOneOf hIndex, hShows.new, rfl, rfl⟩

/- Either of them may be the one that is lost. -/
theorem Joint.ended
    (hJoint : Joint root before versions collided
      (.done a) (.done b) w) :
    NamesOneOf root versions (w.tree.entriesAt root) ∧
      (w.tree.entriesAt root).get? newIndexFile = none ∧
      (collided = false ∧ a = .ok () ∧ b = .ok () ∨
        collided = true ∧
          (a = .ok () ∧ b = lostIndex root ∨
            a = lostIndex root ∧ b = .ok ())) := by
  rcases hJoint with hStage | hStage
  · rcases hStage.ended rfl rfl with ⟨hNames, hGone, hA, hB⟩
    refine ⟨hNames, hGone, ?_⟩
    cases collided with
    | false => exact Or.inl ⟨rfl, hA, hB⟩
    | true => exact Or.inr ⟨rfl, Or.inl ⟨hA, hB⟩⟩
  · rcases hStage.ended rfl rfl with ⟨hNames, hGone, hB, hA⟩
    refine ⟨hNames, hGone, ?_⟩
    cases collided with
    | false => exact Or.inl ⟨rfl, hA, hB⟩
    | true => exact Or.inr ⟨rfl, Or.inr ⟨hA, hB⟩⟩

/-
  Two calls that have not collided come to an end after any
  turns. Both of them are successful unless they collide, and
  then just one of them is.
-/
theorem Joint.interleave
    (hFaultless : s.IsFaultless)
    (hInstants : ∀ step, (s.instant step).IsRepresentable)
    (hCan : CanMark versions before)
    (hJoint : Joint root before versions false p q w)
    (turns : List Nat) :
    ∃ rest a b v,
      Program.takeTurns s (turns ++ rest) [p, q] w =
        ([.done a, .done b], v) ∧
      (Program.interleave turns [p, q]).run s w =
        ([a, b], v) ∧
      NamesOneOf root versions (v.tree.entriesAt root) ∧
      (v.tree.entriesAt root).get? newIndexFile = none ∧
      (¬Collide s root (turns ++ rest) [p, q] w ∧
          a = .ok () ∧ b = .ok () ∨
        Collide s root (turns ++ rest) [p, q] w ∧
          (a = .ok () ∧ b = lostIndex root ∨
            a = lostIndex root ∧ b = .ok ())) := by
  rcases Program.exists_turns_append (s := s) turns [p, q] w
    with ⟨rest, hDone⟩
  rcases hJoint.takeTurns hFaultless hInstants hCan
      (turns ++ rest) with
    ⟨p', q', v, collided, hTurns, hStage, hIff⟩
  rcases hRun : (Program.interleave turns [p, q]).run s w with
    ⟨values, last⟩
  rw [hTurns, hRun, Prod.mk.injEq] at hDone
  rcases hDone with ⟨hValues, rfl⟩
  rcases List.map_eq_cons_iff.mp hValues.symm with
    ⟨a, tail, rfl, rfl, hTail⟩
  rcases List.map_eq_singleton_iff.mp hTail with
    ⟨b, rfl, rfl⟩
  rcases hStage.ended with ⟨hNames, hGone, hResults⟩
  refine ⟨rest, a, b, v, hTurns, rfl, hNames, hGone, ?_⟩
  rw [← hIff]
  rcases hResults with ⟨rfl, hBoth⟩ | ⟨rfl, hOne⟩
  · exact Or.inl ⟨nofun, hBoth⟩
  · exact Or.inr ⟨rfl, hOne⟩

section Marks

variable {first second : Version}

variable (hCan : CanMark [first, second] before)
variable (hAwaits : Awaits root everything before w)

include hCan hAwaits

/- Two calls begin at a stage. -/
theorem joint_markCurrent :
    Joint root before [first, second] false
      (markCurrent root first) (markCurrent root second) w :=
  Or.inl (.early (.start (by simp)) (.start (by simp))
    (.of_awaits (hCan.manifest first (by simp)) hAwaits))

/- Each of them may write before any of them moves. -/
theorem collide_markCurrent
    (hFaultless : s.IsFaultless) :
    Collide s root [0, 0, 0, 1, 1, 1]
      [markCurrent root first, markCurrent root second] w := by
  have hManifest := hCan.manifest first (by simp)
  have hManifest' := hCan.manifest second (by simp)
  have hShows := Shows.of_awaits hManifest hAwaits
  refine ⟨_, List.prefix_rfl, ?_⟩
  -- The first call comes to its last step,
  rcases forward_writeIndex first (s.instant w.advance.steps)
    hFaultless hShows.advance.advance hCan.new with
    ⟨v, hForward, hWritten⟩
  rw [Program.takeTurns_zero,
    forward_markCurrent hShows hManifest,
    Program.takeTurns_zero, forward_tellIndex,
    Program.takeTurns_zero, hForward]
  -- and then the second one.
  rcases forward_writeIndex second (s.instant v.advance.steps)
    hFaultless hWritten.advance.advance (fun _ => nofun) with
    ⟨v', hForward', -⟩
  rw [Program.takeTurns_one,
    forward_markCurrent hWritten hManifest',
    Program.takeTurns_one, forward_tellIndex,
    Program.takeTurns_one, hForward']
  rfl

end Marks

end Publication

end Federation
