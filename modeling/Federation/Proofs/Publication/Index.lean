import Federation.Proofs.Publication.Directory

/-
  What a root of publication may hold: the bundles of
  versions, and the index of one that is there. To name a
  version current keeps a root like that.

  Main declarations:
    * `Publication.IsSoundEntry`, `Publication.IsSound`
    * `Publication.IsSound.settled`
    * `Publication.HasSoundRoot`
    * `Publication.current_run`
    * `Publication.IsMarked`
    * `Publication.safely_markCurrent`
-/

namespace Federation

namespace Publication

open Program (Safely rootFrame Tracks Awaits)

------------------------------------------------------------
-- Sound Entries
------------------------------------------------------------

/-
  An entry of a root is the bundle of a version, at the place
  of that version, or the index, which names a version whose
  directory is among the entries.
-/
inductive IsSoundEntry
    (entries : Tree) : String → Node → Prop
| bundle
    {version : Version}
    {files : Tree}
    (hBundle : IsBundle version files) :
    IsSoundEntry entries version.display (.directory files)
| index
    {content : Bytes}
    {index : CurrentIndex}
    (hIndex : decode? CurrentIndex.read content = some index)
    (hThere : HasBundle index.currentVersion entries) :
    IsSoundEntry entries indexFile (.file content)

/- All that a root holds is bundles and an index of them. -/
def IsSound (entries : Tree) : Prop :=
  ∀ name node, entries.get? name = some node →
    IsSoundEntry entries name node

variable {entries entries' : Tree}
variable {version : Version}

theorem isSound_nil : IsSound [] :=
  fun _ _ hNode => nomatch hNode

/- Entries are kept as long as the directories are there. -/
theorem IsSoundEntry.mono
    {name : String}
    {node : Node}
    (hEntry : IsSoundEntry entries name node)
    (hThere : ∀ version, HasBundle version entries →
      HasBundle version entries') :
    IsSoundEntry entries' name node := by
  cases hEntry with
  | bundle hBundle => exact .bundle hBundle
  | index hIndex hNamed => exact .index hIndex (hThere _ hNamed)

/- What belongs to a version is nothing but its bundle. -/
theorem IsSound.of_owns
    {name : String}
    {node : Node}
    (hSound : IsSound entries)
    (hOwns : Owns version name)
    (hNode : entries.get? name = some node) :
    name = version.display ∧
      ∃ files, node = .directory files ∧
        IsBundle version files := by
  cases hSound name node hNode with
  | bundle hBundle =>
      have hSame := hOwns.unique .bundle
      subst hSame
      exact ⟨rfl, _, rfl, hBundle⟩
  | index =>
      exact absurd hOwns (not_owns_index version (Or.inl rfl))

/- In a sound root every version is settled. -/
theorem IsSound.settled
    (hSound : IsSound entries)
    (version : Version) :
    Settled version entries where
  staging fresh := by
    rw [Option.eq_none_iff_forall_ne_some]
    intro node hNode
    exact stagingName_ne_display version version fresh
      (hSound.of_owns (.staging fresh) hNode).1
  retired fresh := by
    rw [Option.eq_none_iff_forall_ne_some]
    intro node hNode
    exact retiredName_ne_display version version fresh
      (hSound.of_owns (.retired fresh) hNode).1
  bundle _ hNode := (hSound.of_owns .bundle hNode).2

/-
  The other way round: versions that are settled again, with
  no directory lost, and all else as before.
-/
theorem IsSound.of_settled
    {versions : List Version}
    (hSound : IsSound entries)
    (hSettled : ∀ version ∈ versions,
      Settled version entries' ∧
      (HasBundle version entries →
        HasBundle version entries'))
    (hOthers : ∀ name,
      (∀ version ∈ versions, ¬Owns version name) →
      entries'.get? name = entries.get? name) :
    IsSound entries' := by
  have hThere : ∀ version, HasBundle version entries →
      HasBundle version entries' := by
    intro version hBefore
    by_cases hMem : version ∈ versions
    · exact (hSettled version hMem).2 hBefore
    · rcases hBefore with ⟨files, hFiles⟩
      refine ⟨files, (hOthers _ ?_).trans hFiles⟩
      intro other hOther hOwns
      exact hMem (hOwns.unique .bundle ▸ hOther)
  intro name node hNode
  by_cases hOwned : ∃ version ∈ versions, Owns version name
  · rcases hOwned with ⟨version, hMem, hOwns⟩
    have hHere := (hSettled version hMem).1
    cases hOwns with
    | bundle =>
        rcases hHere.bundle node hNode with
          ⟨files, rfl, hBundle⟩
        exact .bundle hBundle
    | staging fresh =>
        rw [hHere.staging fresh] at hNode
        cases hNode
    | retired fresh =>
        rw [hHere.retired fresh] at hNode
        cases hNode
  · have hSame := hOthers name fun version hMem hOwns =>
      hOwned ⟨version, hMem, hOwns⟩
    rw [hSame] at hNode
    exact (hSound name node hNode).mono hThere

------------------------------------------------------------
-- Sound Roots
------------------------------------------------------------

/- A root is there or can be created, and what it holds is sound. -/
structure HasSoundRoot (root : Path) (tree : Tree) : Prop where
  canHave : tree.CanHaveRoot root
  sound : IsSound (tree.entriesAt root)

variable {root : Path}
variable {w : World}

/- Soundness is a matter of the entries under names. -/
theorem IsSound.congr
    (hSound : IsSound entries)
    (hSame : ∀ name, entries'.get? name = entries.get? name) :
    IsSound entries' := by
  intro name node hNode
  rw [hSame name] at hNode
  apply (hSound name node hNode).mono
  rintro version ⟨files, hFiles⟩
  exact ⟨files, (hSame version.display).trans hFiles⟩

/- Every name below a root. -/
def everything : String → Prop :=
  fun _ => True

theorem HasSoundRoot.of_awaits
    (hSound : IsSound entries)
    (hAwaits : Awaits root everything entries w) :
    HasSoundRoot root w.tree :=
  ⟨hAwaits.canHave,
    hSound.congr fun name => hAwaits.agree name trivial⟩

------------------------------------------------------------
-- The Current Version
------------------------------------------------------------

variable {content : Bytes}

/- The entries of a root with another index. -/
def withIndex (content : Bytes) (entries : Tree) : Tree :=
  Tree.moved newIndexFile indexFile (.file content)
    (entries.insert newIndexFile (.file content))

theorem newIndexFile_ne_indexFile :
    newIndexFile ≠ indexFile := by
  decide

theorem get?_withIndex
    {name : String}
    (hOld : name ≠ newIndexFile)
    (hNew : name ≠ indexFile) :
    Table.get? name (withIndex content entries) =
      entries.get? name := by
  rw [withIndex, Tree.get?_moved_of_ne hOld hNew,
    Table.get?_insert_of_ne _ _ hOld]

theorem get?_withIndex_display (version : Version) :
    Table.get? version.display (withIndex content entries) =
      entries.get? version.display := by
  refine get?_withIndex (fun hSame => ?_) (fun hSame => ?_)
  · exact not_owns_index version (Or.inr hSame) .bundle
  · exact not_owns_index version (Or.inl hSame) .bundle

/- An index that names a version whose directory is there. -/
theorem IsSound.withIndex
    {index : CurrentIndex}
    (hSound : IsSound entries)
    (hIndex : decode? CurrentIndex.read content = some index)
    (hThere : HasBundle index.currentVersion entries) :
    IsSound (withIndex content entries) := by
  have hStill : ∀ version, HasBundle version entries →
      HasBundle version
        (Publication.withIndex content entries) := by
    rintro version ⟨files, hFiles⟩
    exact ⟨files,
      (get?_withIndex_display version).trans hFiles⟩
  intro name node hNode
  by_cases hOld : name = newIndexFile
  · rw [hOld, Publication.withIndex, Tree.get?_moved_old]
      at hNode
    cases hNode
  · by_cases hNew : name = indexFile
    · rw [hNew, Publication.withIndex, Tree.get?_moved_new
        newIndexFile_ne_indexFile] at hNode
      cases hNode
      rw [hNew]
      exact .index hIndex (hStill _ hThere)
    · rw [get?_withIndex hOld hNew] at hNode
      exact (hSound name node hNode).mono hStill

/- A file may be moved to where no directory is. -/
theorem replace_file
    {place : Option Node}
    (hPlace : ∀ inner, place ≠ some (.directory inner)) :
    Tree.replace (.file content) place =
      .ok (some (.file content)) := by
  cases place with
  | none => rfl
  | some node =>
      cases node with
      | file old => rfl
      | directory inner => exact absurd rfl (hPlace inner)

/- A new index may take the place of the one that is there. -/
theorem replace_index
    {other : Bytes}
    (hIndex : ∀ inner,
      entries.get? indexFile ≠ some (.directory inner)) :
    Tree.replace (.file content)
        (Table.get? indexFile
          (entries.insert newIndexFile (.file other))) =
      .ok (some (.file content)) := by
  rw [Table.get?_insert_of_ne _ _
    newIndexFile_ne_indexFile.symm]
  exact replace_file hIndex

theorem IsSound.index_ne_directory
    (hSound : IsSound entries)
    {name : String}
    (hIndex : name = indexFile ∨ name = newIndexFile)
    (inner : Tree) :
    entries.get? name ≠ some (.directory inner) := by
  intro hNode
  generalize hInner : Node.directory inner = node at hNode
  cases hSound name node hNode with
  | bundle => exact not_owns_index _ hIndex .bundle
  | index => cases hInner

variable {s : Surroundings}

/- The version that the index among some entries names. -/
def indexed
    (root : Path)
    (entries : Tree) : Published (Option Version) :=
  match entries.get? indexFile with
  | none => .ok none
  | some (.directory _) =>
      .error (.storage .read (root.join indexFile) .isDirectory)
  | some (.file content) =>
      match decode? CurrentIndex.read content with
      | none => .error (.content (root.join indexFile))
      | some index => .ok (some index.currentVersion)

/- The current version is read from the entries of the root. -/
theorem current_run
    (hFaultless : s.IsFaultless)
    (hCanHave : w.tree.CanHaveRoot root) :
    ((current root).run s w).1 =
      indexed root (w.tree.entriesAt root) := by
  have hNode := hCanHave.node_eq
    (Path.isBelow_join root indexFile)
  have hRead : ((Program.read (root.join indexFile)).run s
        w).1 =
      (match (w.tree.entriesAt root).get? indexFile with
        | none => .error .notFound
        | some (.directory _) => .error .isDirectory
        | some (.file content) => .ok content) := by
    change (w.perform s (.read (root.join indexFile))).1 = _
    rw [World.perform, World.look, hFaultless]
    dsimp only
    rw [hNode, Tree.find_single]
    cases (w.tree.entriesAt root).get? indexFile with
    | none => rfl
    | some node => cases node <;> rfl
  change ((((Program.read (root.join indexFile)).bind _).bind
    _).run s w).1 = _
  rw [Program.run_bind, Program.run_bind, hRead, indexed]
  cases (w.tree.entriesAt root).get? indexFile with
  | none => rfl
  | some node =>
      cases node with
      | directory inner => rfl
      | file content =>
          dsimp only
          cases decode? CurrentIndex.read content <;> rfl

/-
  The index of a root names a version, and all else in the
  root is as it was.
-/
def IsMarked
    (root : Path)
    (version : Version)
    (entries : Tree)
    (w : World) : Prop :=
  ∃ content index,
    decode? CurrentIndex.read content = some index ∧
      index.currentVersion = version ∧
      Awaits root everything (withIndex content entries) w

theorem IsMarked.of_rely
    {w' : World}
    (hMarked : IsMarked root version entries w)
    (hRely : Program.KeepsRoot root everything w w') :
    IsMarked root version entries w' := by
  rcases hMarked with ⟨content, index, hIndex, hNamed, hAwaits⟩
  exact ⟨content, index, hIndex, hNamed, hAwaits.of_rely hRely⟩

theorem IsMarked.hasSoundRoot
    (hMarked : IsMarked root version entries w)
    (hSound : IsSound entries)
    (hThere : HasBundle version entries) :
    HasSoundRoot root w.tree := by
  rcases hMarked with ⟨content, index, hIndex, rfl, hAwaits⟩
  exact .of_awaits (hSound.withIndex hIndex hThere) hAwaits

theorem IsMarked.indexed_eq
    (hMarked : IsMarked root version entries w) :
    indexed root (w.tree.entriesAt root) =
      .ok (some version) := by
  rcases hMarked with ⟨content, index, hIndex, rfl, hAwaits⟩
  rw [indexed, hAwaits.agree indexFile trivial,
    Publication.withIndex,
    Tree.get?_moved_new newIndexFile_ne_indexFile]
  simp only [hIndex]

theorem IsMarked.get?_display
    (hMarked : IsMarked root version entries w)
    (other : Version) :
    (w.tree.entriesAt root).get? other.display =
      entries.get? other.display := by
  rcases hMarked with ⟨content, index, -, -, hAwaits⟩
  rw [hAwaits.agree other.display trivial,
    get?_withIndex_display]

/- A bundle has a manifest. -/
theorem IsBundle.holdsFile
    {files : Tree}
    (hBundle : IsBundle version files)
    (hFiles : entries.get? version.display =
      some (.directory files)) :
    Program.HoldsFile entries version.display
      manifestFile := by
  rcases hBundle with ⟨manifest, _, _, rfl, -⟩
  refine ⟨manifest, ?_⟩
  rw [Tree.find_cons_directory _ hFiles]
  rfl

/- The manifest tells whether a version has a directory. -/
theorem IsSound.holdsFile_iff
    (hSound : IsSound entries) :
    Program.HoldsFile entries version.display manifestFile ↔
      HasBundle version entries := by
  constructor
  · rintro ⟨content, hFound⟩
    exact Tree.get?_of_find_pair hFound
  · rintro ⟨files, hFiles⟩
    rcases (hSound.settled version).bundle _ hFiles with
      ⟨_, hSame, hBundle⟩
    cases hSame
    exact hBundle.holdsFile hFiles

/- What the index holds that names a version at an instant. -/
def indexContent (version : Version) (t : Instant) : Bytes :=
  fileBytes (CurrentIndex.members ⟨version, t⟩)

/-
  A version with a manifest is made current, and the index
  tells when.
-/
theorem safely_moveIndex
    {told : Instant → Prop}
    (hFaultless : s.IsFaultless)
    (hTold : ∀ step, told (s.instant step))
    (hManifest : Program.HoldsFile entries version.display
      manifestFile)
    (hIndex : ∀ name, name = indexFile ∨ name = newIndexFile →
      ∀ inner, entries.get? name ≠ some (.directory inner))
    (hAwaits : Awaits root everything entries w) :
    (markCurrent root version).Safely s
      (rootFrame root everything) w
      fun a w => a = .ok () ∧ ∃ t, told t ∧
        Awaits root everything
          (withIndex (indexContent version t) entries) w := by
  apply (Program.safely_isFile hAwaits trivial).bind
  rintro a v ⟨hFile, hAwaits⟩
  rw [hFile.mpr hManifest]
  have hTracks := hManifest.tracks hAwaits trivial
  apply (Program.safely_now hTold Tracks.isStable
    hTracks).bind
  rintro t v ⟨hTime, hTracks⟩
  -- The new index is written beside the old one.
  apply safely_attempt
    (Program.safely_write hFaultless hTracks trivial
      (hIndex _ (Or.inr rfl)))
  intro v hWritten
  -- Then it takes the place of the old one.
  refine safely_attempt
    (Program.safely_rename hFaultless hWritten trivial
      trivial newIndexFile_ne_indexFile
      (Table.get?_insert_self _ _ _)
      (replace_index (hIndex _ (Or.inl rfl)))) ?_
  intro v hMoved v' hRely
  exact ⟨rfl, t, hTime, (hMoved.of_rely hRely).awaits⟩

/-
  A version is made current if it has a directory, and else
  there is an error and the root is as it was.
-/
theorem safely_markCurrent
    (hFaultless : s.IsFaultless)
    (hInstants : ∀ step, (s.instant step).IsRepresentable)
    (hSound : IsSound entries)
    (hAwaits : Awaits root everything entries w) :
    (markCurrent root version).Safely s
      (rootFrame root everything) w
      fun a w =>
        HasBundle version entries ∧ a = .ok () ∧
            IsMarked root version entries w ∨
          ¬HasBundle version entries ∧
            a = .error (.notPublished version) ∧
            Awaits root everything entries w := by
  by_cases hThere : HasBundle version entries
  · refine (safely_moveIndex hFaultless hInstants
      (hSound.holdsFile_iff.mpr hThere)
      (fun _ => hSound.index_ne_directory) hAwaits).mono ?_
    rintro a v ⟨hDone, t, hTime, hAwaits⟩
    have hIndex := CurrentIndex.decode?_members
      (i := ⟨version, t⟩) hTime
    exact Or.inl ⟨hThere, hDone, _, _, hIndex, rfl, hAwaits⟩
  · apply (Program.safely_isFile hAwaits trivial).bind
    rintro a v ⟨hFile, hAwaits⟩
    rw [hSound.holdsFile_iff] at hFile
    cases a with
    | true => exact absurd (hFile.mp rfl) hThere
    | false =>
        intro v' hRely
        exact Or.inr ⟨hThere, rfl, hAwaits.of_rely hRely⟩

end Publication

end Federation
