import Federation.Proofs.Publication.Bundle
import Federation.Proofs.Publication.Names
import Federation.Proofs.Storage.Root

/-
  Publication without failures: a bundle comes to the place
  of its version, and every other entry is as before.

  Main declarations:
    * `Publication.Settled`
    * `Publication.HasFreshNames`
    * `Publication.safely_stage`
    * `Publication.safely_swapIn`
    * `Publication.safely_publish`
-/

namespace Federation

namespace Publication

open Program (Safely Frame rootFrame Tracks Awaits)

variable {s : Surroundings}
variable {root : Path}
variable {version : Version}
variable {w : World}

------------------------------------------------------------
-- Settled Versions
------------------------------------------------------------

/-
  Nothing stands beside the place of a version, and what is
  at its place, if anything, is its bundle.
-/
structure Settled
    (version : Version)
    (entries : Tree) : Prop where
  staging : ∀ fresh,
    entries.get? (stagingName version fresh) = none
  retired : ∀ fresh,
    entries.get? (retiredName version fresh) = none
  bundle : ∀ node,
    entries.get? version.display = some node →
    ∃ files, node = .directory files ∧ IsBundle version files

/- There is a directory at the place of a version. -/
def HasBundle
    (version : Version)
    (entries : Tree) : Prop :=
  ∃ files,
    entries.get? version.display = some (.directory files)

/- Whether a version is settled depends on its own names. -/
theorem Settled.congr
    {entries entries' : Tree}
    (hSettled : Settled version entries)
    (hAgree : Tree.AgreeOn (Owns version) entries' entries) :
    Settled version entries' where
  staging fresh :=
    (hAgree _ (.staging fresh)).trans (hSettled.staging fresh)
  retired fresh :=
    (hAgree _ (.retired fresh)).trans (hSettled.retired fresh)
  bundle node hNode :=
    hSettled.bundle node ((hAgree _ .bundle).symm.trans hNode)

/- The bundle of a version may come to its place. -/
theorem Settled.insert
    {entries files : Tree}
    (hSettled : Settled version entries)
    (hBundle : IsBundle version files) :
    Settled version
      (Table.insert version.display (.directory files)
        entries) where
  staging fresh := by
    rw [Table.get?_insert_of_ne _ _ (stagingName_ne_display
      version version fresh), hSettled.staging]
  retired fresh := by
    rw [Table.get?_insert_of_ne _ _ (retiredName_ne_display
      version version fresh), hSettled.retired]
  bundle node hNode := by
    rw [Table.get?_insert_self] at hNode
    cases hNode
    exact ⟨files, rfl, hBundle⟩

theorem Settled.noFile
    {entries : Tree}
    (hSettled : Settled version entries)
    (content : Bytes) :
    entries.get? version.display ≠ some (.file content) := by
  intro hFile
  rcases hSettled.bundle _ hFile with ⟨_, hSame, -⟩
  cases hSame

/- A version is published, and nothing stands beside it. -/
def IsPublished
    (root : Path)
    (version : Version)
    (w : World) : Prop :=
  ∃ entries, Tracks root (Owns version) entries w ∧
    Settled version entries ∧ HasBundle version entries

/-
  No entry has a name that is made for a version from some
  step on.
-/
def HasFreshNames
    (s : Surroundings)
    (version : Version)
    (entries : Tree)
    (first : Nat) : Prop :=
  ∀ step, first ≤ step →
    entries.get? (stagingName version (s.name step)) = none ∧
      entries.get? (retiredName version (s.name step)) = none

theorem HasFreshNames.later
    {entries : Tree}
    {first second : Nat}
    (hNames : HasFreshNames s version entries first)
    (hLater : first ≤ second) :
    HasFreshNames s version entries second :=
  fun step hStep => hNames step (Nat.le_trans hLater hStep)

theorem Settled.hasFreshNames
    {entries : Tree}
    (hSettled : Settled version entries)
    (s : Surroundings)
    (first : Nat) :
    HasFreshNames s version entries first :=
  fun _ _ => ⟨hSettled.staging _, hSettled.retired _⟩

------------------------------------------------------------
-- Writing
------------------------------------------------------------

theorem safely_attempt
    {α : Type}
    {frame : Frame}
    {action : StorageAction}
    {path : Path}
    {program : Program (Stored Unit)}
    {next : Unit → Program (Published α)}
    {known : World → Prop}
    {post : Published α → World → Prop}
    (hProgram : program.Safely s frame w
      fun a w => a = .ok () ∧ known w)
    (hNext : ∀ w, known w →
      (next ()).Safely s frame w post) :
    (attempt action path program next).Safely s frame w
      post := by
  apply hProgram.bind
  rintro a w ⟨rfl, hKnown⟩
  exact hNext w hKnown

/- A directory with files put into it, one after the other. -/
def withFiles
    (directory : Tree)
    (files : List (String × Bytes)) : Tree :=
  files.foldl
    (fun directory (name, content) =>
      directory.insert name (.file content))
    directory

/- A file of another name is as free as before. -/
theorem free_of_insert
    {files : List (String × Bytes)}
    {directory : Tree}
    {file : String}
    {content : Bytes}
    (hNew : file ∉ files.map Prod.fst)
    (hFree : ∀ other ∈ files, directory.get? other.1 = none) :
    ∀ other ∈ files,
      Table.get? other.1
        (directory.insert file (.file content)) = none := by
  intro other hMem
  have hNe : other.1 ≠ file := fun hSame =>
    hNew (List.mem_map.mpr ⟨other, hMem, hSame⟩)
  rw [Table.get?_insert_of_ne _ _ hNe, hFree other hMem]

theorem safely_writeFiles
    {names : String → Prop}
    {name : String}
    {files : List (String × Bytes)}
    {entries directory : Tree}
    (hFaultless : s.IsFaultless)
    (hName : names name)
    (hDirectory : entries.get? name =
      some (.directory directory))
    (hFree : ∀ file ∈ files, directory.get? file.1 = none)
    (hFiles : (files.map Prod.fst).Nodup)
    (hTracks : Tracks root names entries w) :
    (writeFiles (root.join name) files).Safely s
      (rootFrame root names) w
      fun a w => a = .ok () ∧
        Tracks root names
          (entries.insert name
            (.directory (withFiles directory files))) w := by
  induction files generalizing entries directory w with
  | nil =>
      intro v hRely
      have hSame := hTracks.congr
        (Tree.agreeOn_insert_of_get? hDirectory)
      exact ⟨rfl, hSame.of_rely hRely⟩
  | cons file files ih =>
      rcases file with ⟨file, content⟩
      rw [List.forall_mem_cons] at hFree
      rw [List.map_cons, List.nodup_cons] at hFiles
      apply safely_attempt
        (Program.safely_write_in hFaultless hTracks hName
          hDirectory hFree.1)
      intro v hWritten
      refine (ih (Table.get?_insert_self _ _ _)
        (free_of_insert hFiles.1 hFree.2) hFiles.2
        hWritten).mono ?_
      rintro a v ⟨hDone, hAll⟩
      exact ⟨hDone, hAll.congr
        (Tree.agreeOn_insert_insert _ _ _ _)⟩

/- The files of a bundle have different names. -/
theorem nodup_bundleFiles
    (b : Bundle)
    (publishedAt : Instant) :
    ((bundleFiles b publishedAt).map Prod.fst).Nodup := by
  simp [bundleFiles, DocumentKind.fileName, manifestFile]

/- The files of a bundle make its directory. -/
theorem withFiles_bundleFiles
    (b : Bundle)
    (publishedAt : Instant) :
    withFiles [] (bundleFiles b publishedAt) =
      b.directory publishedAt :=
  rfl

theorem safely_stage
    {names : String → Prop}
    {name : String}
    {b : Bundle}
    {entries : Tree}
    {told : Instant → Prop}
    (hFaultless : s.IsFaultless)
    (hTold : ∀ step, told (s.instant step))
    (hName : names name)
    (hFree : entries.get? name = none)
    (hTracks : Tracks root names entries w) :
    (stage (root.join name) b).Safely s
      (rootFrame root names) w
      fun a w => a = .ok () ∧ ∃ t, told t ∧
        Tracks root names
          (entries.insert name (.directory (b.directory t)))
          w := by
  apply safely_attempt
    (Program.safely_create hFaultless hTracks hName hFree)
  intro v hCreated
  apply (Program.safely_now hTold Tracks.isStable
    hCreated).bind
  rintro t v ⟨hTime, hCreated⟩
  refine (safely_writeFiles hFaultless hName
    (Table.get?_insert_self _ _ _) (fun _ _ => rfl)
    (nodup_bundleFiles b t) hCreated).mono ?_
  rintro a v ⟨hDone, hAll⟩
  rw [withFiles_bundleFiles] at hAll
  exact ⟨hDone, t, hTime, hAll.congr
    (Tree.agreeOn_insert_insert _ _ _ _)⟩

------------------------------------------------------------
-- Moving
------------------------------------------------------------

variable {fresh : String}
variable {entries files : Tree}

/- The entries of a root with a bundle beside its place. -/
def withStaging
    (version : Version)
    (fresh : String)
    (files entries : Tree) : Tree :=
  entries.insert (stagingName version fresh)
    (.directory files)

theorem get?_withStaging
    {name : String}
    (hOther : name ≠ stagingName version fresh) :
    Table.get? name (withStaging version fresh files entries) =
      entries.get? name :=
  Table.get?_insert_of_ne _ _ hOther

theorem get?_withStaging_display :
    Table.get? version.display
        (withStaging version fresh files entries) =
      entries.get? version.display :=
  get?_withStaging
    (stagingName_ne_display version version fresh).symm

/- The new bundle has come to a place that was free. -/
theorem agreeOn_moveIn
    {names : String → Prop}
    (hFree : entries.get? (stagingName version fresh) = none) :
    Tree.AgreeOn names
      (Tree.moved (stagingName version fresh) version.display
        (.directory files)
        (withStaging version fresh files entries))
      (entries.insert version.display (.directory files)) := by
  have hNe := stagingName_ne_display version version fresh
  intro name _
  rw [withStaging, Tree.get?_moved, Table.get?_insert,
    Table.get?_insert]
  by_cases hStaging : name = stagingName version fresh
  · simp [hStaging, hNe, hFree]
  · simp [hStaging]

/- Without an earlier bundle the new one is moved at once. -/
theorem safely_moveIn
    (hFaultless : s.IsFaultless)
    (hFree : entries.get? (stagingName version fresh) = none)
    (hMissing : entries.get? version.display = none)
    (hTracks : Tracks root (Owns version)
      (withStaging version fresh files entries) w) :
    (Program.rename (root.join (stagingName version fresh))
        (root.join version.display)).Safely s
      (rootFrame root (Owns version)) w
      fun a w => a = .ok () ∧
        Tracks root (Owns version)
          (entries.insert version.display (.directory files))
          w := by
  have hNe := stagingName_ne_display version version fresh
  have hPlace : Tree.replace (.directory files)
      (Table.get? version.display
        (withStaging version fresh files entries)) =
      .ok (some (.directory files)) := by
    rw [get?_withStaging_display, hMissing]
    rfl
  refine (Program.safely_rename hFaultless hTracks
    (.staging fresh) .bundle hNe
    (Table.get?_insert_self _ _ _) hPlace).mono ?_
  rintro a v ⟨hDone, hMoved⟩
  exact ⟨hDone, hMoved.congr (agreeOn_moveIn hFree)⟩

/- The entries once the earlier bundle has been moved away. -/
def withRetired
    (version : Version)
    (fresh other : String)
    (old files entries : Tree) : Tree :=
  Tree.moved version.display (retiredName version other)
    (.directory old) (withStaging version fresh files entries)

/- The entries once the new bundle has come to its place. -/
def withBoth
    (version : Version)
    (fresh other : String)
    (old files entries : Tree) : Tree :=
  Tree.moved (stagingName version fresh) version.display
    (.directory files)
    (withRetired version fresh other old files entries)

section Replaced

variable {other : String}
variable {old : Tree}

/- Anything may be moved to a name that is made for it. -/
theorem replace_withStaging_retired
    (hFree : entries.get? (retiredName version other) = none)
    (node : Node) :
    Tree.replace node
      (Table.get? (retiredName version other)
        (withStaging version fresh files entries)) =
      .ok (some node) := by
  rw [get?_withStaging
    (stagingName_ne_retiredName version fresh other).symm,
    hFree]
  rfl

theorem get?_withRetired_display :
    Table.get? version.display
      (withRetired version fresh other old files entries) =
        none :=
  Tree.get?_moved_old

/- Anything may be moved to the place. -/
theorem replace_withRetired_display (node : Node) :
    Tree.replace node
      (Table.get? version.display
        (withRetired version fresh other old files entries)) =
      .ok (some node) := by
  rw [get?_withRetired_display]
  rfl

theorem get?_withRetired_retired :
    Table.get? (retiredName version other)
        (withRetired version fresh other old files entries) =
      some (.directory old) :=
  Tree.get?_moved_new
    (retiredName_ne_display version version other).symm

theorem get?_withRetired_staging :
    Table.get? (stagingName version fresh)
        (withRetired version fresh other old files entries) =
      some (.directory files) := by
  rw [withRetired, Tree.get?_moved_of_ne
    (stagingName_ne_display version version fresh)
    (stagingName_ne_retiredName version fresh other)]
  exact Table.get?_insert_self _ _ _

theorem get?_withBoth_retired :
    Table.get? (retiredName version other)
        (withBoth version fresh other old files entries) =
      some (.directory old) := by
  rw [withBoth, Tree.get?_moved_of_ne
    (stagingName_ne_retiredName version fresh other).symm
    (retiredName_ne_display version version other)]
  exact Tree.get?_moved_new
    (retiredName_ne_display version version other).symm

/- The new bundle is at its place, and the earlier one gone. -/
theorem agreeOn_replaced
    {names : String → Prop}
    (hStagingFree :
      entries.get? (stagingName version fresh) = none)
    (hRetiredFree :
      entries.get? (retiredName version other) = none) :
    Tree.AgreeOn names
      ((withBoth version fresh other old files entries).erase
        (retiredName version other))
      (entries.insert version.display (.directory files)) := by
  have hRetiredNe :=
    retiredName_ne_display version version other
  have hStagingNe :=
    stagingName_ne_display version version fresh
  intro name _
  rw [withBoth, withRetired, withStaging, Table.get?_erase,
    Tree.get?_moved, Tree.get?_moved, Table.get?_insert,
    Table.get?_insert]
  by_cases hRetired : name = retiredName version other
  · simp [hRetired, hRetiredNe, hRetiredFree]
  · by_cases hStaging : name = stagingName version fresh
    · simp [hStaging, hStagingNe, hStagingFree]
    · by_cases hPlace : name = version.display
      · simp [hPlace, hRetiredNe.symm, hStagingNe.symm]
      · simp [hRetired, hStaging, hPlace]

/-
  What is done if the new bundle cannot be moved to the place:
  the earlier one is moved back.
-/
def restore
    (root : Path)
    (version : Version)
    (fresh other : String)
    (fault : StorageFault) : Program (Published Unit) :=
  let staging := root.join (stagingName version fresh)
  let retired := root.join (retiredName version other)
  (Program.rename retired (root.join version.display)).bind fun
    | .ok _ => .done (.error (.storage .rename staging fault))
    | .error lost =>
        .done (.error (.notRestored version retired lost))

/-
  What is done once the earlier bundle has been moved away:
  the new one is moved to its place, or it is moved back.
-/
def exchange
    (root : Path)
    (version : Version)
    (fresh other : String) : Program (Published Unit) :=
  let staging := root.join (stagingName version fresh)
  let retired := root.join (retiredName version other)
  (Program.rename staging (root.join version.display)).bind fun
    | .ok _ =>
        (Program.removeAll retired).bind fun _ =>
          .done (.ok ())
    | .error fault => restore root version fresh other fault

theorem replaceBundle_eq
    (root : Path)
    (version : Version)
    (fresh : String) :
    replaceBundle root
        (root.join (stagingName version fresh))
        (versionDirectory root version) version =
      Program.freshName.bind fun other =>
        attempt .rename (root.join version.display)
          (.rename (root.join version.display)
            (root.join (retiredName version other)))
          fun _ => exchange root version fresh other :=
  rfl

/- The new bundle comes to the place that is free. -/
theorem safely_exchange
    (hFaultless : s.IsFaultless)
    (hStagingFree :
      entries.get? (stagingName version fresh) = none)
    (hRetiredFree :
      entries.get? (retiredName version other) = none)
    (hTracks : Tracks root (Owns version)
      (withRetired version fresh other old files entries) w) :
    (exchange root version fresh other).Safely s
      (rootFrame root (Owns version)) w
      fun a w => a = .ok () ∧
        Tracks root (Owns version)
          (entries.insert version.display (.directory files))
          w := by
  refine (Program.safely_rename hFaultless hTracks
    (.staging fresh) .bundle
    (stagingName_ne_display version version fresh)
    get?_withRetired_staging
    (replace_withRetired_display _)).bind ?_
  rintro a v ⟨rfl, hMoved⟩
  refine (Program.safely_removeAll hFaultless hMoved
    (.retired other) get?_withBoth_retired).bind ?_
  rintro a v ⟨-, hRemoved⟩ v' hRely
  exact ⟨rfl, (hRemoved.of_rely hRely).congr
    (agreeOn_replaced hStagingFree hRetiredFree)⟩

/- An earlier bundle gives way to the new one. -/
theorem safely_replaceBundle
    (hFaultless : s.IsFaultless)
    (hNames : HasFreshNames s version entries 0)
    (hFree : entries.get? (stagingName version fresh) = none)
    (hOld : entries.get? version.display =
      some (.directory old))
    (hTracks : Tracks root (Owns version)
      (withStaging version fresh files entries) w) :
    (replaceBundle root
        (root.join (stagingName version fresh))
        (versionDirectory root version) version).Safely s
      (rootFrame root (Owns version)) w
      fun a w => a = .ok () ∧
        Tracks root (Owns version)
          (entries.insert version.display (.directory files))
          w := by
  rw [replaceBundle_eq]
  apply (Program.safely_freshName Tracks.isStable
    hTracks).bind
  rintro _ v ⟨⟨step, rfl⟩, hTracks⟩
  have hRetiredFree := (hNames step (Nat.zero_le _)).2
  refine safely_attempt
    (Program.safely_rename hFaultless hTracks .bundle
      (.retired _)
      (retiredName_ne_display version version _).symm
      (get?_withStaging_display.trans hOld)
      (replace_withStaging_retired hRetiredFree _)) ?_
  intro v hRetired
  exact safely_exchange hFaultless hFree hRetiredFree hRetired

end Replaced

theorem safely_swapIn
    (hFaultless : s.IsFaultless)
    (hNames : HasFreshNames s version entries 0)
    (hFree : entries.get? (stagingName version fresh) = none)
    (hPlace : ∀ content,
      entries.get? version.display ≠ some (.file content))
    (hTracks : Tracks root (Owns version)
      (withStaging version fresh files entries) w) :
    (swapIn root (root.join (stagingName version fresh))
        (versionDirectory root version) version).Safely s
      (rootFrame root (Owns version)) w
      fun a w => a = .ok () ∧
        Tracks root (Owns version)
          (entries.insert version.display (.directory files))
          w := by
  apply (Program.safely_isPresent hTracks .bundle).bind
  rintro a v ⟨rfl, hTracks⟩
  rw [get?_withStaging_display]
  cases hNode : entries.get? version.display with
  | none =>
      apply safely_attempt
        (safely_moveIn hFaultless hFree hNode hTracks)
      intro v hPublished v' hRely
      exact ⟨rfl, hPublished.of_rely hRely⟩
  | some node =>
      cases node with
      | file content => exact absurd hNode (hPlace content)
      | directory old =>
          exact safely_replaceBundle hFaultless hNames hFree
            hNode hTracks

------------------------------------------------------------
-- Publishing
------------------------------------------------------------

variable {b : Bundle}
variable {told : Instant → Prop}

theorem safely_install
    (hFaultless : s.IsFaultless)
    (hTold : ∀ step, told (s.instant step))
    (hNames : HasFreshNames s b.version entries 0)
    (hFree : entries.get? (stagingName b.version fresh) = none)
    (hPlace : ∀ content,
      entries.get? b.version.display ≠ some (.file content))
    (hTracks : Tracks root (Owns b.version) entries w) :
    (install root (root.join (stagingName b.version fresh))
        b).Safely s
      (rootFrame root (Owns b.version)) w
      fun a w => a = .ok () ∧ ∃ t, told t ∧
        Tracks root (Owns b.version)
          (entries.insert b.version.display
            (.directory (b.directory t))) w := by
  apply (safely_stage hFaultless hTold (.staging fresh) hFree
    hTracks).bind
  rintro a v ⟨rfl, t, hTime, hStaged⟩
  refine (safely_swapIn hFaultless hNames hFree hPlace
    hStaged).mono ?_
  rintro a v ⟨hDone, hPublished⟩
  exact ⟨hDone, t, hTime, hPublished⟩

/-
  A bundle is published with the instant of its publication,
  whatever was at its place before.
-/
theorem safely_publish
    (hFaultless : s.IsFaultless)
    (hTold : ∀ step, told (s.instant step))
    (hNames : HasFreshNames s b.version entries 0)
    (hPlace : ∀ content,
      entries.get? b.version.display ≠ some (.file content))
    (hAwaits : Awaits root (Owns b.version) entries w) :
    (publish root b).Safely s
      (rootFrame root (Owns b.version)) w
      fun a w => a = .ok () ∧ ∃ t, told t ∧
        Tracks root (Owns b.version)
          (entries.insert b.version.display
            (.directory (b.directory t))) w := by
  apply safely_attempt
    (Program.safely_createAll hFaultless hAwaits)
  intro v hTracks
  apply (Program.safely_freshName Tracks.isStable
    hTracks).bind
  rintro _ v ⟨⟨step, rfl⟩, hTracks⟩
  have hFree := (hNames step (Nat.zero_le _)).1
  apply (safely_install hFaultless hTold hNames hFree hPlace
    hTracks).bind
  rintro a v ⟨rfl, t, hTime, hPublished⟩ v' hRely
  exact ⟨rfl, t, hTime, hPublished.of_rely hRely⟩

end Publication

end Federation
