import Federation.Proofs.Publication.Index
import Federation.Proofs.Storage.Failures

/-
  Publication in which operations fail. Unless what undoes it
  fails as well, a failure leaves every entry of the root as
  it was; and a bundle whose publication does not fail is the
  only entry that changes. The index is replaced at once or
  stays.

  Main declarations:
    * `Publication.IsUndo`
    * `Publication.InstallEnd`
    * `Publication.PublishEnd`, `Publication.ends_publish`
    * `Publication.MarkEnd`, `Publication.ends_markCurrent`
-/

namespace Federation

namespace Program

variable {root : Path}
variable {names : String → Prop}
variable {entries : Tree}
variable {w : World}

/- A step that fails leaves the entries as they are. -/
theorem Tracks.advance
    (hTracks : Tracks root names entries w) :
    Tracks root names entries w.advance :=
  hTracks.of_rely (KeepsRoot.of_tree rfl)

theorem Awaits.advance
    (hAwaits : Awaits root names entries w) :
    Awaits root names entries w.advance :=
  hAwaits.of_rely (KeepsRoot.of_tree rfl)

end Program

namespace Publication

open Program (Ends ActEnd Tracks Awaits)

variable {s : Surroundings}
variable {root : Path}
variable {version : Version}
variable {b : Bundle}
variable {w : World}
variable {entries : Tree}

------------------------------------------------------------
-- Undoing
------------------------------------------------------------

/-
  The operations that undo a publication or clean up after
  it: to move the earlier bundle back, and to remove what
  stands beside the place of a version.
-/
inductive IsUndo
    (root : Path)
    (version : Version) : Operation → Prop
| restore (fresh : String) :
    IsUndo root version
      (.rename (root.join (retiredName version fresh))
        (versionDirectory root version))
| cleanRetired (fresh : String) :
    IsUndo root version
      (.removeAll (root.join (retiredName version fresh)))
| cleanStaging (fresh : String) :
    IsUndo root version
      (.removeAll (root.join (stagingName version fresh)))

/- A name is made in a step from the present one on. -/
theorem ends_freshName
    {β : Type}
    {f : String → Program β}
    {post : β → List Operation → World → Prop}
    (hTracks : Tracks root everything entries w)
    (hNext : ∀ step v, w.steps ≤ step →
      w.steps ≤ v.steps → Tracks root everything entries v →
      Ends s (f (s.name step)) v post) :
    Ends s (Program.freshName.bind f) w post :=
  hNext w.steps w.advance (Nat.le_refl _) (Nat.le_succ _)
    hTracks.advance

------------------------------------------------------------
-- Writing
------------------------------------------------------------

/- An action that fails ends in its error. -/
theorem ends_attempt
    {α : Type}
    {action : StorageAction}
    {path : Path}
    {program : Program (Stored Unit)}
    {operation : Operation}
    {known : World → Prop}
    {next : Unit → Program (Published α)}
    {post : Published α → List Operation → World → Prop}
    (hProgram :
      Ends s program w (ActEnd operation w known))
    (hFailed : ∀ fault,
      post (.error (.storage action path fault)) [operation]
        w.advance)
    (hNext : ∀ v, w.steps ≤ v.steps → known v →
      Ends s (next ()) v post) :
    Ends s (attempt action path program next) w post := by
  apply hProgram.bind
  rintro a failed v hSteps (⟨hKnown⟩ | fault)
  · exact hNext v hSteps hKnown
  · exact hFailed fault

/- How a part ends that is done or refused by a failure. -/
inductive Ending
    (good bad : World → Prop) :
    Published Unit → List Operation → World → Prop
| done
    {v : World}
    (hGood : good v) :
    Ending good bad (.ok ()) [] v
| refused
    {action : StorageAction}
    {path : Path}
    {fault : StorageFault}
    {failed : List Operation}
    {v : World}
    (hFailed : failed ≠ [])
    (hBad : bad v) :
    Ending good bad (.error (.storage action path fault))
      failed v

theorem Ending.mono
    {good bad good' bad' : World → Prop}
    {a : Published Unit}
    {failed : List Operation}
    {v : World}
    (hEnding : Ending good bad a failed v)
    (hGood : ∀ v, good v → good' v)
    (hBad : ∀ v, bad v → bad' v) :
    Ending good' bad' a failed v := by
  cases hEnding with
  | done h => exact .done (hGood _ h)
  | refused hFailed h => exact .refused hFailed (hBad _ h)

/- Of some files those before a failure are written. -/
theorem ends_writeFiles
    {name : String}
    {files : List (String × Bytes)}
    {directory : Tree}
    (hDirectory : entries.get? name =
      some (.directory directory))
    (hFree : ∀ file ∈ files, directory.get? file.1 = none)
    (hFiles : (files.map Prod.fst).Nodup)
    (hTracks : Tracks root everything entries w) :
    Ends s (writeFiles (root.join name) files) w
      (Ending
        (Tracks root everything
          (entries.insert name
            (.directory (withFiles directory files))))
        fun v => ∃ written,
          Tracks root everything
            (entries.insert name (.directory written)) v) := by
  induction files generalizing entries directory w with
  | nil =>
      exact .done (hTracks.congr
        (Tree.agreeOn_insert_of_get? hDirectory))
  | cons file files ih =>
      rcases file with ⟨file, content⟩
      rw [List.forall_mem_cons] at hFree
      rw [List.map_cons, List.nodup_cons] at hFiles
      refine ends_attempt
        (Program.ends_act (Program.isAct_write _ _)
          (Program.safely_write_in
            s.isFaultless_withoutFailures hTracks trivial
            hDirectory hFree.1)) ?_ ?_
      · intro fault
        exact .refused (List.cons_ne_nil _ _) ⟨directory,
          hTracks.advance.congr
            (Tree.agreeOn_insert_of_get? hDirectory)⟩
      · intro v _ hWritten
        refine (ih (Table.get?_insert_self _ _ _)
          (free_of_insert hFiles.1 hFree.2) hFiles.2
          hWritten).mono ?_
        intro a failed v' hEnding
        refine hEnding.mono (fun _ hAll => ?_) ?_
        · exact hAll.congr
            (Tree.agreeOn_insert_insert _ _ _ _)
        · rintro _ ⟨written, hSome⟩
          exact ⟨written, hSome.congr
            (Tree.agreeOn_insert_insert _ _ _ _)⟩

/-
  Entries are as before, but for what is at a name, which is
  no file.
-/
structure Leaves
    (name : String)
    (before after : Tree) : Prop where
  others : ∀ other, other ≠ name →
    after.get? other = before.get? other
  noFile : ∀ content, after.get? name ≠ some (.file content)

theorem leaves_refl
    {name : String}
    (hFree : entries.get? name = none) :
    Leaves name entries entries where
  others _ _ := rfl
  noFile content hFile := by
    rw [hFree] at hFile
    cases hFile

theorem leaves_insert
    (name : String)
    (files : Tree) :
    Leaves name entries
      (entries.insert name (.directory files)) where
  others other hOther := Table.get?_insert_of_ne _ _ hOther
  noFile content hFile := by
    rw [Table.get?_insert_self] at hFile
    cases hFile

/- Once what is left has been removed, all is as before. -/
theorem Leaves.agreeOn_erase
    {name : String}
    {left : Tree}
    (hLeaves : Leaves name entries left)
    (hFree : entries.get? name = none) :
    Tree.AgreeOn everything (left.erase name) entries := by
  intro other _
  rw [Table.get?_erase]
  split
  · rename_i hSame
    rw [hSame, hFree]
  · rename_i hOther
    exact hLeaves.others other hOther

/- A bundle is written, or some of it. -/
theorem ends_stage
    {name : String}
    (hInstants : ∀ step, (s.instant step).IsRepresentable)
    (hFree : entries.get? name = none)
    (hTracks : Tracks root everything entries w) :
    Ends s (stage (root.join name) b) w
      (Ending
        (fun v => ∃ t : Instant, t.IsRepresentable ∧
          Tracks root everything
            (entries.insert name (.directory (b.directory t)))
            v)
        fun v => ∃ left, Leaves name entries left ∧
          Tracks root everything left v) := by
  refine ends_attempt
    (Program.ends_act (Program.isAct_create _)
      (Program.safely_create s.isFaultless_withoutFailures
        hTracks trivial hFree)) ?_ ?_
  · intro fault
    exact .refused (List.cons_ne_nil _ _)
      ⟨entries, leaves_refl hFree, hTracks.advance⟩
  · intro v _ hCreated
    refine Ends.bind_quiet rfl
      (Program.safely_now hInstants Tracks.isStable
        hCreated) ?_
    rintro t v _ ⟨hTime, hCreated⟩
    refine (ends_writeFiles
      (Table.get?_insert_self _ _ _) (fun _ _ => rfl)
      (nodup_bundleFiles b t) hCreated).mono ?_
    intro a failed v hEnding
    refine hEnding.mono (fun _ hAll => ?_) ?_
    · rw [withFiles_bundleFiles] at hAll
      exact ⟨t, hTime, hAll.congr
        (Tree.agreeOn_insert_insert _ _ _ _)⟩
    · rintro _ ⟨written, hSome⟩
      exact ⟨_, leaves_insert name written, hSome.congr
        (Tree.agreeOn_insert_insert _ _ _ _)⟩

------------------------------------------------------------
-- Moving
------------------------------------------------------------

variable {fresh : String}

/- How the installation of a bundle ends. -/
inductive InstallEnd
    (root : Path)
    (b : Bundle)
    (fresh : String)
    (entries : Tree) :
    Published Unit → List Operation → World → Prop
/- The bundle is at the place of its version. -/
| installed
    {t : Instant}
    {v : World}
    (hTime : t.IsRepresentable)
    (hTracks : Tracks root everything
      (entries.insert b.version.display
        (.directory (b.directory t))) v) :
    InstallEnd root b fresh entries (.ok ()) [] v
/- It is, but the earlier one is still there as well. -/
| uncleaned
    {t : Instant}
    {other : String}
    {old : Tree}
    {failed : List Operation}
    {v : World}
    (hTime : t.IsRepresentable)
    (hUndo : ∃ o ∈ failed, IsUndo root b.version o)
    (hTracks : Tracks root everything
      (withBoth b.version fresh other old (b.directory t)
        entries) v) :
    InstallEnd root b fresh entries (.ok ()) failed v
/- A failure has left something where bundles are written. -/
| refused
    {action : StorageAction}
    {path : Path}
    {fault : StorageFault}
    {left : Tree}
    {failed : List Operation}
    {v : World}
    (hFailed : failed ≠ [])
    (hLeaves : Leaves (stagingName b.version fresh) entries
      left)
    (hTracks : Tracks root everything left v) :
    InstallEnd root b fresh entries
      (.error (.storage action path fault)) failed v
/- The earlier bundle has been moved away and stays there. -/
| lost
    {t : Instant}
    {other : String}
    {old : Tree}
    {path : Path}
    {fault : StorageFault}
    {failed : List Operation}
    {v : World}
    (hUndo : ∃ o ∈ failed, IsUndo root b.version o)
    (hTracks : Tracks root everything
      (withRetired b.version fresh other old (b.directory t)
        entries) v) :
    InstallEnd root b fresh entries
      (.error (.notRestored b.version path fault)) failed v

section Entries

variable {other : String}
variable {old files : Tree}

/- The earlier bundle is back at its place. -/
theorem agreeOn_restored
    (hOld : entries.get? version.display =
      some (.directory old))
    (hFree : entries.get? (retiredName version other) = none) :
    Tree.AgreeOn everything
      (Tree.moved (retiredName version other) version.display
        (.directory old)
        (withRetired version fresh other old files entries))
      (withStaging version fresh files entries) := by
  have hRetiredNe :=
    retiredName_ne_display version version other
  have hApart :=
    stagingName_ne_retiredName version fresh other
  have hStagingNe :=
    stagingName_ne_display version version fresh
  intro name _
  rw [withRetired, withStaging, Tree.get?_moved,
    Tree.get?_moved, Table.get?_insert]
  by_cases hRetired : name = retiredName version other
  · simp [hRetired, hApart.symm, hFree]
  · by_cases hPlace : name = version.display
    · simp [hPlace, hRetiredNe.symm, hStagingNe.symm, hOld]
    · simp [hRetired, hPlace]

/-
  The earlier bundle is moved back, or stays away. Either way
  the failure comes after the one that led to it.
-/
theorem ends_restore
    {t : Instant}
    {fault : StorageFault}
    {operation : Operation}
    (hFree : entries.get? (retiredName b.version other) = none)
    (hOld : entries.get? b.version.display =
      some (.directory old))
    (hTracks : Tracks root everything
      (withRetired b.version fresh other old (b.directory t)
        entries) w) :
    Ends s (restore root b.version fresh other fault) w
      fun a failed v =>
        InstallEnd root b fresh entries a
          (operation :: failed) v := by
  refine Ends.bind
    (Program.ends_act (Program.isAct_rename _ _)
      (Program.safely_rename s.isFaultless_withoutFailures
        hTracks trivial trivial
        (retiredName_ne_display b.version b.version other)
        get?_withRetired_retired
        (replace_withRetired_display _))) ?_
  rintro a failed v _ (⟨hBack⟩ | lost)
  · exact .refused (List.cons_ne_nil _ _) (leaves_insert _ _)
      (hBack.congr (agreeOn_restored hOld hFree))
  · exact .lost
      ⟨_, List.mem_cons_of_mem _ List.mem_cons_self,
        .restore other⟩
      hTracks.advance

/-
  The new bundle is moved to the place that is free. Then the
  earlier one is removed, or stays as well; and if there is no
  new one, it is moved back.
-/
theorem ends_exchange
    {t : Instant}
    (hTime : t.IsRepresentable)
    (hStagingFree :
      entries.get? (stagingName b.version fresh) = none)
    (hRetiredFree :
      entries.get? (retiredName b.version other) = none)
    (hOld : entries.get? b.version.display =
      some (.directory old))
    (hTracks : Tracks root everything
      (withRetired b.version fresh other old (b.directory t)
        entries) w) :
    Ends s (exchange root b.version fresh other) w
      (InstallEnd root b fresh entries) := by
  have hFaultless := s.isFaultless_withoutFailures
  refine Ends.bind
    (Program.ends_act (Program.isAct_rename _ _)
      (Program.safely_rename hFaultless hTracks trivial
        trivial
        (stagingName_ne_display b.version b.version fresh)
        get?_withRetired_staging
        (replace_withRetired_display _))) ?_
  rintro a failed v _ (⟨hMoved⟩ | fault)
  · refine Ends.bind
      (Program.ends_act (Program.isAct_removeAll _)
        (Program.safely_removeAll hFaultless hMoved trivial
          get?_withBoth_retired)) ?_
    rintro a failed v _ (⟨hRemoved⟩ | fault)
    · exact .installed hTime (hRemoved.congr
        (agreeOn_replaced hStagingFree hRetiredFree))
    · exact .uncleaned hTime
        ⟨_, List.mem_cons_self, .cleanRetired other⟩
        hMoved.advance
  · exact ends_restore hRetiredFree hOld hTracks.advance

/-
  An earlier bundle gives way to the new one, or is moved
  back; where neither succeeds, what undoes has failed.
-/
theorem ends_replaceBundle
    {t : Instant}
    (hTime : t.IsRepresentable)
    (hNames : HasFreshNames s b.version entries w.steps)
    (hFree : entries.get? (stagingName b.version fresh) = none)
    (hOld : entries.get? b.version.display =
      some (.directory old))
    (hTracks : Tracks root everything
      (withStaging b.version fresh (b.directory t) entries)
      w) :
    Ends s
      (replaceBundle root
        (root.join (stagingName b.version fresh))
        (versionDirectory root b.version) b.version)
      w (InstallEnd root b fresh entries) := by
  rw [replaceBundle_eq]
  apply ends_freshName hTracks
  intro step v hStep _ hTracks
  have hRetiredFree := (hNames step hStep).2
  refine ends_attempt
    (Program.ends_act (Program.isAct_rename _ _)
      (Program.safely_rename s.isFaultless_withoutFailures
        hTracks trivial trivial
        (retiredName_ne_display b.version b.version _).symm
        (get?_withStaging_display.trans hOld)
        (replace_withStaging_retired hRetiredFree _))) ?_ ?_
  · intro fault
    exact .refused (List.cons_ne_nil _ _) (leaves_insert _ _)
      hTracks.advance
  · intro v _ hRetired
    exact ends_exchange hTime hFree hRetiredFree hOld hRetired

end Entries

theorem ends_swapIn
    {t : Instant}
    (hTime : t.IsRepresentable)
    (hNames : HasFreshNames s b.version entries w.steps)
    (hFree : entries.get? (stagingName b.version fresh) = none)
    (hPlace : ∀ content,
      entries.get? b.version.display ≠ some (.file content))
    (hTracks : Tracks root everything
      (withStaging b.version fresh (b.directory t) entries)
      w) :
    Ends s
      (swapIn root (root.join (stagingName b.version fresh))
        (versionDirectory root b.version) b.version)
      w (InstallEnd root b fresh entries) := by
  refine Ends.bind_quiet rfl
    (Program.safely_isPresent hTracks trivial) ?_
  rintro a v hSteps ⟨rfl, hTracks⟩
  rw [get?_withStaging_display]
  cases hNode : entries.get? b.version.display with
  | none =>
      have hHere : Tree.replace (.directory (b.directory t))
          (Table.get? b.version.display
            (withStaging b.version fresh (b.directory t)
              entries)) =
          .ok (some (.directory (b.directory t))) := by
        rw [get?_withStaging_display, hNode]
        rfl
      refine ends_attempt
        (Program.ends_act (Program.isAct_rename _ _)
          (Program.safely_rename
            s.isFaultless_withoutFailures hTracks trivial
            trivial
            (stagingName_ne_display b.version b.version fresh)
            (Table.get?_insert_self _ _ _) hHere)) ?_ ?_
      · intro fault
        exact .refused (List.cons_ne_nil _ _)
          (leaves_insert _ _) hTracks.advance
      · intro v _ hMoved
        exact .installed hTime
          (hMoved.congr (agreeOn_moveIn hFree))
  | some node =>
      cases node with
      | file content => exact absurd hNode (hPlace content)
      | directory old =>
          exact ends_replaceBundle hTime
            (hNames.later hSteps) hFree hNode hTracks

/- A bundle is written and moved to the place of its version. -/
theorem ends_install
    (hInstants : ∀ step, (s.instant step).IsRepresentable)
    (hNames : HasFreshNames s b.version entries w.steps)
    (hFree : entries.get? (stagingName b.version fresh) = none)
    (hPlace : ∀ content,
      entries.get? b.version.display ≠ some (.file content))
    (hTracks : Tracks root everything entries w) :
    Ends s
      (install root (root.join (stagingName b.version fresh))
        b)
      w (InstallEnd root b fresh entries) := by
  refine Ends.bind (ends_stage hInstants hFree hTracks) ?_
  rintro a failed v hSteps
    (⟨t, hTime, hStaged⟩ |
      ⟨hFailed, left, hLeaves, hTracks⟩)
  · exact ends_swapIn hTime (hNames.later hSteps) hFree hPlace
      hStaged
  · refine .refused ?_ hLeaves hTracks
    exact List.append_ne_nil_of_left_ne_nil hFailed _

------------------------------------------------------------
-- Publishing
------------------------------------------------------------

/- What is left of a bundle is removed, unless that fails. -/
theorem ends_discard
    {left : Tree}
    (hNoFile : ∀ content,
      left.get? (stagingName version fresh) ≠
        some (.file content))
    (hTracks : Tracks root everything left w) :
    Ends s
      (discard (root.join (stagingName version fresh))) w
      fun _ failed v =>
        failed = [] ∧ Tracks root everything
            (left.erase (stagingName version fresh)) v ∨
          (∃ o ∈ failed, IsUndo root version o) ∧
            Tracks root everything left v := by
  refine Ends.bind_quiet rfl
    (Program.safely_isPresent hTracks trivial) ?_
  rintro a v _ ⟨rfl, hTracks⟩
  cases hNode : left.get? (stagingName version fresh) with
  | none =>
      have hSame := (leaves_refl hNode).agreeOn_erase hNode
      exact Or.inl ⟨rfl, hTracks.congr fun name hName =>
        (hSame name hName).symm⟩
  | some node =>
      cases node with
      | file content => exact absurd hNode (hNoFile content)
      | directory files =>
          refine Ends.bind
            (Program.ends_act (Program.isAct_removeAll _)
              (Program.safely_removeAll
                s.isFaultless_withoutFailures hTracks trivial
                hNode)) ?_
          rintro a failed v' _ (⟨hRemoved⟩ | fault)
          · exact Or.inl ⟨rfl, hRemoved⟩
          · exact Or.inr
              ⟨⟨_, List.mem_cons_self, .cleanStaging fresh⟩,
                hTracks.advance⟩

/-
  What undoes a publication has failed: the bundle of the
  version is the earlier one, the new one or gone, and what
  belongs to no version or to another one is as before.
-/
structure IsDamaged
    (b : Bundle)
    (before after : Tree) : Prop where
  others : ∀ name, ¬Owns b.version name →
    after.get? name = before.get? name
  place : after.get? b.version.display =
      before.get? b.version.display ∨
    after.get? b.version.display = none ∨
    ∃ t : Instant, t.IsRepresentable ∧
      after.get? b.version.display =
        some (.directory (b.directory t))

/- How a publication ends. -/
inductive PublishEnd
    (root : Path)
    (b : Bundle)
    (entries : Tree) :
    Published Unit → List Operation → World → Prop
/- The bundle is at the place of its version. -/
| published
    {t : Instant}
    {v : World}
    (hTime : t.IsRepresentable)
    (hAwaits : Awaits root everything
      (entries.insert b.version.display
        (.directory (b.directory t))) v) :
    PublishEnd root b entries (.ok ()) [] v
/- There is a failure, and every entry is as before. -/
| kept
    {action : StorageAction}
    {path : Path}
    {fault : StorageFault}
    {failed : List Operation}
    {v : World}
    (hFailed : failed ≠ [])
    (hAwaits : Awaits root everything entries v) :
    PublishEnd root b entries
      (.error (.storage action path fault)) failed v
/- There is a failure of what undoes another one. -/
| damaged
    {a : Published Unit}
    {after : Tree}
    {failed : List Operation}
    {v : World}
    (hUndo : ∃ o ∈ failed, IsUndo root b.version o)
    (hDamaged : IsDamaged b entries after)
    (hAwaits : Awaits root everything after v) :
    PublishEnd root b entries a failed v

variable {a : Published Unit}
variable {failed : List Operation}
variable {v : World}

theorem PublishEnd.of_no_failure
    (hEnd : PublishEnd root b entries a [] v) :
    a = .ok () ∧ ∃ t : Instant, Awaits root everything
      (entries.insert b.version.display
        (.directory (b.directory t))) v := by
  cases hEnd with
  | published _ hAwaits => exact ⟨rfl, _, hAwaits⟩
  | kept hFailed => exact absurd rfl hFailed
  | damaged hUndo =>
      rcases hUndo with ⟨o, hMem, -⟩
      cases hMem

theorem PublishEnd.of_no_undo
    (hEnd : PublishEnd root b entries a failed v)
    (hFailed : failed ≠ [])
    (hNoUndo : ∀ o ∈ failed, ¬IsUndo root b.version o) :
    (∃ action path fault,
        a = .error (.storage action path fault)) ∧
      Awaits root everything entries v := by
  cases hEnd with
  | published => exact absurd rfl hFailed
  | kept _ hAwaits => exact ⟨⟨_, _, _, rfl⟩, hAwaits⟩
  | damaged hUndo =>
      rcases hUndo with ⟨o, hMem, hUndo⟩
      exact absurd hUndo (hNoUndo o hMem)

theorem ne_of_not_owns
    {name other : String}
    (hName : ¬Owns version name)
    (hOther : Owns version other) :
    name ≠ other :=
  fun hSame => hName (hSame ▸ hOther)

theorem Leaves.isDamaged
    {left : Tree}
    (hLeaves : Leaves (stagingName b.version fresh) entries
      left) :
    IsDamaged b entries left where
  others name hOther :=
    hLeaves.others name (ne_of_not_owns hOther (.staging _))
  place := Or.inl (hLeaves.others _
    (stagingName_ne_display b.version b.version fresh).symm)

/- To remove where bundles are written damages nothing more. -/
theorem IsDamaged.erase
    {after : Tree}
    (hDamaged : IsDamaged b entries after) :
    IsDamaged b entries
      (after.erase (stagingName b.version fresh)) where
  others name hOther := by
    rw [Table.get?_erase_of_ne _
      (ne_of_not_owns hOther (.staging fresh))]
    exact hDamaged.others name hOther
  place := by
    rw [Table.get?_erase_of_ne _
      (stagingName_ne_display b.version b.version fresh).symm]
    exact hDamaged.place

section Damage

variable {t : Instant}
variable {other : String}
variable {old : Tree}

theorem isDamaged_withRetired :
    IsDamaged b entries
      (withRetired b.version fresh other old (b.directory t)
        entries) where
  others name hOther := by
    rw [withRetired, Tree.get?_moved_of_ne
      (ne_of_not_owns hOther .bundle)
      (ne_of_not_owns hOther (.retired _))]
    exact get?_withStaging (ne_of_not_owns hOther (.staging _))
  place := Or.inr (Or.inl Tree.get?_moved_old)

theorem isDamaged_withBoth
    (hTime : t.IsRepresentable) :
    IsDamaged b entries
      (withBoth b.version fresh other old (b.directory t)
        entries) where
  others name hOther := by
    rw [withBoth, Tree.get?_moved_of_ne
      (ne_of_not_owns hOther (.staging _))
      (ne_of_not_owns hOther .bundle)]
    exact isDamaged_withRetired.others name hOther
  place := Or.inr (Or.inr ⟨t, hTime, Tree.get?_moved_new
    (stagingName_ne_display b.version b.version fresh)⟩)

end Damage

/- What is written is removed after a failure. -/
theorem ends_discard_install
    (hFree : entries.get? (stagingName b.version fresh) = none)
    (hInstall : InstallEnd root b fresh entries a failed w) :
    Ends s
      (match a with
        | .ok _ => Program.done (.ok ())
        | .error e =>
            (discard (root.join
              (stagingName b.version fresh))).bind
              fun _ => .done (.error e))
      w fun a later v =>
        PublishEnd root b entries a (failed ++ later) v := by
  cases hInstall with
  | installed hTime hTracks =>
      exact .published hTime hTracks.awaits
  | uncleaned hTime hUndo hTracks =>
      exact .damaged (by simpa using hUndo)
        (isDamaged_withBoth hTime) hTracks.awaits
  | refused hFailed hLeaves hTracks =>
      refine Ends.bind
        (ends_discard hLeaves.noFile hTracks) ?_
      rintro _ later v _
        (⟨rfl, hErased⟩ | ⟨⟨o, hMem, hUndo⟩, hLeft⟩)
      · refine .kept (by simpa using hFailed) ?_
        exact (hErased.congr
          (hLeaves.agreeOn_erase hFree)).awaits
      · exact .damaged ⟨o, by simp [hMem], hUndo⟩
          hLeaves.isDamaged hLeft.awaits
  | lost hUndo hTracks =>
      rcases hUndo with ⟨o, hMem, hUndo⟩
      have hUndone : ∀ later,
          ∃ o ∈ failed ++ later, IsUndo root b.version o :=
        fun later => ⟨o, by simp [hMem], hUndo⟩
      refine Ends.bind (ends_discard ?_ hTracks) ?_
      · intro content hFile
        rw [get?_withRetired_staging] at hFile
        cases hFile
      · rintro _ later v _ (⟨rfl, hErased⟩ | ⟨-, hLeft⟩)
        · exact .damaged (hUndone _)
            isDamaged_withRetired.erase hErased.awaits
        · exact .damaged (hUndone _) isDamaged_withRetired
            hLeft.awaits

/-
  A bundle is published, or a failure leaves all as before,
  or what undoes has failed as well.
-/
theorem ends_publish
    (hInstants : ∀ step, (s.instant step).IsRepresentable)
    (hNames : HasFreshNames s b.version entries w.steps)
    (hPlace : ∀ content,
      entries.get? b.version.display ≠ some (.file content))
    (hAwaits : Awaits root everything entries w) :
    Ends s (publish root b) w (PublishEnd root b entries) := by
  refine ends_attempt
    (Program.ends_act (Program.isAct_createAll _)
      (Program.safely_createAll s.isFaultless_withoutFailures
        hAwaits)) ?_ ?_
  · intro fault
    exact .kept (List.cons_ne_nil _ _) hAwaits.advance
  · intro v hSteps hTracks
    apply ends_freshName hTracks
    intro step v' hStep hLater hTracks
    have hFirst := Nat.le_trans hSteps hStep
    have hFree := (hNames step hFirst).1
    refine Ends.bind
      (ends_install hInstants
        (hNames.later (Nat.le_trans hSteps hLater)) hFree
        hPlace hTracks) ?_
    intro a failed v'' _ hInstall
    exact ends_discard_install hFree hInstall

------------------------------------------------------------
-- The Current Version
------------------------------------------------------------

/- How it ends to name a version current. -/
inductive MarkEnd
    (root : Path)
    (entries : Tree) :
    Published Unit → List Operation → World → Prop
/- The index is another one. -/
| marked
    {content : Bytes}
    {v : World}
    (hAwaits : Awaits root everything
      (withIndex content entries) v) :
    MarkEnd root entries (.ok ()) [] v
/- All but what is written beside the index is as before. -/
| kept
    {e : PublicationError}
    {left : Tree}
    {failed : List Operation}
    {v : World}
    (hOthers : ∀ name, name ≠ newIndexFile →
      left.get? name = entries.get? name)
    (hNoDirectory : ∀ inner,
      left.get? newIndexFile ≠ some (.directory inner))
    (hAwaits : Awaits root everything left v) :
    MarkEnd root entries (.error e) failed v

theorem MarkEnd.of_failure
    (hEnd : MarkEnd root entries a failed v)
    (hFailed : failed ≠ []) :
    ∃ e, a = .error e := by
  cases hEnd with
  | marked => exact absurd rfl hFailed
  | kept => exact ⟨_, rfl⟩

theorem MarkEnd.of_error
    {e : PublicationError}
    {name : String}
    (hEnd : MarkEnd root entries (.error e) failed v)
    (hOther : name ≠ newIndexFile) :
    (v.tree.entriesAt root).get? name = entries.get? name := by
  cases hEnd with
  | kept hOthers _ hAwaits =>
      exact (hAwaits.agree name trivial).trans
        (hOthers name hOther)

/- The new index takes the place of the one that is there. -/
theorem ends_moveIndex
    {content : Bytes}
    (hIndex : ∀ inner,
      entries.get? indexFile ≠ some (.directory inner))
    (hTracks : Tracks root everything
      (entries.insert newIndexFile (.file content)) w) :
    Ends s
      (attempt .rename (root.join newIndexFile)
        (.rename (root.join newIndexFile)
          (root.join indexFile))
        fun _ => .done (.ok ()))
      w (MarkEnd root entries) := by
  refine ends_attempt
    (Program.ends_act (Program.isAct_rename _ _)
      (Program.safely_rename s.isFaultless_withoutFailures
        hTracks trivial trivial newIndexFile_ne_indexFile
        (Table.get?_insert_self _ _ _)
        (replace_index hIndex))) ?_ ?_
  · intro fault
    refine .kept (fun name hOther =>
      Table.get?_insert_of_ne _ _ hOther) ?_
      hTracks.awaits.advance
    intro inner hNode
    rw [Table.get?_insert_self] at hNode
    cases hNode
  · intro v _ hMoved
    exact .marked hMoved.awaits

theorem ends_markCurrent
    (hIndex : ∀ inner,
      entries.get? indexFile ≠ some (.directory inner))
    (hNewIndex : ∀ inner,
      entries.get? newIndexFile ≠ some (.directory inner))
    (hAwaits : Awaits root everything entries w) :
    Ends s (markCurrent root version) w
      (MarkEnd root entries) := by
  refine Ends.bind_quiet rfl
    (Program.safely_isFile hAwaits trivial) ?_
  rintro a v _ ⟨hFile, hAwaits⟩
  cases a with
  | false => exact .kept (fun _ _ => rfl) hNewIndex hAwaits
  | true =>
      have hTracks := Program.HoldsFile.tracks (hFile.mp rfl)
        hAwaits trivial
      have hNow : Program.now.Safely s
          (Program.rootFrame root everything) v
          fun _ v => True ∧ Tracks root everything entries v :=
        Program.safely_look Tracks.isStable hTracks
          fun _ _ => ⟨trivial, rfl⟩
      refine Ends.bind_quiet rfl hNow ?_
      rintro t v _ ⟨-, hTracks⟩
      -- A new index is written beside the one that is there.
      refine ends_attempt
        (Program.ends_act (Program.isAct_write _ _)
          (Program.safely_write s.isFaultless_withoutFailures
            hTracks trivial hNewIndex)) ?_ ?_
      · intro fault
        exact .kept (fun _ _ => rfl) hNewIndex
          hTracks.awaits.advance
      · intro v _ hWritten
        exact ends_moveIndex hIndex hWritten

end Publication

end Federation
