import Federation.Proofs.Version
import Federation.Publication.Directory

/-
  The names below a root: those that belong to a version, of
  its bundle and of the directories beside it, belong to no
  other version and are not those of the index.

  Main declarations:
    * `Version.eq_of_toDigits_append`
    * `Publication.Owns`
    * `Publication.Owns.unique`
-/

namespace Federation

namespace Version

/- The digits before a point are those of one number. -/
theorem eq_of_toDigits_append
    {v w : Version}
    {rest rest' : List Char}
    (hEqual : Nat.toDigits 10 v.number ++ '.' :: rest =
      Nat.toDigits 10 w.number ++ '.' :: rest') :
    v = w ∧ rest = rest' := by
  have hPoint : Json.Number.isDigit '.' = false := rfl
  have hDigits : ∀ (n : Nat) (rest : List Char),
      (Nat.toDigits 10 n ++ '.' :: rest).takeWhile
        Json.Number.isDigit = Nat.toDigits 10 n := by
    intro n rest
    rw [List.takeWhile_append_of_pos
      fun _ hMem => Json.Number.isDigit_of_mem_toDigits hMem]
    simp [hPoint]
  have hSame := congrArg
    (List.takeWhile Json.Number.isDigit) hEqual
  rw [hDigits, hDigits] at hSame
  have hNumber := congrArg Json.Number.ofDigits hSame
  rw [Json.Number.ofDigits_toDigits,
    Json.Number.ofDigits_toDigits] at hNumber
  refine ⟨ext_number hNumber, ?_⟩
  rw [hSame] at hEqual
  simpa using hEqual

end Version

namespace Publication

------------------------------------------------------------
-- Names of Versions
------------------------------------------------------------

theorem stagingName_toList
    (v : Version)
    (fresh : String) :
    (stagingName v fresh).toList =
      '.' :: 'v' :: (Nat.toDigits 10 v.number ++
        '.' :: 's' :: ("taging-".toList ++ fresh.toList)) := by
  simp [stagingName, toString, Version.display_toList]

theorem retiredName_toList
    (v : Version)
    (fresh : String) :
    (retiredName v fresh).toList =
      '.' :: 'v' :: (Nat.toDigits 10 v.number ++
        '.' :: 'r' :: ("etired-".toList ++ fresh.toList)) := by
  simp [retiredName, toString, Version.display_toList]

/- The names that belong to a version. -/
inductive Owns (v : Version) : String → Prop where
| bundle : Owns v v.display
| staging (fresh : String) : Owns v (stagingName v fresh)
| retired (fresh : String) : Owns v (retiredName v fresh)

/- What a name that belongs to a version looks like. -/
theorem Owns.cases_toList
    {v : Version}
    {name : String}
    (hOwns : Owns v name) :
    name.toList = 'v' :: Nat.toDigits 10 v.number ∨
      ∃ rest, name.toList =
        '.' :: 'v' ::
          (Nat.toDigits 10 v.number ++ '.' :: rest) := by
  cases hOwns with
  | bundle => exact Or.inl v.display_toList
  | staging fresh =>
      exact Or.inr ⟨_, stagingName_toList v fresh⟩
  | retired fresh =>
      exact Or.inr ⟨_, retiredName_toList v fresh⟩

/- A name belongs to one version only. -/
theorem Owns.unique
    {v w : Version}
    {name : String}
    (hFirst : Owns v name)
    (hSecond : Owns w name) :
    v = w := by
  rcases hFirst.cases_toList with hPlain | ⟨rest, hDotted⟩
  · rcases hSecond.cases_toList with hPlain' | ⟨_, hDotted'⟩
    · refine Version.display_injective
        (String.toList_inj.mp ?_)
      rw [Version.display_toList, Version.display_toList,
        ← hPlain, ← hPlain']
    · rw [hPlain] at hDotted'
      exact absurd (List.cons.inj hDotted').1 (by decide)
  · rcases hSecond.cases_toList with hPlain' | ⟨_, hDotted'⟩
    · rw [hPlain'] at hDotted
      exact absurd (List.cons.inj hDotted).1 (by decide)
    · rw [hDotted] at hDotted'
      have hRest := (List.cons.inj
        (List.cons.inj hDotted').2).2
      exact (Version.eq_of_toDigits_append hRest).1

theorem stagingName_ne_display
    (v w : Version)
    (fresh : String) :
    stagingName v fresh ≠ w.display := by
  intro hEqual
  have hText := congrArg String.toList hEqual
  rw [stagingName_toList, Version.display_toList] at hText
  exact absurd (List.cons.inj hText).1 (by decide)

theorem retiredName_ne_display
    (v w : Version)
    (fresh : String) :
    retiredName v fresh ≠ w.display := by
  intro hEqual
  have hText := congrArg String.toList hEqual
  rw [retiredName_toList, Version.display_toList] at hText
  exact absurd (List.cons.inj hText).1 (by decide)

theorem stagingName_ne_retiredName
    (v : Version)
    (fresh fresh' : String) :
    stagingName v fresh ≠ retiredName v fresh' := by
  intro hEqual
  have hText := congrArg String.toList hEqual
  rw [stagingName_toList, retiredName_toList] at hText
  have hRest := (Version.eq_of_toDigits_append
    (List.cons.inj (List.cons.inj hText).2).2).2
  exact absurd (List.cons.inj hRest).1 (by decide)

/- The names of the index belong to no version. -/
theorem not_owns_index
    (v : Version)
    {name : String}
    (hIndex : name = indexFile ∨ name = newIndexFile) :
    ¬Owns v name := by
  have hText : ∃ rest, name.toList = 'c' :: rest := by
    rcases hIndex with rfl | rfl
    · exact ⟨_, rfl⟩
    · exact ⟨_, rfl⟩
  intro hOwns
  rcases hText with ⟨rest, hText⟩
  rcases hOwns.cases_toList with hPlain | ⟨_, hDotted⟩
  · rw [hText] at hPlain
    exact absurd (List.cons.inj hPlain).1 (by decide)
  · rw [hText] at hDotted
    exact absurd (List.cons.inj hDotted).1 (by decide)

end Publication

end Federation
