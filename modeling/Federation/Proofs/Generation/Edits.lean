import Federation.Proofs.Generation.Policy

/-
  Sets of generators and policies after any edits. Calls that
  fail change nothing, so that what a set holds for a version
  is told from the calls for that version alone, and the
  version that is selected from what all the calls say.

  Main declarations:
    * `GeneratorSet.Edit`, `VersionPolicy.Edit`
    * `GeneratorSet.perform_eq_error_iff`
    * `GeneratorSet.get?_afterAll`
    * `VersionPolicy.isHeldBack_afterAll`
    * `VersionPolicy.selects_after_edits`
-/

namespace Federation

------------------------------------------------------------
-- Edits of Sets
------------------------------------------------------------

namespace GeneratorSet

/- A call that changes a set of generators. -/
inductive Edit where
| register (generator : Generator)
| setEligibility (version : Version) (isEligible : Bool)

/- The set that a call makes of a set, or why it does not. -/
def perform
    (s : GeneratorSet) :
    Edit → Except GeneratorError GeneratorSet
| .register generator => s.register generator
| .setEligibility version isEligible =>
    s.setEligibility version isEligible

/- The set after a call, as it was if the call fails. -/
def after
    (s : GeneratorSet)
    (edit : Edit) : GeneratorSet :=
  match s.perform edit with
  | .ok changed => changed
  | .error _ => s

/- The set after calls, one after the other. -/
def afterAll
    (s : GeneratorSet)
    (edits : List Edit) : GeneratorSet :=
  edits.foldl after s

/- The generator that a call registers for a version. -/
def Edit.registers?
    (version : Version) : Edit → Option Generator
| .register generator =>
    if generator.version = version then some generator
    else none
| .setEligibility _ _ => none

/- What a call says of the eligibility of a version. -/
def Edit.decides?
    (version : Version) : Edit → Option Bool
| .register _ => none
| .setEligibility v isEligible =>
    if v = version then some isEligible else none

/-
  The generator of a version: the one that is there before
  the calls, or else the first that they register.
-/
def registered?
    (s : GeneratorSet)
    (edits : List Edit)
    (version : Version) : Option Generator :=
  (s.table.get? version).or
    (edits.findSome? (Edit.registers? version))

/- The calls after a version has its generator. -/
def sinceRegistered
    (s : GeneratorSet)
    (edits : List Edit)
    (version : Version) : List Edit :=
  if (s.table.get? version).isSome then edits
  else
    (edits.dropWhile fun edit =>
      (edit.registers? version).isNone).tail

/-
  The eligibility of a version: what is said of it last once
  it is registered, or else what its generator says.
-/
def eligibility
    (s : GeneratorSet)
    (edits : List Edit)
    (version : Version)
    (generator : Generator) : Bool :=
  ((s.sinceRegistered edits version).reverse.findSome?
    (Edit.decides? version)).getD generator.isEligible

------------------------------------------------------------
-- Single Calls
------------------------------------------------------------

/- Why a call fails, if it does: its version is taken or free. -/
def refusal?
    (s : GeneratorSet) : Edit → Option GeneratorError
| .register generator =>
    if generator.version ∈ s.versions then
      some (.duplicate generator.version)
    else none
| .setEligibility version _ =>
    if version ∈ s.versions then none
    else
      some (.unsupported version (.generate .privateParameters))

theorem mem_versions_iff
    {s : GeneratorSet}
    {v : Version} :
    v ∈ s.versions ↔ (s.table.get? v).isSome = true := by
  rw [Table.get?_eq_lookup, ← not_iff_not,
    Bool.not_eq_true, Option.isSome_eq_false_iff,
    Table.lookup_isNone_iff]
  rfl

theorem perform_eq_error_iff
    {s : GeneratorSet}
    {edit : Edit}
    {error : GeneratorError} :
    s.perform edit = .error error ↔
      s.refusal? edit = some error := by
  cases edit with
  | register generator =>
      rw [perform, register, refusal?]
      cases hFound : s.table.get? generator.version <;>
        simp [mem_versions_iff, hFound]
  | setEligibility version isEligible =>
      rw [perform, setEligibility, get, refusal?]
      cases hFound : s.table.get? version <;>
        simp [mem_versions_iff, hFound, bind, Except.bind,
          pure, Except.pure]

theorem after_of_error
    {s : GeneratorSet}
    {edit : Edit}
    {error : GeneratorError}
    (hFails : s.perform edit = .error error) :
    s.after edit = s := by
  rw [after, hFails]

theorem after_register
    (s : GeneratorSet)
    (generator : Generator) :
    s.after (.register generator) =
      match s.table.get? generator.version with
      | some _ => s
      | none => ⟨s.table.insert generator.version generator⟩ := by
  rw [after, perform, register]
  cases s.table.get? generator.version <;> rfl

theorem after_setEligibility
    (s : GeneratorSet)
    (version : Version)
    (isEligible : Bool) :
    s.after (.setEligibility version isEligible) =
      match s.table.get? version with
      | some g =>
          ⟨s.table.insert version { g with isEligible }⟩
      | none => s := by
  rw [after, perform, setEligibility, get]
  cases s.table.get? version <;> rfl

/- What a call makes of the generator of each version. -/
theorem get?_after
    (s : GeneratorSet)
    (edit : Edit)
    (v : Version) :
    (s.after edit).table.get? v =
      match s.table.get? v with
      | none => edit.registers? v
      | some g =>
          some { g with
            isEligible :=
              (edit.decides? v).getD g.isEligible } := by
  cases edit with
  | register generator =>
      rw [after_register, Edit.registers?, Edit.decides?]
      by_cases hSame : generator.version = v
      · subst hSame
        cases hFound : s.table.get? generator.version <;>
          simp [hFound]
      · have hOther : v ≠ generator.version := Ne.symm hSame
        cases hTaken : s.table.get? generator.version <;>
          cases hFound : s.table.get? v <;>
          simp [hFound, hSame,
            Table.get?_insert_of_ne _ _ hOther]
  | setEligibility version isEligible =>
      rw [after_setEligibility, Edit.registers?, Edit.decides?]
      by_cases hSame : version = v
      · subst hSame
        cases hFound : s.table.get? version <;> simp [hFound]
      · have hOther : v ≠ version := Ne.symm hSame
        cases hTaken : s.table.get? version <;>
          cases hFound : s.table.get? v <;>
          simp [hFound, hSame,
            Table.get?_insert_of_ne _ _ hOther]

/- A call keeps sets in order, and keyed. -/
theorem IsOrdered.after
    {s : GeneratorSet}
    (hOrdered : Table.IsOrdered s.table)
    (edit : Edit) :
    Table.IsOrdered (s.after edit).table := by
  cases edit with
  | register generator =>
      rw [after_register]
      split
      · exact hOrdered
      · exact Table.insert_isOrdered _ _ hOrdered
  | setEligibility version isEligible =>
      rw [after_setEligibility]
      split
      · exact Table.insert_isOrdered _ _ hOrdered
      · exact hOrdered

theorem IsKeyed.after
    {s : GeneratorSet}
    (hKeyed : s.IsKeyed)
    (edit : Edit) :
    (s.after edit).IsKeyed := by
  cases hPerform : s.perform edit with
  | error error =>
      rw [after_of_error hPerform]
      exact hKeyed
  | ok changed =>
      rw [GeneratorSet.after, hPerform]
      cases edit with
      | register generator => exact hKeyed.register hPerform
      | setEligibility version isEligible =>
          exact hKeyed.setEligibility hPerform

------------------------------------------------------------
-- All Calls
------------------------------------------------------------

/- By induction on the calls, the first of them first. -/
theorem isOrdered_afterAll
    {s : GeneratorSet}
    (hOrdered : Table.IsOrdered s.table)
    (edits : List Edit) :
    Table.IsOrdered (s.afterAll edits).table := by
  induction edits generalizing s with
  | nil => exact hOrdered
  | cons edit rest ih => exact ih (IsOrdered.after hOrdered edit)

theorem IsKeyed.afterAll
    {s : GeneratorSet}
    (hKeyed : s.IsKeyed)
    (edits : List Edit) :
    (s.afterAll edits).IsKeyed := by
  induction edits generalizing s with
  | nil => exact hKeyed
  | cons edit rest ih => exact ih (hKeyed.after edit)

theorem afterAll_append
    (s : GeneratorSet)
    (before rest : List Edit) :
    s.afterAll (before ++ rest) =
      (s.afterAll before).afterAll rest :=
  List.foldl_append

/- A call that fails might as well not have been made. -/
theorem afterAll_of_error
    {s : GeneratorSet}
    {before : List Edit}
    {edit : Edit}
    {error : GeneratorError}
    (hFails : (s.afterAll before).perform edit = .error error)
    (rest : List Edit) :
    s.afterAll (before ++ edit :: rest) =
      s.afterAll (before ++ rest) := by
  calc s.afterAll (before ++ edit :: rest)
      = ((s.afterAll before).after edit).afterAll rest :=
        afterAll_append s before (edit :: rest)
    _ = (s.afterAll before).afterAll rest := by
        rw [after_of_error hFails]
    _ = s.afterAll (before ++ rest) :=
        (afterAll_append s before rest).symm

theorem registered?_cons
    (s : GeneratorSet)
    (edit : Edit)
    (rest : List Edit)
    (v : Version) :
    s.registered? (edit :: rest) v =
      ((s.table.get? v).or (edit.registers? v)).or
        (rest.findSome? (Edit.registers? v)) := by
  rw [registered?, List.findSome?_cons, Option.or_assoc]
  cases edit.registers? v <;> rfl

/-
  What a set holds for a version after all calls is the
  generator that is registered for it, with the eligibility
  that is last said. By induction on the calls; the first of
  them either gives the version its generator, decides about
  the one that it has, or does neither.
-/
theorem get?_afterAll
    (s : GeneratorSet)
    (edits : List Edit)
    (v : Version) :
    (s.afterAll edits).table.get? v =
      (s.registered? edits v).map fun g =>
        { g with
          isEligible := s.eligibility edits v g } := by
  induction edits generalizing s with
  | nil =>
      cases hFound : s.table.get? v <;>
        simp [afterAll, registered?, eligibility,
          sinceRegistered, hFound]
  | cons edit rest ih =>
      have hAll : s.afterAll (edit :: rest) =
          (s.after edit).afterAll rest := rfl
      rw [hAll, ih, registered?_cons]
      have hStep := get?_after s edit v
      cases hFound : s.table.get? v with
      | some g =>
          rw [hFound] at hStep
          simp [registered?, eligibility, sinceRegistered,
            hStep, hFound, Option.getD_or]
      | none =>
          rw [hFound] at hStep
          cases hRegisters : edit.registers? v <;>
            simp [registered?, eligibility, sinceRegistered,
              hStep, hFound, hRegisters]

/- The versions after all calls are those that are registered. -/
theorem mem_versions_afterAll_iff
    {s : GeneratorSet}
    {edits : List Edit}
    {v : Version} :
    v ∈ (s.afterAll edits).versions ↔
      (s.registered? edits v).isSome = true := by
  rw [mem_versions_iff, get?_afterAll, Option.isSome_map]

end GeneratorSet

------------------------------------------------------------
-- Edits of Policies
------------------------------------------------------------

namespace VersionPolicy

/- A call that changes a policy. -/
inductive Edit where
| holdBack (version : Version)
| release (version : Version)

/- The policy after a call. -/
def after
    (p : VersionPolicy) : Edit → VersionPolicy
| .holdBack version => p.holdBack version
| .release version => p.release version

/- The policy after calls, one after the other. -/
def afterAll
    (p : VersionPolicy)
    (edits : List Edit) : VersionPolicy :=
  edits.foldl after p

/- Whether a call holds a version back, if it is about it. -/
def Edit.decides?
    (version : Version) : Edit → Option Bool
| .holdBack v => if v = version then some true else none
| .release v => if v = version then some false else none

/- What is said of a version last, or else by the policy before. -/
def holdsBack
    (p : VersionPolicy)
    (edits : List Edit)
    (version : Version) : Bool :=
  (edits.reverse.findSome? (Edit.decides? version)).getD
    (p.isHeldBack version)

theorem mem_insert_iff
    {v w : Version}
    {versions : List Version} :
    w ∈ insert v versions ↔ w = v ∨ w ∈ versions := by
  induction versions with
  | nil => simp [insert]
  | cons first rest ih =>
      rw [insert]
      split_ifs with hLess hSame
      · exact List.mem_cons
      · simp [hSame]
      · rw [List.mem_cons, ih, List.mem_cons]
        exact or_left_comm

theorem isHeldBack_after
    (p : VersionPolicy)
    (edit : Edit)
    (v : Version) :
    (p.after edit).isHeldBack v =
      (edit.decides? v).getD (p.isHeldBack v) := by
  cases edit with
  | holdBack version =>
      by_cases hSame : version = v
      · simp [after, holdBack, isHeldBack, Edit.decides?,
          mem_insert_iff, hSame]
      · simp [after, holdBack, isHeldBack, Edit.decides?,
          mem_insert_iff, hSame, Ne.symm hSame]
  | release version =>
      by_cases hSame : version = v
      · simp [after, release, isHeldBack, Edit.decides?, hSame]
      · simp [after, release, isHeldBack, Edit.decides?, hSame,
          Ne.symm hSame]

/- By induction on the calls, the first of them first. -/
theorem isHeldBack_afterAll
    (p : VersionPolicy)
    (edits : List Edit)
    (v : Version) :
    (p.afterAll edits).isHeldBack v = p.holdsBack edits v := by
  induction edits generalizing p with
  | nil => rfl
  | cons edit rest ih =>
      have hAll : p.afterAll (edit :: rest) =
          (p.after edit).afterAll rest := rfl
      rw [hAll, ih, holdsBack, holdsBack, isHeldBack_after]
      simp [Option.getD_or]

------------------------------------------------------------
-- Selection
------------------------------------------------------------

/-
  A version may be selected after some calls: a generator is
  registered for it, which is eligible as far as the calls
  say, and it is not held back.
-/
def MaySelect
    (s : GeneratorSet)
    (edits : List GeneratorSet.Edit)
    (p : VersionPolicy)
    (changes : List Edit)
    (v : Version) : Prop :=
  ∃ g, s.registered? edits v = some g ∧
    s.eligibility edits v g = true ∧
    p.holdsBack changes v = false

theorem allows_afterAll_iff
    {s : GeneratorSet}
    {edits : List GeneratorSet.Edit}
    {p : VersionPolicy}
    {changes : List Edit}
    {v : Version}
    (hOrdered : Table.IsOrdered s.table) :
    (p.afterAll changes).Allows (s.afterAll edits) v ↔
      MaySelect s edits p changes v := by
  have hKeys := (GeneratorSet.isOrdered_afterAll hOrdered
    edits).nodup_keys
  have hEntry : ∀ g, (v, g) ∈ (s.afterAll edits).table ↔
      (s.afterAll edits).table.get? v = some g := by
    intro g
    rw [Table.get?_eq_lookup]
    exact ⟨Table.lookup_of_mem hKeys, Table.mem_of_lookup⟩
  simp only [Allows, MaySelect, hEntry,
    GeneratorSet.get?_afterAll, Option.map_eq_some_iff,
    isHeldBack_afterAll]
  constructor
  · rintro ⟨-, ⟨g, hFound, rfl⟩, hEligible, hFree⟩
    exact ⟨g, hFound, hEligible, hFree⟩
  · rintro ⟨g, hFound, hEligible, hFree⟩
    exact ⟨_, ⟨g, hFound, rfl⟩, hEligible, hFree⟩

/-
  After any calls every generator of a set stands under its
  own version, and the versions, which are those that are
  registered, ascend. A call fails just if it registers a
  version that is one of these, or decides about one that is
  not, and leaves the set as it was. A policy selects the
  highest of the versions that may be selected, and if there
  is none it tells of all that are registered.
-/
theorem selects_after_edits
    {s : GeneratorSet}
    (hStart : s = .empty ∨ s = .builtin)
    (edits : List GeneratorSet.Edit)
    (p : VersionPolicy)
    (changes : List Edit) :
    (s.afterAll edits).IsKeyed ∧
    (s.afterAll edits).versions.Pairwise (· < ·) ∧
    (∀ v, v ∈ (s.afterAll edits).versions ↔
      (s.registered? edits v).isSome = true) ∧
    (∀ edit error,
      (s.afterAll edits).perform edit = .error error ↔
        (s.afterAll edits).refusal? edit = some error) ∧
    (∀ edit error,
      (s.afterAll edits).perform edit = .error error →
      (s.afterAll edits).after edit = s.afterAll edits ∧
        ∀ rest, s.afterAll (edits ++ edit :: rest) =
          s.afterAll (edits ++ rest)) ∧
    (∀ v,
      (p.afterAll changes).current (s.afterAll edits) = .ok v ↔
        MaySelect s edits p changes v ∧
          ∀ w, MaySelect s edits p changes w → w ≤ v) ∧
    ∀ fault,
      (p.afterAll changes).current (s.afterAll edits) =
          .error fault ↔
        (∀ v, ¬MaySelect s edits p changes v) ∧
          fault = ⟨(s.afterAll edits).versions⟩ := by
  have hOrdered : Table.IsOrdered s.table := by
    rcases hStart with rfl | rfl
    · exact List.Pairwise.nil
    · exact Table.isOrdered_of_keys (by decide)
  have hKeyed : s.IsKeyed := by
    rcases hStart with rfl | rfl
    · exact GeneratorSet.isKeyed_empty
    · exact GeneratorSet.isKeyed_builtin
  have hOrderedAll :=
    GeneratorSet.isOrdered_afterAll hOrdered edits
  have hKeyedAll := hKeyed.afterAll edits
  have hAllows : ∀ v,
      (p.afterAll changes).Allows (s.afterAll edits) v ↔
        MaySelect s edits p changes v :=
    fun _ => allows_afterAll_iff hOrdered
  refine ⟨hKeyedAll, List.pairwise_map.mpr hOrderedAll,
    fun v => GeneratorSet.mem_versions_afterAll_iff,
    fun edit error => GeneratorSet.perform_eq_error_iff,
    ?_, ?_, ?_⟩
  · intro edit error hFails
    exact ⟨GeneratorSet.after_of_error hFails,
      GeneratorSet.afterAll_of_error hFails⟩
  · intro v
    rw [current_eq_ok_iff hOrderedAll hKeyedAll, ← hAllows]
    simp only [← hAllows]
    exact ⟨fun hHighest => ⟨hHighest.allowed, hHighest.highest⟩,
      fun ⟨hAllowed, hHighest⟩ => ⟨hAllowed, hHighest⟩⟩
  · intro fault
    rw [current_eq_error_iff hOrderedAll hKeyedAll]
    simp only [hAllows]

/-
  The third version is registered and held back, the second
  is not eligible, and two calls fail on the way.
-/
theorem selects_after_edits_small :
    let third : Version := ⟨3, by decide, by decide⟩
    let edits : List GeneratorSet.Edit :=
      [ .setEligibility third false,
        .register
          (.ofContent third fun _ _ => .ok []),
        .setEligibility .v2 false, .register .v1 ]
    let changes : List Edit :=
      [.holdBack .v1, .holdBack third, .release .v1]
    (empty.afterAll changes).current
        (GeneratorSet.builtin.afterAll edits) = .ok .v1 ∧
      MaySelect .builtin edits empty changes .v1 ∧
      ∀ w, MaySelect .builtin edits empty changes w →
        w ≤ .v1 := by
  intro third edits changes
  have hCurrent : (empty.afterAll changes).current
      (GeneratorSet.builtin.afterAll edits) = .ok .v1 := rfl
  have hSelects := selects_after_edits (Or.inr rfl) edits
    empty changes
  exact ⟨hCurrent, (hSelects.2.2.2.2.2.1 .v1).mp hCurrent⟩

end VersionPolicy

end Federation
