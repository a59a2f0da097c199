import Federation.Generation.Policy
import Federation.Proofs.Generation.WellFormed

/-
  The version that a policy selects: the highest of those
  that are registered, eligible and not held back. A fault is
  found exactly if there is none.

  Main declarations:
    * `GeneratorSet.IsKeyed`
    * `VersionPolicy.Allows`
    * `VersionPolicy.IsCurrent`
    * `VersionPolicy.current_eq_ok_iff`
    * `VersionPolicy.current_eq_error_iff`
-/

namespace Federation

------------------------------------------------------------
-- Keyed Sets
------------------------------------------------------------

namespace GeneratorSet

variable {g g' : GeneratorSet}
variable {generator : Generator}

/- Every generator is registered under its own version. -/
def IsKeyed (g : GeneratorSet) : Prop :=
  ∀ entry ∈ g.table, entry.2.version = entry.1

theorem isKeyed_empty : empty.IsKeyed :=
  fun _ hMem => nomatch hMem

theorem isKeyed_builtin : builtin.IsKeyed := by
  simp [IsKeyed, builtin, Generator.v1, Generator.v2,
    Generator.ofContent]

theorem IsKeyed.insert
    {version : Version}
    (hKeyed : g.IsKeyed)
    (hVersion : generator.version = version) :
    IsKeyed ⟨g.table.insert version generator⟩ := by
  intro entry hMem
  rcases Table.mem_of_mem_insert hMem with rfl | hBefore
  · exact hVersion
  · exact hKeyed entry hBefore

theorem IsKeyed.register
    (hKeyed : g.IsKeyed)
    (hRegister : g.register generator = .ok g') :
    g'.IsKeyed := by
  rw [GeneratorSet.register] at hRegister
  split at hRegister
  · cases hRegister
  · cases hRegister
    exact hKeyed.insert rfl

theorem IsKeyed.setEligibility
    {version : Version}
    {isEligible : Bool}
    (hKeyed : g.IsKeyed)
    (hSet : g.setEligibility version isEligible = .ok g') :
    g'.IsKeyed := by
  rw [GeneratorSet.setEligibility] at hSet
  rcases Reading.exists_of_bind_eq_ok hSet with
    ⟨generator, hGet, hRest⟩
  cases hRest
  have hVersion := hKeyed _ (mem_of_get hGet)
  exact hKeyed.insert hVersion

end GeneratorSet

------------------------------------------------------------
-- Selection
------------------------------------------------------------

namespace VersionPolicy

variable {p : VersionPolicy}
variable {s : GeneratorSet}
variable {v w : Version}

/- A version is registered, eligible and not held back. -/
def Allows
    (p : VersionPolicy)
    (s : GeneratorSet)
    (v : Version) : Prop :=
  ∃ g, (v, g) ∈ s.table ∧ g.isEligible = true ∧
    p.isHeldBack v = false

/- A version is the highest that a policy allows. -/
structure IsCurrent
    (p : VersionPolicy)
    (s : GeneratorSet)
    (v : Version) : Prop where
  allowed : p.Allows s v
  highest : ∀ w, p.Allows s w → w ≤ v

theorem IsCurrent.unique
    (hFirst : p.IsCurrent s v)
    (hSecond : p.IsCurrent s w) :
    v = w :=
  Version.ext_number (Nat.le_antisymm
    (hSecond.highest v hFirst.allowed)
    (hFirst.highest w hSecond.allowed))

/- What the search for the current version asks of an entry. -/
def test
    (p : VersionPolicy)
    (g : Generator) : Bool :=
  g.isEligible && !p.isHeldBack g.version

theorem allows_iff
    (hKeyed : s.IsKeyed) :
    p.Allows s v ↔
      ∃ g ∈ s.generators, g.version = v ∧
        p.test g = true := by
  constructor
  · rintro ⟨g, hMem, hEligible, hFree⟩
    have hVersion : g.version = v := hKeyed _ hMem
    refine ⟨g, List.mem_map.mpr ⟨_, hMem, rfl⟩, hVersion, ?_⟩
    simp [test, hEligible, hVersion, hFree]
  · rintro ⟨g, hMem, rfl, hTest⟩
    rcases List.mem_map.mp hMem with ⟨⟨key, g⟩, hEntry, rfl⟩
    have hVersion : g.version = key := hKeyed _ hEntry
    simp only [test, Bool.and_eq_true,
      Bool.not_eq_true'] at hTest
    rw [hVersion] at hTest ⊢
    exact ⟨g, hEntry, hTest⟩

theorem generators_pairwise
    (hOrdered : Table.IsOrdered s.table)
    (hKeyed : s.IsKeyed) :
    s.generators.Pairwise fun g h => g.version < h.version := by
  rw [GeneratorSet.generators, List.pairwise_map]
  refine hOrdered.imp_of_mem fun {a b} hFirst hSecond hLess => ?_
  rw [hKeyed a hFirst, hKeyed b hSecond]
  exact hLess

/-
  The search goes from the highest version down, so that what
  it passes over fails and what is left is lower.
-/
theorem isCurrent_of_find?
    {g : Generator}
    (hOrdered : Table.IsOrdered s.table)
    (hKeyed : s.IsKeyed)
    (hFound : s.generators.reverse.find? p.test = some g) :
    p.IsCurrent s g.version := by
  have hMem := List.mem_reverse.mp
    (List.mem_of_find?_eq_some hFound)
  have hTest := List.find?_some hFound
  refine ⟨(allows_iff hKeyed).mpr ⟨g, hMem, rfl, hTest⟩, ?_⟩
  intro w hAllows
  rcases (allows_iff hKeyed).mp hAllows with
    ⟨h, hOther, rfl, hPasses⟩
  rcases List.find?_eq_some_iff_append.mp hFound with
    ⟨-, higher, lower, hSplit, hFails⟩
  have hDescending := List.pairwise_reverse.mpr
    (generators_pairwise hOrdered hKeyed)
  rw [hSplit, List.pairwise_append,
    List.pairwise_cons] at hDescending
  have hPlace := List.mem_reverse.mpr hOther
  rw [hSplit, List.mem_append, List.mem_cons] at hPlace
  rcases hPlace with hHigher | rfl | hLower
  · have hFailed := hFails h hHigher
    rw [hPasses] at hFailed
    cases hFailed
  · exact Nat.le_refl _
  · exact Nat.le_of_lt (hDescending.2.1.1 h hLower)

/- The search either finds the highest version or none. -/
theorem current_cases
    (hOrdered : Table.IsOrdered s.table)
    (hKeyed : s.IsKeyed) :
    (∃ v, p.current s = .ok v ∧ p.IsCurrent s v) ∨
      (p.current s = .error ⟨s.versions⟩ ∧
        ∀ v, ¬p.Allows s v) := by
  have hSearch : (fun g : Generator =>
      g.isEligible && !p.isHeldBack g.version) = p.test :=
    rfl
  cases hFound : s.generators.reverse.find? p.test with
  | some g =>
      have hCurrent : p.current s = .ok g.version := by
        rw [current, hSearch, hFound]
      rw [hCurrent]
      exact Or.inl ⟨_, rfl,
        isCurrent_of_find? hOrdered hKeyed hFound⟩
  | none =>
      have hCurrent : p.current s = .error ⟨s.versions⟩ := by
        rw [current, hSearch, hFound]
      refine Or.inr ⟨hCurrent, fun v hAllows => ?_⟩
      rcases (allows_iff hKeyed).mp hAllows with
        ⟨g, hMem, -, hTest⟩
      exact List.find?_eq_none.mp hFound g
        (List.mem_reverse.mpr hMem) hTest

/- The current version is the highest that is allowed. -/
theorem current_eq_ok_iff
    (hOrdered : Table.IsOrdered s.table)
    (hKeyed : s.IsKeyed) :
    p.current s = .ok v ↔ p.IsCurrent s v := by
  rcases current_cases (p := p) hOrdered hKeyed with
    ⟨w, hOk, hHighest⟩ | ⟨hError, hNone⟩
  · rw [hOk, Except.ok.injEq]
    constructor
    · rintro rfl
      exact hHighest
    · exact hHighest.unique
  · rw [hError]
    constructor
    · exact nofun
    · intro hHighest
      exact absurd hHighest.allowed (hNone v)

/- There is a fault exactly if no version is allowed. -/
theorem current_eq_error_iff
    {fault : PolicyFault}
    (hOrdered : Table.IsOrdered s.table)
    (hKeyed : s.IsKeyed) :
    p.current s = .error fault ↔
      (∀ v, ¬p.Allows s v) ∧ fault = ⟨s.versions⟩ := by
  rcases current_cases (p := p) hOrdered hKeyed with
    ⟨w, hOk, hHighest⟩ | ⟨hError, hNone⟩
  · rw [hOk]
    constructor
    · exact nofun
    · rintro ⟨hAll, -⟩
      exact absurd hHighest.allowed (hAll w)
  · rw [hError, Except.error.injEq, eq_comm]
    exact (and_iff_right hNone).symm

end VersionPolicy

end Federation
