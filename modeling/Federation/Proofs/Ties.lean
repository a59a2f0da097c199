import Federation.Proofs.Sorting

/-
  Entries that tie: sorting keeps the order of those with one
  key. What is made of a sorted list shows the order before
  sorting exactly where entries tie.

  Main declarations:
    * `filter_sortBy`
    * `TiesAlike`
    * `map_sortBy_eq_iff`
-/

namespace Federation

variable {α β κ : Type} [DecidableEq κ]

------------------------------------------------------------
-- Entries of One Key
------------------------------------------------------------

/- Entries of the same key show the same in the same order. -/
def TiesAlike
    (key : α → κ)
    (shown : α → β)
    (xs ys : List α) : Prop :=
  ∀ k, (xs.filter fun a => key a = k).map shown =
    (ys.filter fun a => key a = k).map shown

/- The first entries show the same if they have one key. -/
theorem TiesAlike.of_cons
    {key : α → κ}
    {shown : α → β}
    {a b : α}
    {xs ys : List α}
    (hTies : TiesAlike key shown (a :: xs) (b :: ys))
    (hKey : key a = key b) :
    shown a = shown b ∧ TiesAlike key shown xs ys := by
  have hHeads := hTies (key a)
  rw [List.filter_cons_of_pos (by simp),
    List.filter_cons_of_pos (by simp [hKey]),
    List.map_cons, List.map_cons, List.cons.injEq] at hHeads
  refine ⟨hHeads.1, fun k => ?_⟩
  by_cases hHere : key a = k
  · rw [← hHere]
    exact hHeads.2
  · have hOthers := hTies k
    rwa [List.filter_cons_of_neg (by simpa using hHere),
      List.filter_cons_of_neg (by simpa [← hKey] using hHere)]
      at hOthers

section Keys

variable {cmp : κ → κ → Ordering}
variable [Std.TransCmp cmp] [Std.LawfulEqCmp cmp]

/-
  Those of a key are in order already, so that they are found
  in the sorted list as they stand.
-/
theorem filter_sortBy
    (key : α → κ)
    (xs : List α)
    (k : κ) :
    (sortBy (fun a b => cmp (key a) (key b)) xs).filter
        (fun a => key a = k) =
      xs.filter fun a => key a = k := by
  have hTrans : Std.TransCmp fun a b => cmp (key a) (key b) :=
    transCmp_on cmp key
  have hTied : (xs.filter fun a => key a = k).Pairwise
      fun a b => (cmp (key a) (key b)).isLE = true := by
    refine List.pairwise_of_forall_mem_list ?_
    intro a ha b hb
    have hFirst : key a = k := by
      simpa using (List.mem_filter.mp ha).2
    have hSecond : key b = k := by
      simpa using (List.mem_filter.mp hb).2
    rw [hFirst, hSecond]
    exact Std.ReflCmp.isLE_rfl
  have hSublist : (xs.filter fun a => key a = k).Sublist
      (sortBy (fun a b => cmp (key a) (key b)) xs) := by
    refine List.sublist_mergeSort ?_ ?_ hTied
      List.filter_sublist
    · intro a b c hLeft hRight
      exact hTrans.isLE_trans hLeft hRight
    · intro a b
      have hSwap : cmp (key a) (key b) =
          (cmp (key b) (key a)).swap :=
        Std.OrientedCmp.eq_swap
      dsimp only
      rw [hSwap]
      cases cmp (key b) (key a) <;> rfl
  have hKept := hSublist.filter fun a => decide (key a = k)
  rw [List.filter_filter] at hKept
  simp only [Bool.and_self] at hKept
  refine (hKept.eq_of_length ?_).symm
  exact (((sortBy_perm _ xs).filter _).length_eq).symm

/-
  By induction on the lists: both begin with an entry of the
  least key, and with the first of this key.
-/
theorem eq_of_sorted_of_tiesAlike
    {key : α → κ}
    {xs ys : List α}
    (hFirst : xs.Pairwise fun a b =>
      (cmp (key a) (key b)).isLE = true)
    (hSecond : ys.Pairwise fun a b =>
      (cmp (key a) (key b)).isLE = true)
    (hTies : TiesAlike key id xs ys) :
    xs = ys := by
  have hMem : ∀ {xs ys : List α}, TiesAlike key id xs ys →
      ∀ a, a ∈ xs → a ∈ ys := by
    intro xs ys hTies a ha
    have hHere : a ∈ (xs.filter fun c => key c = key a).map
        id := by
      simpa using ha
    rw [hTies (key a)] at hHere
    simpa using hHere
  have hMirror : TiesAlike key id ys xs :=
    fun k => (hTies k).symm
  induction xs generalizing ys with
  | nil =>
      exact (List.eq_nil_iff_forall_not_mem.mpr fun b hb =>
        List.not_mem_nil (hMem hMirror b hb)).symm
  | cons a xs ih =>
      cases ys with
      | nil =>
          cases hMem hTies a List.mem_cons_self
      | cons b ys =>
          rw [List.pairwise_cons] at hFirst hSecond
          have hLeast : key a = key b := by
            have hBelow :
                (cmp (key a) (key b)).isLE = true := by
              rcases List.mem_cons.mp
                (hMem hMirror b List.mem_cons_self) with
                rfl | hb
              · exact Std.ReflCmp.isLE_rfl
              · exact hFirst.1 b hb
            have hAbove :
                (cmp (key b) (key a)).isLE = true := by
              rcases List.mem_cons.mp
                (hMem hTies a List.mem_cons_self) with
                rfl | ha
              · exact Std.ReflCmp.isLE_rfl
              · exact hSecond.1 a ha
            exact Std.LawfulEqCmp.eq_of_compare
              (Std.OrientedCmp.isLE_antisymm hBelow hAbove)
          rcases hTies.of_cons hLeast with ⟨hHead, hTails⟩
          rw [show a = b from hHead,
            ih hFirst.2 hSecond.2 hTails
              fun k => (hTails k).symm]

end Keys

------------------------------------------------------------
-- What Ties Show
------------------------------------------------------------

namespace TiesAlike

variable {key : α → κ} {shown : α → β} {xs ys : List α}

/- Where no key is there twice there is nothing to tie. -/
theorem of_nodup
    (hPerm : xs.Perm ys)
    (hKeys : (xs.map key).Nodup) :
    TiesAlike key shown xs ys := by
  intro k
  have hTied := hPerm.filter fun a => decide (key a = k)
  have hOnce : (xs.filter fun a => key a = k).length ≤ 1 := by
    have hCount := List.nodup_iff_count_le_one.mp hKeys k
    rw [List.count, List.countP_map,
      List.countP_eq_length_filter] at hCount
    simpa [Function.comp_def, beq_eq_decide] using hCount
  cases hEntries : xs.filter fun a => key a = k with
  | nil =>
      rw [hEntries] at hTied
      rw [← hTied.nil_eq]
  | cons a rest =>
      rw [hEntries, List.length_cons] at hOnce
      have hRest : rest = [] :=
        List.length_eq_zero_iff.mp (by omega)
      rw [hEntries, hRest] at hTied
      rw [hRest, List.singleton_perm.mp hTied]

/- Lists that show the same tie in the same way. -/
theorem of_map_eq
    (hShows : ∀ a ∈ xs, ∀ b ∈ ys,
      shown a = shown b → key a = key b)
    (hSame : xs.map shown = ys.map shown) :
    TiesAlike key shown xs ys := by
  intro k
  induction xs generalizing ys with
  | nil =>
      have hNone : ys = [] := by simpa using hSame
      rw [hNone]
  | cons a xs ih =>
      cases ys with
      | nil => simp at hSame
      | cons b ys =>
          rw [List.map_cons, List.map_cons, List.cons.injEq]
            at hSame
          rcases hSame with ⟨hHead, hTail⟩
          have hKey := hShows a List.mem_cons_self b
            List.mem_cons_self hHead
          have hRest := ih (fun c hc d hd =>
            hShows c (List.mem_cons_of_mem _ hc) d
              (List.mem_cons_of_mem _ hd)) hTail
          rw [List.filter_cons, List.filter_cons, ← hKey]
          split
          · rw [List.map_cons, List.map_cons, hHead, hRest]
          · exact hRest

/- Lists with one sequence of keys show the same at each place. -/
theorem map_eq
    (hTies : TiesAlike key shown xs ys)
    (hKeys : xs.map key = ys.map key) :
    xs.map shown = ys.map shown := by
  induction xs generalizing ys with
  | nil =>
      have hNone : ys = [] := by simpa using hKeys
      rw [hNone]
  | cons a xs ih =>
      cases ys with
      | nil => simp at hKeys
      | cons b ys =>
          rw [List.map_cons, List.map_cons, List.cons.injEq]
            at hKeys
          rcases hKeys with ⟨hKey, hTail⟩
          rcases hTies.of_cons hKey with ⟨hHead, hRest⟩
          rw [List.map_cons, List.map_cons, hHead,
            ih hRest hTail]

end TiesAlike

/-
  What is made of sorted lists is the same exactly if entries
  that tie show the same in the same order before sorting.
-/
theorem map_sortBy_eq_iff
    {cmp : κ → κ → Ordering}
    [Std.TransCmp cmp] [Std.LawfulEqCmp cmp]
    {key : α → κ}
    {shown : α → β}
    {xs ys : List α}
    (hShows : ∀ a ∈ xs, ∀ b ∈ ys,
      shown a = shown b → key a = key b) :
    (sortBy (fun a b => cmp (key a) (key b)) xs).map shown =
        (sortBy (fun a b => cmp (key a) (key b)) ys).map
          shown ↔
      TiesAlike key shown xs ys := by
  constructor
  · intro hSame k
    have hSorted := TiesAlike.of_map_eq
      (fun a ha b hb => hShows a (mem_sortBy.mp ha) b
        (mem_sortBy.mp hb)) hSame k
    rwa [filter_sortBy, filter_sortBy] at hSorted
  · intro hTies
    have hTrans : Std.TransCmp fun p q : κ × β =>
        cmp p.1 q.1 :=
      transCmp_on cmp Prod.fst
    have hPairs : ∀ (k : κ) (zs : List α),
        ((zs.map fun a => (key a, shown a)).filter
          fun p => p.1 = k) =
        ((zs.filter fun a => key a = k).map shown).map
          fun b => (k, b) := by
      intro k zs
      rw [List.filter_map, List.map_map]
      refine List.map_congr_left fun a hMem => ?_
      have hKey : key a = k := by
        simpa using (List.mem_filter.mp hMem).2
      rw [Function.comp_apply, hKey]
    rw [map_sortBy key shown xs, map_sortBy key shown ys]
    congr 1
    refine @eq_of_sorted_of_tiesAlike _ _ _ cmp _ _ Prod.fst
      _ _ (sortBy_pairwise _) (sortBy_pairwise _) ?_
    intro k
    rw [List.map_id, List.map_id, filter_sortBy,
      filter_sortBy, hPairs, hPairs, hTies k]

end Federation
