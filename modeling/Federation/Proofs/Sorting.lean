import Federation.Generation.Content
import Mathlib.Data.List.Nodup

/-
  Laws of sorted lists: sorting rearranges, and sorting with
  each element once keeps exactly the elements. If no two
  elements have the same key, the order before sorting does
  not show.

  Main declarations:
    * `sortBy_perm`
    * `sortBy_eq_of_perm`
    * `map_sortBy_eq_of_perm`
    * `filter_key_eq_singleton`
    * `mem_sortOnce`
    * `sortOnce_nodup`
    * `sortOnce_eq_of_perm`
-/

namespace Federation

variable {α β κ : Type}

------------------------------------------------------------
-- Rearranging
------------------------------------------------------------

theorem sortBy_perm
    (compare : α → α → Ordering)
    (list : List α) :
    (sortBy compare list).Perm list :=
  List.mergeSort_perm list _

@[simp] theorem mem_sortBy
    {compare : α → α → Ordering}
    {list : List α}
    {a : α} :
    a ∈ sortBy compare list ↔ a ∈ list :=
  (sortBy_perm compare list).mem_iff

theorem sortBy_pairwise
    {compare : α → α → Ordering}
    [Std.TransCmp compare]
    (list : List α) :
    (sortBy compare list).Pairwise fun a b =>
      (compare a b).isLE = true := by
  refine List.pairwise_mergeSort ?_ ?_ list
  · intro a b c hLeft hRight
    exact Std.TransCmp.isLE_trans hLeft hRight
  · intro a b
    have hSwap : compare a b = (compare b a).swap :=
      Std.OrientedCmp.eq_swap
    rw [hSwap]
    cases compare b a <;> rfl

------------------------------------------------------------
-- Order Before Sorting
------------------------------------------------------------

/- If equal elements are the same, they come in one order only. -/
theorem sortBy_eq_of_perm
    {compare : α → α → Ordering}
    [Std.TransCmp compare]
    {xs ys : List α}
    (hPerm : xs.Perm ys)
    (hEqual : ∀ a ∈ xs, ∀ b ∈ xs,
      compare a b = .eq → a = b) :
    sortBy compare xs = sortBy compare ys := by
  refine List.Perm.eq_of_pairwise ?_ (sortBy_pairwise xs)
    (sortBy_pairwise ys)
    ((sortBy_perm _ xs).trans
      (hPerm.trans (sortBy_perm _ ys).symm))
  intro a b hFirst hSecond hLe hGe
  exact hEqual a (mem_sortBy.mp hFirst) b
    (hPerm.mem_iff.mpr (mem_sortBy.mp hSecond))
    (Std.OrientedCmp.isLE_antisymm hLe hGe)

section Keys

variable {cmp : κ → κ → Ordering}

/- The keys of elements are compared like the elements. -/
theorem transCmp_on
    (cmp : κ → κ → Ordering)
    [Std.TransCmp cmp]
    (key : α → κ) :
    Std.TransCmp fun a b => cmp (key a) (key b) where
  eq_swap := Std.OrientedCmp.eq_swap
  isLE_trans := Std.TransCmp.isLE_trans

/- What is made of elements is sorted together with their keys. -/
theorem map_sortBy
    (key : α → κ)
    (f : α → β)
    (xs : List α) :
    (sortBy (fun a b => cmp (key a) (key b)) xs).map f =
      (sortBy (fun p q : κ × β => cmp p.1 q.1)
        (xs.map fun a => (key a, f a))).map Prod.snd := by
  have hSorted : (sortBy (fun a b => cmp (key a) (key b))
      xs).map (fun a => (key a, f a)) =
      sortBy (fun p q : κ × β => cmp p.1 q.1)
        (xs.map fun a => (key a, f a)) :=
    List.map_mergeSort fun _ _ _ _ => rfl
  rw [← hSorted, List.map_map]
  rfl

/-
  Lists whose elements have the same keys and make the same,
  up to their order, make the same once they are sorted, if
  no key is there twice.
-/
theorem map_sortBy_eq_of_perm
    [Std.TransCmp cmp]
    [Std.LawfulEqCmp cmp]
    {key : α → κ}
    {f : α → β}
    {xs ys : List α}
    (hPerm : (xs.map fun a => (key a, f a)).Perm
      (ys.map fun a => (key a, f a)))
    (hKeys : (xs.map key).Nodup) :
    (sortBy (fun a b => cmp (key a) (key b)) xs).map f =
      (sortBy (fun a b => cmp (key a) (key b)) ys).map f := by
  have hFirst : ((xs.map fun a => (key a, f a)).map
      Prod.fst).Nodup := by
    rw [List.map_map]
    exact hKeys
  have hTrans : Std.TransCmp fun p q : κ × β => cmp p.1 q.1 :=
    transCmp_on cmp Prod.fst
  rw [map_sortBy key f xs, map_sortBy key f ys,
    sortBy_eq_of_perm hPerm]
  intro p hp q hq hSame
  exact List.inj_on_of_nodup_map hFirst hp hq
    (Std.LawfulEqCmp.eq_of_compare hSame)

end Keys

------------------------------------------------------------
-- Keys That Are There Once
------------------------------------------------------------

/- Of a key that is there once, one entry is kept. -/
theorem filter_key_eq_singleton
    [DecidableEq κ]
    (key : α → κ)
    {xs : List α}
    {a : α}
    (hKeys : (xs.map key).Nodup)
    (hMem : a ∈ xs) :
    (xs.filter fun b => key b = key a) = [a] := by
  induction xs with
  | nil => cases hMem
  | cons first rest ih =>
      rw [List.map_cons, List.nodup_cons] at hKeys
      rcases List.mem_cons.mp hMem with rfl | hLater
      · have hNone : (rest.filter fun b => key b = key a) =
            [] := by
          apply List.filter_eq_nil_iff.mpr
          intro b hb hSame
          have hKey : key b = key a := by simpa using hSame
          exact hKeys.1 (hKey ▸ List.mem_map_of_mem hb)
        rw [List.filter_cons_of_pos (by simp), hNone]
      · have hOther : key first ≠ key a := fun hSame =>
          hKeys.1 (hSame ▸ List.mem_map_of_mem hLater)
        rw [List.filter_cons_of_neg (by simpa using hOther)]
        exact ih hKeys.2 hLater

------------------------------------------------------------
-- Dropping Repeats
------------------------------------------------------------

section Once

variable [DecidableEq α]

@[simp] theorem mem_dropRepeats
    {list : List α}
    {a : α} :
    a ∈ dropRepeats list ↔ a ∈ list := by
  induction list using dropRepeats.induct with
  | case1 => simp [dropRepeats]
  | case2 b => simp [dropRepeats]
  | case3 b rest ih => simp [dropRepeats, ih]
  | case4 b c rest hNe ih => simp [dropRepeats, hNe, ih]

/-
  In a list whose order tells different elements apart, equal
  elements are neighbors, so that none is left twice.
-/
theorem dropRepeats_nodup
    (le : α → α → Prop)
    {list : List α}
    (hAntisymm : ∀ a b, le a b → le b a → a = b)
    (hSorted : list.Pairwise le) :
    (dropRepeats list).Nodup := by
  induction list using dropRepeats.induct with
  | case1 => simp [dropRepeats]
  | case2 b => simp [dropRepeats]
  | case3 b rest ih =>
      simpa [dropRepeats] using ih hSorted.tail
  | case4 b c rest hNe ih =>
      have hTail := ih hSorted.tail
      have hBefore := (List.pairwise_cons.mp hSorted).1
      have hAfter :=
        (List.pairwise_cons.mp hSorted.tail).1
      simp only [dropRepeats, if_neg hNe, List.nodup_cons]
      refine ⟨?_, hTail⟩
      intro hMem
      rcases List.mem_cons.mp (mem_dropRepeats.mp hMem) with
        hHere | hLater
      · exact hNe hHere
      · exact hNe
          (hAntisymm _ _ (hBefore c (by simp))
            (hAfter b hLater))

@[simp] theorem mem_sortOnce
    {compare : α → α → Ordering}
    {list : List α}
    {a : α} :
    a ∈ sortOnce compare list ↔ a ∈ list := by
  simp [sortOnce]

theorem sortOnce_nodup
    {compare : α → α → Ordering}
    [Std.TransCmp compare] [Std.LawfulEqCmp compare]
    (list : List α) :
    (sortOnce compare list).Nodup := by
  refine dropRepeats_nodup
    (fun a b => (compare a b).isLE = true) ?_ ?_
  · intro a b hLe hGe
    exact Std.LawfulEqCmp.eq_of_compare
      (Std.OrientedCmp.isLE_antisymm hLe hGe)
  · exact sortBy_pairwise list

/- To sort with each element once, the order is no matter. -/
theorem sortOnce_eq_of_perm
    {compare : α → α → Ordering}
    [Std.TransCmp compare] [Std.LawfulEqCmp compare]
    {xs ys : List α}
    (hPerm : xs.Perm ys) :
    sortOnce compare xs = sortOnce compare ys := by
  rw [sortOnce, sortOnce, sortBy_eq_of_perm hPerm]
  intro a _ b _ hSame
  exact Std.LawfulEqCmp.eq_of_compare hSame

end Once

------------------------------------------------------------
-- Texts
------------------------------------------------------------

namespace Content

@[simp] theorem mem_sortTexts
    {texts : List String}
    {text : String} :
    text ∈ sortTexts texts ↔ text ∈ texts :=
  mem_sortOnce

theorem sortTexts_nodup (texts : List String) :
    (sortTexts texts).Nodup :=
  sortOnce_nodup texts

theorem sortTexts_eq_of_perm
    {xs ys : List String}
    (hPerm : xs.Perm ys) :
    sortTexts xs = sortTexts ys :=
  sortOnce_eq_of_perm hPerm

@[simp] theorem mem_sortClients
    {clients : List ClientId}
    {client : ClientId} :
    client ∈ sortClients clients ↔ client ∈ clients :=
  mem_sortOnce

end Content

end Federation
