import Federation.Proofs.Sorting
import Mathlib.Data.Prod.Lex
import Mathlib.Data.String.Basic
import Mathlib.Order.Compare
import Mathlib.Order.WithBot

/-
  Sorted lists as lists in the order of keys. Every comparison
  of identifiers is the one of keys in a linear order: texts,
  pairs of keys of which the first decides, and optional texts,
  of which none comes first. A sorted list ascends in its keys,
  and one with each element once ascends strictly.

  Main declarations:
    * `ComparesBy`
    * `IsSetOf`
    * `ComparesBy.sortBy_pairwise_le`
    * `ComparesBy.isSetOf_sortOnce`
-/

namespace Federation

variable {α κ ι : Type}
variable [LinearOrder κ] [LinearOrder ι]

------------------------------------------------------------
-- Comparisons
------------------------------------------------------------

/- Elements are compared as their keys are ordered. -/
def ComparesBy
    (cmp : α → α → Ordering)
    (key : α → κ) : Prop :=
  ∀ a b, (cmp a b).Compares (key a) (key b)

theorem comparesBy_text (key : α → String) :
    ComparesBy (fun a b => compare (key a) (key b)) key := by
  intro a b
  have hCompare := cmp_compares (key a) (key b)
  rwa [cmp_eq_compare] at hCompare

namespace ComparesBy

variable {cmp first second : α → α → Ordering}
variable {key : α → κ} {key' : α → ι}

/- Of two comparisons, the first decides if it can. -/
theorem lex
    (hFirst : ComparesBy first key)
    (hSecond : ComparesBy second key') :
    ComparesBy (fun a b => (first a b).then (second a b))
      (fun a => toLex (key a, key' a)) := by
  intro a b
  have hKey := hFirst a b
  have hKey' := hSecond a b
  cases hOrder : first a b with
  | lt =>
      rw [hOrder] at hKey
      simp only [hOrder]
      exact Prod.Lex.left _ _ hKey
  | gt =>
      rw [hOrder] at hKey
      simp only [hOrder]
      exact Prod.Lex.left _ _ hKey
  | eq =>
      rw [hOrder] at hKey
      have hSame : key a = key b := hKey
      simp only [hOrder, hSame]
      cases hOther : second a b with
      | lt =>
          rw [hOther] at hKey'
          exact Prod.Lex.right _ hKey'
      | gt =>
          rw [hOther] at hKey'
          exact Prod.Lex.right _ hKey'
      | eq =>
          rw [hOther] at hKey'
          exact congrArg (fun k => toLex (key b, k)) hKey'

/- Elements are compared by what they have of another kind. -/
theorem on
    {β : Type}
    (hCompares : ComparesBy cmp key)
    (part : β → α) :
    ComparesBy (fun a b => cmp (part a) (part b))
      (fun a => key (part a)) :=
  fun a b => hCompares (part a) (part b)

theorem isLE_iff
    (hCompares : ComparesBy cmp key)
    (a b : α) :
    (cmp a b).isLE = true ↔ key a ≤ key b := by
  rw [← (hCompares a b).ne_gt]
  cases cmp a b <;> simp

/- What is compared by keys is compared by an order. -/
theorem transCmp
    (hCompares : ComparesBy cmp key) :
    Std.TransCmp cmp where
  eq_swap {a b} := by
    have hSwap : (cmp b a).swap.Compares (key a) (key b) :=
      Ordering.compares_swap.mpr (hCompares b a)
    exact (hCompares a b).inj hSwap
  isLE_trans {a b c} hLeft hRight := by
    rw [hCompares.isLE_iff] at hLeft hRight ⊢
    exact hLeft.trans hRight

------------------------------------------------------------
-- Sorted Lists
------------------------------------------------------------

/- A sorted list ascends in its keys. -/
theorem sortBy_pairwise_le
    (hCompares : ComparesBy cmp key)
    (list : List α) :
    (sortBy cmp list).Pairwise fun a b => key a ≤ key b := by
  have hTrans : Std.TransCmp cmp := hCompares.transCmp
  refine (sortBy_pairwise list).imp ?_
  intro a b hLe
  exact (hCompares.isLE_iff a b).mp hLe

end ComparesBy

------------------------------------------------------------
-- Each Element Once
------------------------------------------------------------

/-
  A list is the set of another's elements, strictly ascending
  in the order of their keys.
-/
structure IsSetOf
    (key : α → κ)
    (source shown : List α) : Prop where
  ascending : shown.Pairwise fun a b => key a < key b
  same : ∀ a, a ∈ shown ↔ a ∈ source

theorem dropRepeats_sublist
    [DecidableEq α]
    (list : List α) :
    (dropRepeats list).Sublist list := by
  induction list using dropRepeats.induct with
  | case1 => exact .refl []
  | case2 a => exact .refl [a]
  | case3 a rest ih =>
      rw [dropRepeats, if_pos rfl]
      exact ih.cons a
  | case4 a b rest hNe ih =>
      rw [dropRepeats, if_neg hNe]
      exact ih.cons_cons a

/-
  A list that is sorted with each element once ascends
  strictly if elements with the same key are the same.
-/
theorem ComparesBy.isSetOf_sortOnce
    [DecidableEq α]
    {cmp : α → α → Ordering}
    {key : α → κ}
    (hCompares : ComparesBy cmp key)
    (hKey : Function.Injective key)
    (list : List α) :
    IsSetOf key list (sortOnce cmp list) := by
  have hSorted := hCompares.sortBy_pairwise_le list
  have hAscending : (sortOnce cmp list).Pairwise
      fun a b => key a ≤ key b :=
    hSorted.sublist (dropRepeats_sublist _)
  have hOnce : (sortOnce cmp list).Nodup := by
    apply dropRepeats_nodup (fun a b => key a ≤ key b)
    · intro a b hLe hGe
      exact hKey (le_antisymm hLe hGe)
    · exact hSorted
  constructor
  · refine (hAscending.and hOnce).imp ?_
    rintro a b ⟨hLe, hNe⟩
    exact lt_of_le_of_ne hLe (hKey.ne hNe)
  · intro a
    exact mem_sortOnce

end Federation
