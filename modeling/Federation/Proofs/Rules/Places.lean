import Federation.Proofs.Pointer
import Federation.Rules.Basic

/-
  Where the rules over lists of items find something: a
  finding is one of an item's, and findings of different items
  and keys are at different places.

  Main declarations:
    * `Rules.mem_overItems_iff`
    * `Rules.IsTidy`
    * `Rules.IsTidy.overItems`
    * `Rules.IsTidyUnder.append`
-/

namespace Federation

namespace Rules

------------------------------------------------------------
-- Parts of Documents
------------------------------------------------------------

theorem items_getElem?
    (key : String)
    (v : Json)
    (i : Nat) :
    (items key v)[i]? =
      ((v.get? key).bind Json.asArray?).bind (·[i]?) := by
  unfold items
  cases (v.get? key).bind Json.asArray? <;> simp

theorem get?_part
    (key name : String)
    (v : Json) :
    (part key v).get? name =
      (v.get? key).bind (Json.get? name) := by
  unfold part
  cases v.get? key <;> rfl

theorem resolve?_item_of_key
    {key : String}
    {i : Nat}
    {q : Pointer}
    {v w : Json} :
    Pointer.resolve? (.key key :: .index i :: q) v = some w ↔
      ∃ x, (items key v)[i]? = some x ∧
        q.resolve? x = some w := by
  simp only [items_getElem?, Pointer.resolve?_cons,
    Pointer.step?, Option.bind_eq_some_iff]
  grind

theorem resolve?_part
    {key : String}
    {q : Pointer}
    {v w : Json}
    (hPart : Pointer.resolve? (.key key :: q) v = some w) :
    q.resolve? (part key v) = some w := by
  rw [Pointer.resolve?_cons, Pointer.step?,
    Option.bind_eq_some_iff] at hPart
  rcases hPart with ⟨x, hKey, hRest⟩
  rwa [part, hKey]

------------------------------------------------------------
-- Findings
------------------------------------------------------------

@[simp] theorem mem_whenever_iff
    {f : Finding}
    {condition : Bool}
    {place : Pointer}
    {fault : RuleFault} :
    f ∈ whenever condition place fault ↔
      condition = true ∧ f = (place, fault) := by
  cases condition <;> simp [whenever]

section Items

variable {α β : Type} {rule : List α → Nat → α → List β}

/-
  By induction on the items; those that are passed become the
  nearest of the items before.
-/
theorem mem_overItemsFrom_iff
    {earlier xs : List α}
    {i : Nat}
    {b : β} :
    b ∈ overItemsFrom rule earlier i xs ↔
      ∃ k x, xs[k]? = some x ∧
        b ∈ rule ((xs.take k).reverse ++ earlier)
          (i + k) x := by
  induction xs generalizing earlier i with
  | nil => simp [overItemsFrom]
  | cons x rest ih =>
      rw [overItemsFrom, List.mem_append, ih]
      constructor
      · rintro (hHead | ⟨k, y, hItem, hFound⟩)
        · exact ⟨0, x, by simp, by simpa using hHead⟩
        · refine ⟨k + 1, y, by simpa using hItem, ?_⟩
          rw [Nat.add_assoc, Nat.add_comm 1 k] at hFound
          simpa using hFound
      · rintro ⟨k, y, hItem, hFound⟩
        cases k with
        | zero =>
            obtain rfl : x = y := by simpa using hItem
            exact Or.inl (by simpa using hFound)
        | succ k =>
            refine Or.inr ⟨k, y, by simpa using hItem, ?_⟩
            rw [Nat.add_assoc, Nat.add_comm 1 k]
            simpa using hFound

/- What is found is found in an item, after those before it. -/
theorem mem_overItems_iff
    {xs : List α}
    {b : β} :
    b ∈ overItems rule xs ↔
      ∃ i x, xs[i]? = some x ∧
        b ∈ rule (xs.take i).reverse i x := by
  simp [overItems, mem_overItemsFrom_iff]

/- The items before an item are those at lower places. -/
theorem mem_take_reverse_iff
    {xs : List α}
    {i : Nat}
    {y : α} :
    y ∈ (xs.take i).reverse ↔
      ∃ j, j < i ∧ xs[j]? = some y := by
  rw [List.mem_reverse, List.mem_iff_getElem?]
  simp only [List.getElem?_take]
  constructor
  · rintro ⟨j, hItem⟩
    split_ifs at hItem with hLess
    exact ⟨j, hLess, hItem⟩
  · rintro ⟨j, hLess, hItem⟩
    exact ⟨j, by rw [if_pos hLess, hItem]⟩

end Items

------------------------------------------------------------
-- Findings Below a Place
------------------------------------------------------------

/- Findings below a place, no two of them at the same. -/
structure IsTidy
    (place : Pointer)
    (found : List Finding) : Prop where
  below : ∀ f ∈ found, place <+: f.1
  own : (found.map Prod.fst).Nodup

theorem IsTidy.nil {place : Pointer} : IsTidy place [] :=
  ⟨by simp, by simp⟩

theorem IsTidy.single
    {place : Pointer}
    {fault : RuleFault} :
    IsTidy place [(place, fault)] :=
  ⟨by simp, by simp⟩

theorem IsTidy.whenever
    {condition : Bool}
    {place : Pointer}
    {fault : RuleFault} :
    IsTidy place (whenever condition place fault) := by
  cases condition
  · exact .nil
  · exact .single

theorem IsTidy.of_prefix
    {short long : Pointer}
    {found : List Finding}
    (hFound : IsTidy long found)
    (hPrefix : short <+: long) :
    IsTidy short found :=
  ⟨fun f hMem => hPrefix.trans (hFound.below f hMem),
    hFound.own⟩

theorem IsTidy.of_key
    {place : Pointer}
    {key : String}
    {found : List Finding}
    (hFound : IsTidy (place.key key) found) :
    IsTidy place found :=
  hFound.of_prefix (List.prefix_append place _)

theorem IsTidy.append
    {place : Pointer}
    {found others : List Finding}
    (hFound : IsTidy place found)
    (hOthers : IsTidy place others)
    (hApart : ∀ f ∈ found, ∀ g ∈ others, f.1 ≠ g.1) :
    IsTidy place (found ++ others) where
  below := List.forall_mem_append.mpr
    ⟨hFound.below, hOthers.below⟩
  own := by
    rw [List.map_append, List.nodup_append]
    refine ⟨hFound.own, hOthers.own, ?_⟩
    simpa using fun p fault hMem q other hOther =>
      hApart (p, fault) hMem (q, other) hOther

/- Two steps from a place that lead to one place are the same. -/
theorem eq_of_prefix_append
    {place p : Pointer}
    {s t : PointerStep}
    (hs : place ++ [s] <+: p)
    (ht : place ++ [t] <+: p) :
    s = t := by
  have hSame : place ++ [s] = place ++ [t] :=
    (List.prefix_of_prefix_length_le hs ht
      (by simp)).eq_of_length (by simp)
  simpa using hSame

/-
  By induction on the items; what is found in the rest is
  below places with higher numbers.
-/
theorem tidy_overItemsFrom
    {α : Type}
    {rule : List α → Nat → α → List Finding}
    {place : Pointer}
    (hRule : ∀ earlier i x,
      IsTidy (place.index i) (rule earlier i x))
    (earlier : List α)
    (i : Nat)
    (xs : List α) :
    IsTidy place (overItemsFrom rule earlier i xs) ∧
      ∀ f ∈ overItemsFrom rule earlier i xs,
        ∃ k, i ≤ k ∧ place.index k <+: f.1 := by
  induction xs generalizing earlier i with
  | nil => exact ⟨.nil, by simp [overItemsFrom]⟩
  | cons x rest ih =>
      rcases ih (x :: earlier) (i + 1) with ⟨hRest, hHigher⟩
      have hHead := hRule earlier i x
      rw [overItemsFrom]
      constructor
      · refine (hHead.of_prefix
          (List.prefix_append place _)).append hRest ?_
        intro f hMem g hOther hSame
        rcases hHigher g hOther with ⟨k, hLess, hBelow⟩
        have hStep := eq_of_prefix_append
          (hHead.below f hMem) (hSame ▸ hBelow)
        cases hStep
        omega
      · rw [List.forall_mem_append]
        constructor
        · exact fun f hMem =>
            ⟨i, Nat.le_refl i, hHead.below f hMem⟩
        · intro f hMem
          rcases hHigher f hMem with ⟨k, hLess, hBelow⟩
          exact ⟨k, by omega, hBelow⟩

theorem IsTidy.overItems
    {α : Type}
    {rule : List α → Nat → α → List Finding}
    {place : Pointer}
    (hRule : ∀ earlier i x,
      IsTidy (place.index i) (rule earlier i x))
    (xs : List α) :
    IsTidy place (overItems rule xs) :=
  (tidy_overItemsFrom hRule [] 0 xs).1

------------------------------------------------------------
-- Findings Below Keys
------------------------------------------------------------

/- Findings below some keys of a place, no two at the same. -/
structure IsTidyUnder
    (place : Pointer)
    (keys : List String)
    (found : List Finding) : Prop where
  below : ∀ f ∈ found, ∃ key ∈ keys, place.key key <+: f.1
  own : (found.map Prod.fst).Nodup

theorem IsTidy.under
    {place : Pointer}
    {key : String}
    {found : List Finding}
    (hFound : IsTidy (place.key key) found) :
    IsTidyUnder place [key] found :=
  ⟨fun f hMem => ⟨key, by simp, hFound.below f hMem⟩,
    hFound.own⟩

theorem IsTidyUnder.tidy
    {place : Pointer}
    {keys : List String}
    {found : List Finding}
    (hFound : IsTidyUnder place keys found) :
    IsTidy place found where
  below f hMem := by
    rcases hFound.below f hMem with ⟨key, -, hBelow⟩
    exact (List.prefix_append place _).trans hBelow
  own := hFound.own

/- What is found below one more key is found elsewhere. -/
theorem IsTidyUnder.append
    {place : Pointer}
    {keys : List String}
    {key : String}
    {found others : List Finding}
    (hFound : IsTidyUnder place keys found)
    (hOthers : IsTidy (place.key key) others)
    (hFresh : key ∉ keys) :
    IsTidyUnder place (key :: keys) (found ++ others) where
  below := by
    rw [List.forall_mem_append]
    constructor
    · intro f hMem
      rcases hFound.below f hMem with ⟨known, hKnown, hBelow⟩
      exact ⟨known, List.mem_cons_of_mem key hKnown, hBelow⟩
    · exact fun f hMem =>
        ⟨key, List.mem_cons_self, hOthers.below f hMem⟩
  own := by
    refine (hFound.tidy.append hOthers.of_key ?_).own
    intro f hMem g hOther hSame
    rcases hFound.below f hMem with ⟨known, hKnown, hBelow⟩
    have hStep := eq_of_prefix_append hBelow
      (hSame ▸ hOthers.below g hOther)
    cases hStep
    exact hFresh hKnown

end Rules

end Federation
