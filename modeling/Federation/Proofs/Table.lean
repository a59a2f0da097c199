import Federation.Table

/-
  Laws of tables: what setting and erasing keys does to the
  values that are found, and how the table of a list relates
  to the list.

  Main declarations:
    * `Table.IsOrdered`
    * `Table.get?_insert_self`, `Table.get?_insert_of_ne`
    * `Table.ofList_perm`
    * `Table.ofList_eq_iff`
    * `Table.ofList_eq_self`
    * `Table.lookup_perm`
-/

namespace Federation

namespace Table

variable {κ α : Type}

------------------------------------------------------------
-- Looking Up
------------------------------------------------------------

section Lookup

variable [DecidableEq κ]

theorem get?_eq_lookup
    (key : κ)
    (table : Table κ α) :
    get? key table = table.lookup key := by
  induction table with
  | nil => rfl
  | cons entry rest ih =>
      rcases entry with ⟨k, v⟩
      by_cases hKey : key = k
      · simp [get?, hKey]
      · have hBeq : (key == k) = false := by
          simpa using hKey
        simp [get?, List.lookup_cons, hKey, hBeq, ih]

@[simp] theorem get?_insert_self
    [LT κ] [DecidableLT κ]
    (key : κ)
    (value : α)
    (table : Table κ α) :
    get? key (insert key value table) = some value := by
  induction table with
  | nil => simp [insert, get?]
  | cons entry rest ih =>
      rcases entry with ⟨k, v⟩
      unfold insert
      split
      · simp [get?]
      · split
        · simp [get?]
        · rename_i hKey
          simp [get?, hKey, ih]

theorem get?_insert_of_ne
    [LT κ] [DecidableLT κ]
    {key other : κ}
    (value : α)
    (table : Table κ α)
    (hOther : other ≠ key) :
    get? other (insert key value table) =
      get? other table := by
  induction table with
  | nil => simp [insert, get?, hOther]
  | cons entry rest ih =>
      rcases entry with ⟨k, v⟩
      unfold insert
      split
      · simp [get?, hOther]
      · split
        · rename_i hKey
          subst hKey
          simp [get?, hOther]
        · simp [get?, ih]

theorem get?_insert
    [LT κ] [DecidableLT κ]
    (key other : κ)
    (value : α)
    (table : Table κ α) :
    get? other (insert key value table) =
      if other = key then some value else get? other table := by
  split
  · rename_i hSame
    rw [hSame, get?_insert_self]
  · rename_i hOther
    exact get?_insert_of_ne value table hOther

@[simp] theorem get?_erase_self
    (key : κ)
    (table : Table κ α) :
    get? key (erase key table) = none := by
  induction table with
  | nil => rfl
  | cons entry rest ih =>
      rcases entry with ⟨k, v⟩
      by_cases hKey : k = key
      · simpa [erase, hKey] using ih
      · have hNe : key ≠ k := fun h => hKey h.symm
        simpa [erase, hKey, get?, hNe] using ih

theorem get?_erase_of_ne
    {key other : κ}
    (table : Table κ α)
    (hOther : other ≠ key) :
    get? other (erase key table) = get? other table := by
  induction table with
  | nil => rfl
  | cons entry rest ih =>
      rcases entry with ⟨k, v⟩
      by_cases hKey : k = key
      · subst hKey
        simpa [erase, get?, hOther] using ih
      · by_cases hOld : other = k
        · simp [erase, hKey, get?, hOld]
        · simpa [erase, hKey, get?, hOld] using ih

theorem get?_erase
    (key other : κ)
    (table : Table κ α) :
    get? other (erase key table) =
      if other = key then none else get? other table := by
  split
  · rename_i hSame
    rw [hSame, get?_erase_self]
  · rename_i hOther
    exact get?_erase_of_ne table hOther

end Lookup

/- A value is found in a list exactly if its key is. -/
theorem lookup_isNone_iff
    [BEq κ] [LawfulBEq κ]
    (key : κ)
    (list : List (κ × α)) :
    (list.lookup key).isNone = true ↔
      key ∉ list.map Prod.fst := by
  induction list with
  | nil => simp
  | cons entry rest ih =>
      rcases entry with ⟨k, v⟩
      by_cases hKey : key = k
      · simp [hKey]
      · have hBeq : (key == k) = false := by simpa using hKey
        simpa [List.lookup_cons, hKey, hBeq] using ih

/- An entry of a list without repeated keys is found. -/
theorem lookup_of_mem
    [BEq κ] [LawfulBEq κ]
    {list : List (κ × α)}
    {key : κ}
    {value : α}
    (hKeys : (list.map Prod.fst).Nodup)
    (hMem : (key, value) ∈ list) :
    list.lookup key = some value := by
  induction list with
  | nil => cases hMem
  | cons entry rest ih =>
      rcases entry with ⟨k, v⟩
      rw [List.map_cons, List.nodup_cons] at hKeys
      rcases List.mem_cons.mp hMem with hHere | hLater
      · cases hHere
        simp
      · have hNe : key ≠ k := by
          intro hEq
          subst hEq
          exact hKeys.1 (List.mem_map.mpr ⟨_, hLater, rfl⟩)
        have hBeq : (key == k) = false := by simpa using hNe
        simpa [List.lookup_cons, hBeq] using ih hKeys.2 hLater

theorem mem_of_lookup
    [BEq κ] [LawfulBEq κ]
    {list : List (κ × α)}
    {key : κ}
    {value : α}
    (hFound : list.lookup key = some value) :
    (key, value) ∈ list := by
  induction list with
  | nil => cases hFound
  | cons entry rest ih =>
      rcases entry with ⟨k, v⟩
      by_cases hKey : key = k
      · subst hKey
        have hValue : v = value := by
          simpa [List.lookup_cons] using hFound
        simp [hValue]
      · have hBeq : (key == k) = false := by simpa using hKey
        have hRest : rest.lookup key = some value := by
          simpa [List.lookup_cons, hBeq] using hFound
        exact List.mem_cons_of_mem _ (ih hRest)

/- The order of a list without repeated keys does not matter. -/
theorem lookup_perm
    [BEq κ] [LawfulBEq κ]
    {first second : List (κ × α)}
    (hPerm : first.Perm second)
    (hKeys : (first.map Prod.fst).Nodup)
    (key : κ) :
    first.lookup key = second.lookup key := by
  have hKeys' : (second.map Prod.fst).Nodup :=
    (hPerm.map Prod.fst).nodup_iff.mp hKeys
  cases hFound : second.lookup key with
  | some value =>
      exact lookup_of_mem hKeys
        (hPerm.mem_iff.mpr (mem_of_lookup hFound))
  | none =>
      have hMissing : key ∉ second.map Prod.fst :=
        (lookup_isNone_iff key second).mp (by simp [hFound])
      have hMissing' : key ∉ first.map Prod.fst := fun h =>
        hMissing ((hPerm.map Prod.fst).mem_iff.mp h)
      simpa using (lookup_isNone_iff key first).mpr hMissing'

/-
  Lists with one sequence of keys, each there once, hold the
  same entries only if they are the same.
-/
theorem eq_of_perm_of_keys
    {first second : List (κ × α)}
    (hSame : first.map Prod.fst = second.map Prod.fst)
    (hKeys : (first.map Prod.fst).Nodup)
    (hPerm : first.Perm second) :
    first = second := by
  induction first generalizing second with
  | nil => exact hPerm.nil_eq
  | cons a rest ih =>
      cases second with
      | nil => cases hSame
      | cons b rest' =>
          rw [List.map_cons, List.map_cons, List.cons.injEq]
            at hSame
          rw [List.map_cons, List.nodup_cons] at hKeys
          rcases List.mem_cons.mp
            (hPerm.mem_iff.mp List.mem_cons_self) with
            rfl | hLater
          · rw [ih hSame.2 hKeys.2 hPerm.cons_inv]
          · refine absurd ?_ hKeys.1
            rw [hSame.2]
            exact List.mem_map_of_mem hLater

------------------------------------------------------------
-- Tables of Lists
------------------------------------------------------------

section OfList

variable [LT κ] [DecidableLT κ] [DecidableEq κ]

theorem insert_perm
    {key : κ}
    (value : α)
    {table : Table κ α}
    (hNew : key ∉ table.map Prod.fst) :
    (insert key value table).Perm ((key, value) :: table) := by
  induction table with
  | nil => exact List.Perm.refl _
  | cons entry rest ih =>
      rcases entry with ⟨k, v⟩
      simp only [List.map_cons, List.mem_cons, not_or] at hNew
      unfold insert
      split
      · exact List.Perm.refl _
      · rw [if_neg hNew.1]
        exact ((ih hNew.2).cons (k, v)).trans
          (List.Perm.swap _ _ _)

/- The keys of a list that has no key twice make no losses. -/
theorem foldl_insert_perm
    (list : List (κ × α))
    (table : Table κ α)
    (hKeys : ((list ++ table).map Prod.fst).Nodup) :
    (list.foldl
      (fun table (key, value) => insert key value table)
      table).Perm (list ++ table) := by
  induction list generalizing table with
  | nil => exact List.Perm.refl _
  | cons entry rest ih =>
      rcases entry with ⟨k, v⟩
      rw [List.cons_append, List.map_cons,
        List.nodup_cons] at hKeys
      have hNew : k ∉ table.map Prod.fst := by
        intro hMem
        apply hKeys.1
        rw [List.map_append]
        exact List.mem_append_right _ hMem
      have hInsert := insert_perm v hNew
      have hMiddle :
          (rest ++ insert k v table).Perm
            ((k, v) :: (rest ++ table)) :=
        (hInsert.append_left rest).trans List.perm_middle
      refine (ih (insert k v table) ?_).trans hMiddle
      exact ((hMiddle.map Prod.fst).nodup_iff).mpr
        (List.nodup_cons.mpr hKeys)

theorem ofList_perm
    {list : List (κ × α)}
    (hKeys : (list.map Prod.fst).Nodup) :
    (ofList list).Perm list := by
  have hFold := foldl_insert_perm list []
    (by simpa using hKeys)
  simpa [ofList] using hFold

theorem lookup_ofList
    {list : List (κ × α)}
    (hKeys : (list.map Prod.fst).Nodup)
    (key : κ) :
    (ofList list).lookup key = list.lookup key :=
  (lookup_perm (ofList_perm hKeys).symm hKeys key).symm

/- Tables of the same keys are those of the same lists. -/
theorem ofList_eq_iff
    {first second : List (κ × α)}
    (hSame : first.map Prod.fst = second.map Prod.fst)
    (hKeys : (first.map Prod.fst).Nodup) :
    ofList first = ofList second ↔ first = second := by
  constructor
  · intro hTables
    have hFirst := ofList_perm hKeys
    have hSecond := ofList_perm (hSame ▸ hKeys)
    rw [hTables] at hFirst
    exact eq_of_perm_of_keys hSame hKeys
      (hFirst.symm.trans hSecond)
  · rintro rfl
    rfl

end OfList

------------------------------------------------------------
-- Order
------------------------------------------------------------

/- The keys of a list ascend, so that none is there twice. -/
def IsOrdered [LT κ] (list : List (κ × α)) : Prop :=
  list.Pairwise fun a b => a.1 < b.1

theorem isOrdered_of_keys
    [LT κ]
    {list : List (κ × α)}
    (hKeys : (list.map Prod.fst).Pairwise (· < ·)) :
    IsOrdered list :=
  List.pairwise_map.mp hKeys

theorem IsOrdered.nodup_keys
    [LE κ] [LT κ] [Std.IsLinearOrder κ] [Std.LawfulOrderLT κ]
    {list : List (κ × α)}
    (hOrdered : IsOrdered list) :
    (list.map Prod.fst).Nodup := by
  rw [List.nodup_iff_pairwise_ne, List.pairwise_map]
  refine List.Pairwise.imp ?_ hOrdered
  intro a b hLess hEq
  rw [hEq] at hLess
  exact Std.lt_irrefl hLess

/- Ordered lists of the same entries are the same. -/
theorem IsOrdered.eq_of_perm
    [LE κ] [LT κ] [Std.IsLinearOrder κ] [Std.LawfulOrderLT κ]
    {first second : List (κ × α)}
    (hFirst : IsOrdered first)
    (hSecond : IsOrdered second)
    (hPerm : first.Perm second) :
    first = second := by
  refine List.Perm.eq_of_pairwise ?_ hFirst hSecond hPerm
  intro a b _ _ hLess hGreater
  exact absurd (Std.lt_trans hLess hGreater) Std.lt_irrefl

section Insert

variable [LT κ] [DecidableLT κ] [DecidableEq κ]

theorem mem_of_mem_insert
    {key : κ}
    {value : α}
    {table : Table κ α}
    {entry : κ × α}
    (hMem : entry ∈ insert key value table) :
    entry = (key, value) ∨ entry ∈ table := by
  induction table with
  | nil => simpa [insert] using hMem
  | cons first rest ih =>
      rcases first with ⟨k, v⟩
      unfold insert at hMem
      split at hMem
      · simpa using hMem
      · split at hMem
        · rcases List.mem_cons.mp hMem with hHead | hTail
          · exact Or.inl hHead
          · exact Or.inr (List.mem_cons_of_mem _ hTail)
        · rcases List.mem_cons.mp hMem with hHead | hTail
          · simp [hHead]
          · rcases ih hTail with hSame | hOld
            · exact Or.inl hSame
            · exact Or.inr (List.mem_cons_of_mem _ hOld)

theorem mem_of_mem_ofList
    {list : List (κ × α)}
    {entry : κ × α}
    (hMem : entry ∈ ofList list) :
    entry ∈ list := by
  have hFold : ∀ table : Table κ α,
      entry ∈ list.foldl
        (fun table (key, value) => insert key value table)
        table →
      entry ∈ list ∨ entry ∈ table := by
    clear hMem
    induction list with
    | nil => exact fun _ hTable => Or.inr hTable
    | cons first rest ih =>
        intro table hTable
        rcases ih _ hTable with hRest | hInsert
        · exact Or.inl (List.mem_cons_of_mem _ hRest)
        · rcases mem_of_mem_insert hInsert with hNew | hOld
          · exact Or.inl (hNew ▸ List.mem_cons_self)
          · exact Or.inr hOld
  simpa using hFold [] hMem

variable [LE κ] [Std.IsLinearOrder κ] [Std.LawfulOrderLT κ]

theorem insert_isOrdered
    (key : κ)
    (value : α)
    {table : Table κ α}
    (hOrdered : IsOrdered table) :
    IsOrdered (insert key value table) := by
  induction table with
  | nil => simp [insert, IsOrdered]
  | cons entry rest ih =>
      rcases entry with ⟨k, v⟩
      rcases List.pairwise_cons.mp hOrdered with ⟨hHead, hTail⟩
      unfold insert
      split
      · rename_i hLess
        refine List.pairwise_cons.mpr ⟨?_, hOrdered⟩
        intro other hOther
        rcases List.mem_cons.mp hOther with rfl | hLater
        · exact hLess
        · exact Std.lt_trans hLess (hHead other hLater)
      · split
        · rename_i hKey
          subst hKey
          exact List.pairwise_cons.mpr ⟨hHead, hTail⟩
        · rename_i hNotLess hNe
          refine List.pairwise_cons.mpr ⟨?_, ih hTail⟩
          intro other hOther
          have hGreater : k < key :=
            Std.lt_of_le_of_ne
              (Std.not_lt.mp hNotLess) (Ne.symm hNe)
          rcases mem_of_mem_insert hOther with hSame | hOld
          · simpa [hSame] using hGreater
          · exact hHead other hOld

theorem ofList_isOrdered (list : List (κ × α)) :
    IsOrdered (ofList list) := by
  have hFold : ∀ table : Table κ α, IsOrdered table →
      IsOrdered (list.foldl
        (fun table (key, value) => insert key value table)
        table) := by
    induction list with
    | nil => exact fun _ hTable => hTable
    | cons entry rest ih =>
        exact fun table hTable =>
          ih _ (insert_isOrdered entry.1 entry.2 hTable)
  exact hFold [] List.Pairwise.nil

theorem ofList_eq_self
    {list : List (κ × α)}
    (hOrdered : IsOrdered list) :
    ofList list = list :=
  (ofList_isOrdered list).eq_of_perm hOrdered
    (ofList_perm hOrdered.nodup_keys)

end Insert

end Table

end Federation
