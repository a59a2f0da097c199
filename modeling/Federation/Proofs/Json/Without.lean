import Federation.Json.Basic
import Federation.Proofs.Table

/-
  Values with something left out or changed in them: objects
  without the member of a key, tables in which the value of a
  key is changed, and arrays all of whose items are.

  Main declarations:
    * `Table.modify`
    * `Table.modify_ofList`
    * `Json.without`
    * `Json.without_ofMembers`
    * `Json.mapItems`
-/

namespace Federation

namespace Table

variable {κ α : Type} [DecidableEq κ]

/- A table with something done to the value of a key. -/
def modify
    (key : κ)
    (f : α → α)
    (table : Table κ α) : Table κ α :=
  table.map fun (k, v) => (k, if k = key then f v else v)

theorem modify_cons
    (key k : κ)
    (f : α → α)
    (v : α)
    (rest : Table κ α) :
    modify key f ((k, v) :: rest) =
      (k, if k = key then f v else v) :: modify key f rest :=
  rfl

variable [LT κ] [DecidableLT κ]

/- Values are changed alike before and after they are put in. -/
theorem modify_insert
    (key k : κ)
    (f : α → α)
    (v : α)
    (table : Table κ α) :
    modify key f (insert k v table) =
      insert k (if k = key then f v else v)
        (modify key f table) := by
  induction table with
  | nil => rfl
  | cons entry rest ih =>
      rcases entry with ⟨first, value⟩
      rw [insert, modify_cons, insert]
      split
      · rfl
      · split
        · rfl
        · rw [modify_cons, ih]

/- A table is changed by changing the list that it is made of. -/
theorem modify_ofList
    (key : κ)
    (f : α → α)
    (list : List (κ × α)) :
    modify key f (ofList list) = ofList (modify key f list) := by
  have hFold : ∀ table : Table κ α,
      modify key f (list.foldl
          (fun table entry => insert entry.1 entry.2 table)
          table) =
        (modify key f list).foldl
          (fun table entry => insert entry.1 entry.2 table)
          (modify key f table) := by
    induction list with
    | nil => exact fun _ => rfl
    | cons entry rest ih =>
        intro table
        rcases entry with ⟨k, v⟩
        rw [List.foldl_cons, ih, modify_insert, modify_cons,
          List.foldl_cons]
  exact hFold []

/- A key that has been put in anew can be taken out again. -/
theorem erase_insert
    {key : κ}
    (value : α)
    {table : Table κ α}
    (hNew : key ∉ table.map Prod.fst) :
    erase key (insert key value table) = table := by
  have hKept : ∀ {rest : Table κ α},
      key ∉ rest.map Prod.fst → erase key rest = rest := by
    intro rest hMissing
    apply List.filter_eq_self.mpr
    intro entry hMem
    have hOther : entry.1 ≠ key := fun hKey =>
      hMissing (List.mem_map.mpr ⟨entry, hMem, hKey⟩)
    simpa using hOther
  have hOut : ∀ rest : Table κ α,
      erase key ((key, value) :: rest) = erase key rest :=
    fun rest => List.filter_cons_of_neg (by simp)
  induction table with
  | nil => exact hOut []
  | cons entry rest ih =>
      rcases entry with ⟨k, v⟩
      have hKeys := hNew
      rw [List.map_cons, List.mem_cons, not_or] at hKeys
      rw [insert]
      split
      · rw [hOut, hKept hNew]
      · rw [if_neg hKeys.1, erase,
          List.filter_cons_of_pos (by simpa using Ne.symm hKeys.1)]
        exact congrArg _ (ih hKeys.2)

end Table

namespace Json

/- A value without the member of a key. -/
def without (key : String) : Json → Json
| .object members => .object (Table.erase key members)
| value => value

/- An array with something done to each of its items. -/
def mapItems (f : Json → Json) : Json → Json
| .array items => .array (items.map f)
| value => value

/- The last of the parts can be left out again. -/
theorem without_ofMembers
    {key : String}
    (value : Json)
    {parts : List (String × Json)}
    (hNew : key ∉ parts.map Prod.fst) :
    (ofMembers (parts ++ [(key, value)])).without key =
      ofMembers parts := by
  have hMissing :
      key ∉ (Table.ofList parts).map Prod.fst := by
    intro hMem
    rcases List.mem_map.mp hMem with ⟨entry, hEntry, rfl⟩
    exact hNew (List.mem_map_of_mem
      (Table.mem_of_mem_ofList hEntry))
  have hLast : Table.ofList (parts ++ [(key, value)]) =
      Table.insert key value (Table.ofList parts) := by
    rw [Table.ofList, List.foldl_append]
    rfl
  rw [ofMembers, hLast, without, Table.erase_insert value hMissing,
    ofMembers]

end Json

end Federation
