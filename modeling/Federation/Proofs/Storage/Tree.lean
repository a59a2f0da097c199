import Federation.Proofs.Table
import Federation.Storage.Tree

/-
  Changes below a directory: what is changed below it changes
  its entries alone, and every other directory stays one.

  Main declarations:
    * `Tree.HasDirectory`
    * `Tree.find_append`
    * `Tree.alter_below`
    * `Tree.createAll_of_directory`
    * `Tree.find_of_createAll`
    * `Tree.hasDirectory_of_createAll`
-/

namespace Federation

namespace Tree

------------------------------------------------------------
-- Finding
------------------------------------------------------------

/- There is a directory at names. -/
def HasDirectory
    (names : List String)
    (tree : Tree) : Prop :=
  ∃ entries, tree.find names = .ok (.directory entries)

@[simp] theorem find_nil (tree : Tree) :
    find [] tree = .ok (.directory tree) :=
  rfl

theorem find_cons_directory
    {name : String}
    {tree entries : Tree}
    (rest : List String)
    (hEntry : tree.get? name = some (.directory entries)) :
    find (name :: rest) tree = find rest entries := by
  rw [find, descend, hEntry]
  rfl

theorem get?_of_find_cons
    {name : String}
    {rest : List String}
    {tree entries : Tree}
    (hFound : find (name :: rest) tree =
      .ok (.directory entries)) :
    ∃ inner, tree.get? name = some (.directory inner) ∧
      find rest inner = .ok (.directory entries) := by
  rw [find, descend] at hFound
  cases hEntry : tree.get? name with
  | none => simp [hEntry] at hFound
  | some node =>
      simp only [hEntry] at hFound
      cases node with
      | directory inner => exact ⟨inner, rfl, hFound⟩
      | file content =>
          cases rest <;> simp [descend] at hFound

/- What is below a directory is found in its entries. -/
theorem find_append
    {place rest : List String}
    {tree entries : Tree}
    (hPlace : tree.find place = .ok (.directory entries)) :
    find (place ++ rest) tree = find rest entries := by
  induction place generalizing tree with
  | nil =>
      rw [find_nil] at hPlace
      cases hPlace
      rfl
  | cons name place ih =>
      rcases get?_of_find_cons hPlace with
        ⟨inner, hEntry, hInner⟩
      rw [List.cons_append, find_cons_directory _ hEntry,
        ih hInner]

theorem find_single
    (name : String)
    (tree : Tree) :
    find [name] tree =
      match tree.get? name with
      | none => .error .notFound
      | some node => .ok node := by
  rw [find, descend]
  cases tree.get? name with
  | none => rfl
  | some node => cases node <;> rfl

/- Below a place that is not found nothing is found. -/
theorem find_append_of_error
    {place : List String}
    {tree : Tree}
    {fault : StorageFault}
    (rest : List String)
    (hPlace : tree.find place = .error fault) :
    find (place ++ rest) tree = .error fault := by
  induction place generalizing tree with
  | nil => cases hPlace
  | cons name place ih =>
      rw [List.cons_append, find, descend]
      rw [find, descend] at hPlace
      cases hEntry : tree.get? name with
      | none => simpa [hEntry] using hPlace
      | some node =>
          simp only [hEntry] at hPlace ⊢
          cases node with
          | directory inner => exact ih hPlace
          | file content =>
              cases place with
              | nil => cases hPlace
              | cons next place => exact hPlace

/- What is found in an entry is found in a directory. -/
theorem get?_of_find_pair
    {name next : String}
    {tree : Tree}
    {node : Node}
    (hFound : find [name, next] tree = .ok node) :
    ∃ inner, tree.get? name = some (.directory inner) := by
  rw [find, descend] at hFound
  cases hEntry : tree.get? name with
  | none => simp [hEntry] at hFound
  | some entry =>
      cases entry with
      | directory inner => exact ⟨inner, rfl⟩
      | file content => simp [hEntry, descend] at hFound

------------------------------------------------------------
-- Changing
------------------------------------------------------------

theorem alter_cons
    {change : Option Node → Except StorageFault (Option Node)}
    {name : String}
    {rest : List String}
    {tree entries : Tree}
    (hEntry : tree.get? name = some (.directory entries))
    (hRest : rest ≠ []) :
    alter change (name :: rest) tree =
      (alter change rest entries).map fun entries =>
        tree.insert name (.directory entries) := by
  cases rest with
  | nil => exact absurd rfl hRest
  | cons next rest =>
      rw [alter, hEntry]
      dsimp only
      cases alter change (next :: rest) entries <;> rfl

/- The places that are not below another place. -/
def IsOutside (place names : List String) : Prop :=
  ∀ first rest, names ≠ place ++ first :: rest

/- A directory may change its entries and is still there. -/
theorem HasDirectory.insert
    {name : String}
    {names : List String}
    {tree inner inner' : Tree}
    (hDirectory : tree.HasDirectory names)
    (hEntry : tree.get? name = some (.directory inner))
    (hKept : ∀ below, names = name :: below →
      inner.HasDirectory below → inner'.HasDirectory below) :
    HasDirectory names
      (tree.insert name (.directory inner')) := by
  cases names with
  | nil => exact ⟨_, rfl⟩
  | cons other names =>
      rcases hDirectory with ⟨e, hOther⟩
      rcases get?_of_find_cons hOther with
        ⟨branch, hBranch, hRest⟩
      by_cases hSame : other = name
      · subst hSame
        rw [hEntry] at hBranch
        cases hBranch
        rcases hKept names rfl ⟨e, hRest⟩ with ⟨e', hStill⟩
        refine ⟨e', ?_⟩
        rw [find_cons_directory names
          (Table.get?_insert_self _ _ _), hStill]
      · have hBranch' :=
          (Table.get?_insert_of_ne (.directory inner')
            tree hSame).trans hBranch
        exact ⟨e, (find_cons_directory names
          hBranch').trans hRest⟩

/-
  A change below a directory is a change of its entries, and
  no directory that is not below it is lost.
-/
theorem alter_below
    {change : Option Node → Except StorageFault (Option Node)}
    {place : List String}
    {first : String}
    {rest : List String}
    {tree entries changed : Tree}
    (hPlace : tree.find place = .ok (.directory entries))
    (hChange : alter change (first :: rest) entries =
      .ok changed) :
    ∃ tree', alter change (place ++ first :: rest) tree =
        .ok tree' ∧
      tree'.find place = .ok (.directory changed) ∧
      ∀ names, IsOutside place names →
        tree.HasDirectory names → tree'.HasDirectory names := by
  induction place generalizing tree with
  | nil =>
      rw [find_nil] at hPlace
      cases hPlace
      refine ⟨changed, hChange, rfl, ?_⟩
      intro names hOutside _
      cases names with
      | nil => exact ⟨changed, rfl⟩
      | cons name names => exact absurd rfl (hOutside name names)
  | cons name place ih =>
      rcases get?_of_find_cons hPlace with
        ⟨inner, hEntry, hInner⟩
      rcases ih hInner with ⟨inner', hAlter, hFound, hKept⟩
      refine ⟨tree.insert name (.directory inner'), ?_, ?_, ?_⟩
      · rw [List.cons_append, alter_cons hEntry (by simp),
          hAlter]
        rfl
      · rw [find_cons_directory place
          (Table.get?_insert_self _ _ _), hFound]
      · intro names hOutside hDirectory
        apply hDirectory.insert hEntry
        intro below hNames hBelow
        refine hKept below (fun f r hEq => ?_) hBelow
        exact hOutside f r (by rw [hNames, hEq]; rfl)

/- A change of an entry that leaves something there. -/
theorem alter_single
    {change : Option Node → Except StorageFault (Option Node)}
    {name : String}
    {node : Node}
    {tree : Tree}
    (hChange : change (tree.get? name) = .ok (some node)) :
    alter change [name] tree = .ok (tree.insert name node) := by
  rw [alter, hChange]
  rfl

/- A change of an entry that leaves nothing there. -/
theorem alter_single_none
    {change : Option Node → Except StorageFault (Option Node)}
    {name : String}
    {tree : Tree}
    (hChange : change (tree.get? name) = .ok none) :
    alter change [name] tree = .ok (tree.erase name) := by
  rw [alter, hChange]
  rfl

------------------------------------------------------------
-- Renaming
------------------------------------------------------------

theorem not_isPrefixOf_sibling
    {place : List String}
    {old new : String}
    (hOther : old ≠ new) :
    (place ++ [old]).isPrefixOf (place ++ [new]) = false := by
  rw [Bool.eq_false_iff, ne_eq, List.isPrefixOf_iff_prefix]
  intro hPrefix
  have hSame := hPrefix.eq_of_length (by simp)
  exact hOther (by simpa using hSame)

/- Entries in which a node has another name. -/
def moved
    (old new : String)
    (node : Node)
    (entries : Tree) : Tree :=
  (entries.insert new node).erase old

section Moved

variable {old new : String}
variable {node : Node}
variable {entries : Tree}

theorem get?_moved_new
    (hOther : old ≠ new) :
    Table.get? new (moved old new node entries) =
      some node := by
  rw [moved, Table.get?_erase_of_ne _ hOther.symm,
    Table.get?_insert_self]

theorem get?_moved_old :
    Table.get? old (moved old new node entries) = none :=
  Table.get?_erase_self _ _

theorem get?_moved_of_ne
    {name : String}
    (hOld : name ≠ old)
    (hNew : name ≠ new) :
    Table.get? name (moved old new node entries) =
      entries.get? name := by
  rw [moved, Table.get?_erase_of_ne _ hOld,
    Table.get?_insert_of_ne _ _ hNew]

theorem get?_moved (name : String) :
    Table.get? name (moved old new node entries) =
      if name = old then none
      else if name = new then some node
      else entries.get? name := by
  rw [moved, Table.get?_erase, Table.get?_insert]

end Moved

/- An entry of a directory takes the place of another one. -/
theorem rename_below
    {place : List String}
    {old new : String}
    {node : Node}
    {tree entries : Tree}
    (hPlace : tree.find place = .ok (.directory entries))
    (hOther : old ≠ new)
    (hOld : entries.get? old = some node)
    (hNew : replace node (entries.get? new) =
      .ok (some node)) :
    ∃ tree', rename (place ++ [old]) (place ++ [new]) tree =
        .ok tree' ∧
      tree'.find place =
        .ok (.directory (moved old new node entries)) ∧
      ∀ names, IsOutside place names →
        tree.HasDirectory names → tree'.HasDirectory names := by
  have hFound : find (place ++ [old]) tree = .ok node := by
    rw [find_append hPlace, find_single, hOld]
  have hSame : place ++ [old] ≠ place ++ [new] := by
    simpa using hOther
  rcases alter_below hPlace (alter_single hNew) with
    ⟨middle, hMiddle, hMiddlePlace, hMiddleKept⟩
  have hErase : alter (fun _ => .ok none) [old]
      (entries.insert new node) =
        .ok (moved old new node entries) :=
    alter_single_none rfl
  rcases alter_below hMiddlePlace hErase with
    ⟨tree', hLast, hLastPlace, hLastKept⟩
  refine ⟨tree', ?_, hLastPlace, ?_⟩
  · rw [rename, hFound]
    simp only [bind, Except.bind, hSame, if_false,
      not_isPrefixOf_sibling hOther, hMiddle]
    exact hLast
  · intro names hOutside hDirectory
    exact hLastKept names hOutside
      (hMiddleKept names hOutside hDirectory)

------------------------------------------------------------
-- Creating
------------------------------------------------------------

/- Directories that are there are left as they are. -/
theorem createAll_of_directory
    {place : List String}
    {tree entries : Tree}
    (hPlace : tree.find place = .ok (.directory entries)) :
    ∃ tree', createAll place tree = .ok tree' ∧
      tree'.find place = .ok (.directory entries) ∧
      ∀ names, tree.HasDirectory names →
        tree'.HasDirectory names := by
  induction place generalizing tree with
  | nil => exact ⟨tree, rfl, hPlace, fun _ hOld => hOld⟩
  | cons name place ih =>
      rcases get?_of_find_cons hPlace with
        ⟨inner, hEntry, hInner⟩
      rcases ih hInner with ⟨inner', hCreate, hFound, hKept⟩
      refine ⟨tree.insert name (.directory inner'), ?_, ?_, ?_⟩
      · rw [createAll, hEntry]
        dsimp only
        rw [hCreate]
        rfl
      · rw [find_cons_directory place
          (Table.get?_insert_self _ _ _), hFound]
      · intro names hDirectory
        exact hDirectory.insert hEntry
          fun below _ hBelow => hKept below hBelow

/- A directory is created in one that is there or is new. -/
theorem createAll_cons
    {name : String}
    {place : List String}
    {tree tree' : Tree}
    (hCreate : createAll (name :: place) tree = .ok tree') :
    ∃ inner inner',
      (tree.get? name = some (.directory inner) ∨
        tree.get? name = none ∧ inner = []) ∧
      createAll place inner = .ok inner' ∧
      tree' = tree.insert name (.directory inner') := by
  rw [createAll] at hCreate
  cases hEntry : tree.get? name with
  | none =>
      simp only [hEntry] at hCreate
      cases hInner : createAll place [] with
      | error fault =>
          rw [hInner] at hCreate
          cases hCreate
      | ok inner =>
          rw [hInner] at hCreate
          cases hCreate
          exact ⟨[], inner, Or.inr ⟨rfl, rfl⟩, hInner, rfl⟩
  | some node =>
      cases node with
      | file content => simp [hEntry] at hCreate
      | directory inner =>
          simp only [hEntry] at hCreate
          cases hInner : createAll place inner with
          | error fault =>
              rw [hInner] at hCreate
              cases hCreate
          | ok inner' =>
              rw [hInner] at hCreate
              cases hCreate
              exact ⟨inner, inner', Or.inl rfl, hInner, rfl⟩

/- What a place holds that may have to be created. -/
theorem find_of_createAll
    {place : List String}
    {tree tree' entries : Tree}
    (hCreate : createAll place tree = .ok tree')
    (hPlace : tree'.find place = .ok (.directory entries)) :
    tree.find place = .ok (.directory entries) ∨
      tree.find place = .error .notFound ∧ entries = [] := by
  induction place generalizing tree tree' with
  | nil =>
      cases hCreate
      exact Or.inl hPlace
  | cons name place ih =>
      rcases createAll_cons hCreate with
        ⟨inner, inner', hEntry, hInner, rfl⟩
      rw [find_cons_directory place
        (Table.get?_insert_self _ _ _)] at hPlace
      rcases hEntry with hThere | ⟨hMissing, rfl⟩
      · rw [find_cons_directory place hThere]
        exact ih hInner hPlace
      · have hNothing : find (name :: place) tree =
            .error .notFound := by
          rw [find, descend, hMissing]
        refine Or.inr ⟨hNothing, ?_⟩
        rcases ih hInner hPlace with hOld | ⟨-, hEmpty⟩
        · cases place with
          | nil =>
              cases hOld
              rfl
          | cons next place => cases hOld
        · exact hEmpty

/- Nothing but what is missing on the way is created. -/
theorem hasDirectory_of_createAll
    {place names : List String}
    {tree tree' : Tree}
    (hCreate : createAll place tree = .ok tree')
    (hAfter : tree'.HasDirectory names) :
    tree.HasDirectory names ∨
      tree.find names = .error .notFound ∧
        tree.find place = .error .notFound := by
  induction place generalizing tree tree' names with
  | nil =>
      cases hCreate
      exact Or.inl hAfter
  | cons name place ih =>
      rcases createAll_cons hCreate with
        ⟨inner, inner', hEntry, hInner, rfl⟩
      cases names with
      | nil => exact Or.inl ⟨tree, rfl⟩
      | cons other rest =>
          rcases hAfter with ⟨entries, hFound⟩
          by_cases hSame : other = name
          · subst hSame
            rw [find_cons_directory rest
              (Table.get?_insert_self _ _ _)] at hFound
            rcases hEntry with hThere | ⟨hMissing, rfl⟩
            · rw [HasDirectory, find_cons_directory rest hThere,
                find_cons_directory place hThere]
              exact ih hInner ⟨entries, hFound⟩
            · right
              simp [find, descend, hMissing]
          · refine Or.inl ⟨entries, ?_⟩
            rw [find, descend,
              Table.get?_insert_of_ne _ _ hSame] at hFound
            exact hFound

end Tree

end Federation
