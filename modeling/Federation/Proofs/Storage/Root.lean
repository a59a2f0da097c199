import Federation.Proofs.Storage.Program
import Federation.Proofs.Storage.Tree

/-
  Programs that work on the entries of one directory, the
  root. A program owns some names: it changes only what is
  there, and relies on others not to.

  Main declarations:
    * `Tree.HasRoot`, `Tree.CanHaveRoot`
    * `Tree.entriesAt`
    * `Program.rootFrame`
    * `Program.Tracks`
    * `Program.safely_create` and the other operations
-/

namespace Federation

------------------------------------------------------------
-- Paths
------------------------------------------------------------

/- A path leads by names from a root to something in it. -/
structure Path.IsBelow
    (path root : Path)
    (rest : List String) : Prop where
  form : path.form = .plain
  passed : path.passed = root.passed
  names : path.names = root.names ++ rest

theorem Path.isBelow_join
    (root : Path)
    (name : String) :
    (root.join name).IsBelow root [name] :=
  ⟨rfl, rfl, rfl⟩

theorem Path.isBelow_join_join
    (root : Path)
    (name file : String) :
    ((root.join name).join file).IsBelow root [name, file] :=
  ⟨rfl, rfl, by simp [join]⟩

------------------------------------------------------------
-- Roots
------------------------------------------------------------

namespace Tree

/-
  A root is a directory, and so are the places that its path
  leads back from, none of which is below the root.
-/
structure HasRoot (root : Path) (tree : Tree) : Prop where
  directory : tree.HasDirectory root.names
  passed : ∀ names ∈ root.passed, tree.HasDirectory names
  outside : ∀ names ∈ root.passed, IsOutside root.names names

/- What is in a root, which is nothing before it is created. -/
def entriesAt (root : Path) (tree : Tree) : Tree :=
  match tree.find root.names with
  | .ok (.directory entries) => entries
  | _ => []

/- A root that is there or can be created. -/
def CanHaveRoot (root : Path) (tree : Tree) : Prop :=
  ∃ tree', createAll root.names tree = .ok tree' ∧
    tree'.HasRoot root ∧
    tree'.entriesAt root = tree.entriesAt root

variable {root : Path}
variable {tree : Tree}

theorem entriesAt_eq
    {entries : Tree}
    (hFound : tree.find root.names = .ok (.directory entries)) :
    tree.entriesAt root = entries := by
  rw [entriesAt, hFound]

theorem HasRoot.find
    (hRoot : tree.HasRoot root) :
    tree.find root.names =
      .ok (.directory (tree.entriesAt root)) := by
  rcases hRoot.directory with ⟨entries, hFound⟩
  rw [hFound, entriesAt_eq hFound]

theorem HasRoot.canHaveRoot
    (hRoot : tree.HasRoot root) :
    tree.CanHaveRoot root := by
  rcases createAll_of_directory hRoot.find with
    ⟨tree', hCreate, hFound, hKept⟩
  refine ⟨tree', hCreate, ?_, entriesAt_eq hFound⟩
  exact ⟨⟨_, hFound⟩,
    fun names hMem => hKept names (hRoot.passed names hMem),
    hRoot.outside⟩

/- A change of the entries of a root leaves the root there. -/
theorem HasRoot.of_kept
    {tree' entries : Tree}
    (hRoot : tree.HasRoot root)
    (hFound : tree'.find root.names =
      .ok (.directory entries))
    (hKept : ∀ names, IsOutside root.names names →
      tree.HasDirectory names → tree'.HasDirectory names) :
    tree'.HasRoot root :=
  ⟨⟨entries, hFound⟩,
    fun names hMem =>
      hKept names (hRoot.outside names hMem)
        (hRoot.passed names hMem),
    hRoot.outside⟩

theorem directoryAt_isOk_iff
    {names : List String} :
    discard (World.directoryAt names tree) = .ok () ↔
      tree.HasDirectory names := by
  unfold World.directoryAt HasDirectory
  cases Tree.find names tree with
  | error fault =>
      constructor
      · intro hOk
        cases hOk
      · rintro ⟨_, hFound⟩
        cases hFound
  | ok node =>
      cases node with
      | file content =>
          constructor
          · intro hOk
            cases hOk
          · rintro ⟨_, hFound⟩
            cases hFound
      | directory entries =>
          constructor
          · intro _
            exact ⟨entries, rfl⟩
          · intro _
            rfl

/- Places are looked at one after the other. -/
theorem forM_directoryAt_eq_ok_iff
    {places : List (List String)} :
    (places.forM fun names =>
        discard (World.directoryAt names tree)) = .ok () ↔
      ∀ names ∈ places, tree.HasDirectory names := by
  induction places with
  | nil => simp [List.forM, pure, Except.pure]
  | cons names places ih =>
      rw [List.forall_mem_cons, ← directoryAt_isOk_iff,
        ← ih, List.forM]
      cases discard (World.directoryAt names tree) <;>
        simp [bind, Except.bind]

/- What is at a path below a root is found in its entries. -/
theorem HasRoot.node_eq
    {path : Path}
    {rest : List String}
    (hRoot : tree.HasRoot root)
    (hBelow : path.IsBelow root rest) :
    World.node path tree =
      Tree.find rest (tree.entriesAt root) := by
  have hAll := forM_directoryAt_eq_ok_iff.mpr hRoot.passed
  rw [World.node, hBelow.passed, hAll, hBelow.form,
    hBelow.names, find_append hRoot.find]
  rfl

/- A root that is not there is missing, with all it holds. -/
theorem CanHaveRoot.cases
    (hCanHave : tree.CanHaveRoot root) :
    tree.HasRoot root ∨
      tree.find root.names = .error .notFound ∧
        tree.entriesAt root = [] ∧
        ∀ names ∈ root.passed, tree.HasDirectory names ∨
          tree.find names = .error .notFound := by
  rcases hCanHave with ⟨tree', hCreate, hLater, -⟩
  have hPassed : ∀ names ∈ root.passed,
      tree.HasDirectory names ∨
        tree.find names = .error .notFound ∧
          tree.find root.names = .error .notFound :=
    fun names hMem => hasDirectory_of_createAll hCreate
      (hLater.passed names hMem)
  rcases find_of_createAll hCreate hLater.find with
    hThere | ⟨hMissing, -⟩
  · refine Or.inl ⟨⟨_, hThere⟩, fun names hMem => ?_,
      hLater.outside⟩
    rcases hPassed names hMem with hDirectory | ⟨-, hNone⟩
    · exact hDirectory
    · rw [hThere] at hNone
      cases hNone
  · refine Or.inr ⟨hMissing, ?_, fun names hMem =>
      (hPassed names hMem).imp id And.left⟩
    rw [entriesAt, hMissing]

/- Places that are directories or missing. -/
theorem forM_directoryAt_of_missing
    {places : List (List String)}
    (hPlaces : ∀ names ∈ places, tree.HasDirectory names ∨
      tree.find names = .error .notFound) :
    (places.forM fun names =>
        discard (World.directoryAt names tree)) = .ok () ∨
      (places.forM fun names =>
        discard (World.directoryAt names tree)) =
          .error .notFound := by
  induction places with
  | nil => exact Or.inl rfl
  | cons names places ih =>
      rw [List.forall_mem_cons] at hPlaces
      rw [List.forM]
      rcases hPlaces.1 with hDirectory | hMissing
      · rw [directoryAt_isOk_iff.mpr hDirectory]
        exact ih hPlaces.2
      · right
        rw [World.directoryAt, hMissing]
        rfl

/-
  What is at a path below a root is found in its entries, of
  which there are none before the root is there.
-/
theorem CanHaveRoot.node_eq
    {path : Path}
    {next : String}
    {rest : List String}
    (hCanHave : tree.CanHaveRoot root)
    (hBelow : path.IsBelow root (next :: rest)) :
    World.node path tree =
      Tree.find (next :: rest) (tree.entriesAt root) := by
  rcases hCanHave.cases with
    hRoot | ⟨hMissing, hEmpty, hPassed⟩
  · exact hRoot.node_eq hBelow
  · have hNothing : Tree.find (next :: rest) [] =
        .error .notFound := rfl
    rw [World.node, hBelow.passed, hBelow.form,
      hBelow.names, find_append_of_error _ hMissing, hEmpty,
      hNothing]
    rcases forM_directoryAt_of_missing hPassed with
      hAll | hNone
    · rw [hAll]
      rfl
    · rw [hNone]
      rfl

------------------------------------------------------------
-- Changes of Entries
------------------------------------------------------------

/- Two trees have the same at some names. -/
def AgreeOn
    (names : String → Prop)
    (a b : Tree) : Prop :=
  ∀ name, names name → a.get? name = b.get? name

/- A change of entries that depends on and concerns some names. -/
structure IsLocal
    (names : String → Prop)
    (change : Tree → Tree) : Prop where
  agree : ∀ {a b}, AgreeOn names a b →
    AgreeOn names (change a) (change b)
  others : ∀ a, AgreeOn (fun name => ¬names name) (change a) a

variable {names : String → Prop}

theorem isLocal_insert
    {name : String}
    (node : Node)
    (hName : names name) :
    IsLocal names (Table.insert name node) where
  agree hAgree other hOther := by
    by_cases hSame : other = name
    · rw [hSame, Table.get?_insert_self,
        Table.get?_insert_self]
    · rw [Table.get?_insert_of_ne _ _ hSame,
        Table.get?_insert_of_ne _ _ hSame,
        hAgree other hOther]
  others a other hOther := by
    have hNe : other ≠ name := fun hSame =>
      hOther (hSame ▸ hName)
    exact Table.get?_insert_of_ne _ _ hNe

theorem isLocal_erase
    {name : String}
    (hName : names name) :
    IsLocal names (fun tree => tree.erase name) where
  agree hAgree other hOther := by
    by_cases hSame : other = name
    · rw [hSame, Table.get?_erase_self, Table.get?_erase_self]
    · rw [Table.get?_erase_of_ne _ hSame,
        Table.get?_erase_of_ne _ hSame, hAgree other hOther]
  others a other hOther := by
    have hNe : other ≠ name := fun hSame =>
      hOther (hSame ▸ hName)
    exact Table.get?_erase_of_ne _ hNe

theorem IsLocal.comp
    {first second : Tree → Tree}
    (hSecond : IsLocal names second)
    (hFirst : IsLocal names first) :
    IsLocal names (fun tree => second (first tree)) where
  agree hAgree := hSecond.agree (hFirst.agree hAgree)
  others a name hName :=
    (hSecond.others _ name hName).trans
      (hFirst.others a name hName)

/- To set an entry to what it is changes nothing. -/
theorem agreeOn_insert_of_get?
    {name : String}
    {node : Node}
    {tree : Tree}
    (hThere : tree.get? name = some node) :
    AgreeOn names tree (tree.insert name node) := by
  intro other _
  by_cases hSame : other = name
  · rw [hSame, Table.get?_insert_self, hThere]
  · rw [Table.get?_insert_of_ne _ _ hSame]

/- Of two settings of an entry the later one counts. -/
theorem agreeOn_insert_insert
    (name : String)
    (first second : Node)
    (tree : Tree) :
    AgreeOn names
      (Table.insert name second (tree.insert name first))
      (tree.insert name second) := by
  intro other _
  by_cases hSame : other = name
  · rw [hSame, Table.get?_insert_self, Table.get?_insert_self]
  · rw [Table.get?_insert_of_ne _ _ hSame,
      Table.get?_insert_of_ne _ _ hSame,
      Table.get?_insert_of_ne _ _ hSame]

end Tree

namespace Program

open Federation.Tree
  (HasRoot CanHaveRoot entriesAt AgreeOn IsLocal)

------------------------------------------------------------
-- Frames
------------------------------------------------------------

/- A root is kept, and with it what is at some names. -/
structure KeepsRoot
    (root : Path)
    (names : String → Prop)
    (w w' : World) : Prop where
  canHave : w.tree.CanHaveRoot root → w'.tree.CanHaveRoot root
  has : w.tree.HasRoot root → w'.tree.HasRoot root
  agree : AgreeOn names (w'.tree.entriesAt root)
    (w.tree.entriesAt root)

variable {root : Path}
variable {names : String → Prop}

theorem KeepsRoot.refl (w : World) :
    KeepsRoot root names w w :=
  ⟨id, id, fun _ _ => rfl⟩

theorem KeepsRoot.trans
    {u v w : World}
    (hFirst : KeepsRoot root names u v)
    (hSecond : KeepsRoot root names v w) :
    KeepsRoot root names u w :=
  ⟨hSecond.canHave ∘ hFirst.canHave,
    hSecond.has ∘ hFirst.has,
    fun name hName => (hSecond.agree name hName).trans
      (hFirst.agree name hName)⟩

theorem KeepsRoot.mono
    {fewer : String → Prop}
    {w w' : World}
    (hKeeps : KeepsRoot root names w w')
    (hFewer : ∀ name, fewer name → names name) :
    KeepsRoot root fewer w w' :=
  ⟨hKeeps.canHave, hKeeps.has,
    fun name hName => hKeeps.agree name (hFewer name hName)⟩

theorem KeepsRoot.of_tree
    {w w' : World}
    (hTree : w'.tree = w.tree) :
    KeepsRoot root names w w' := by
  refine ⟨?_, ?_, ?_⟩
  · rw [hTree]
    exact id
  · rw [hTree]
    exact id
  · intro name _
    rw [hTree]

/-
  The frame of a program that owns names below a root: others
  leave these alone, and the program leaves the others alone.
-/
def rootFrame
    (root : Path)
    (names : String → Prop) : Frame where
  rely := KeepsRoot root names
  guarantee := KeepsRoot root fun name => ¬names name
  rely_refl := KeepsRoot.refl
  rely_trans := KeepsRoot.trans
  guarantee_refl := KeepsRoot.refl
  guarantee_trans := KeepsRoot.trans

------------------------------------------------------------
-- Tracked Entries
------------------------------------------------------------

/- The root can be there, with known entries at some names. -/
structure Awaits
    (root : Path)
    (names : String → Prop)
    (entries : Tree)
    (w : World) : Prop where
  canHave : w.tree.CanHaveRoot root
  agree : AgreeOn names (w.tree.entriesAt root) entries

/- The root is there, with known entries at some names. -/
structure Tracks
    (root : Path)
    (names : String → Prop)
    (entries : Tree)
    (w : World) : Prop where
  has : w.tree.HasRoot root
  agree : AgreeOn names (w.tree.entriesAt root) entries

variable {entries : Tree}
variable {w w' : World}

theorem Awaits.of_rely
    (hAwaits : Awaits root names entries w)
    (hRely : KeepsRoot root names w w') :
    Awaits root names entries w' :=
  ⟨hRely.canHave hAwaits.canHave,
    fun name hName => (hRely.agree name hName).trans
      (hAwaits.agree name hName)⟩

theorem Tracks.of_rely
    (hTracks : Tracks root names entries w)
    (hRely : KeepsRoot root names w w') :
    Tracks root names entries w' :=
  ⟨hRely.has hTracks.has,
    fun name hName => (hRely.agree name hName).trans
      (hTracks.agree name hName)⟩

theorem Tracks.congr
    {entries' : Tree}
    (hTracks : Tracks root names entries w)
    (hAgree : AgreeOn names entries entries') :
    Tracks root names entries' w :=
  ⟨hTracks.has, fun name hName =>
    (hTracks.agree name hName).trans (hAgree name hName)⟩

theorem Tracks.awaits
    (hTracks : Tracks root names entries w) :
    Awaits root names entries w :=
  ⟨hTracks.has.canHaveRoot, hTracks.agree⟩

/- A root with anything in it is there. -/
theorem Awaits.tracks
    {name : String}
    {node : Node}
    (hAwaits : Awaits root names entries w)
    (hName : names name)
    (hNode : entries.get? name = some node) :
    Tracks root names entries w := by
  refine ⟨?_, hAwaits.agree⟩
  rcases hAwaits.canHave.cases with hRoot | ⟨-, hEmpty, -⟩
  · exact hRoot
  · have hNone := hAwaits.agree name hName
    rw [hEmpty, hNode] at hNone
    cases hNone

variable {s : Surroundings}

/- What holds of a world whatever is done at other names. -/
def IsStable
    (root : Path)
    (names : String → Prop)
    (known : World → Prop) : Prop :=
  ∀ w w', KeepsRoot root names w w' → known w → known w'

theorem Awaits.isStable :
    IsStable root names (Awaits root names entries) :=
  fun _ _ hRely hAwaits => hAwaits.of_rely hRely

theorem Tracks.isStable :
    IsStable root names (Tracks root names entries) :=
  fun _ _ hRely hTracks => hTracks.of_rely hRely

variable {known : World → Prop}

/- An operation that is answered and leaves the tree alone. -/
theorem safely_look
    {operation : Operation}
    {answer : operation.Answer → Prop}
    (hStable : IsStable root names known)
    (hKnown : known w)
    (hLook : ∀ w, known w →
      answer (w.perform s operation).1 ∧
        (w.perform s operation).2.tree = w.tree) :
    (ask operation).Safely s (rootFrame root names) w
      fun a w => answer a ∧ known w := by
  intro v hRely
  have hHere := hStable w v hRely hKnown
  rcases hLook v hHere with ⟨hAnswer, hTree⟩
  have hKeeps : KeepsRoot root names v
      (v.perform s operation).2 :=
    KeepsRoot.of_tree hTree
  refine ⟨KeepsRoot.of_tree hTree, ?_⟩
  intro v' hLater
  exact ⟨hAnswer, hStable _ _ (hKeeps.trans hLater) hHere⟩

/- An operation that makes a local change of the entries. -/
theorem safely_change
    {operation : Operation}
    {answer : operation.Answer}
    (change : Tree → Tree)
    (hTracks : Tracks root names entries w)
    (hLocal : IsLocal names change)
    (hChange : ∀ w, Tracks root names entries w →
      (w.perform s operation).1 = answer ∧
        (w.perform s operation).2.tree.HasRoot root ∧
        (w.perform s operation).2.tree.entriesAt root =
          change (w.tree.entriesAt root)) :
    (ask operation).Safely s (rootFrame root names) w
      fun a w => a = answer ∧
        Tracks root names (change entries) w := by
  intro v hRely
  have hHere := hTracks.of_rely hRely
  rcases hChange v hHere with ⟨hAnswer, hRoot, hEntries⟩
  constructor
  · refine ⟨fun _ => hRoot.canHaveRoot, fun _ => hRoot, ?_⟩
    rw [hEntries]
    exact hLocal.others _
  · intro v' hLater
    have hThere : Tracks root names (change entries)
        (v.perform s operation).2 := by
      refine ⟨hRoot, ?_⟩
      rw [hEntries]
      exact hLocal.agree hHere.agree
    exact ⟨hAnswer, hThere.of_rely hLater⟩

------------------------------------------------------------
-- Operations
------------------------------------------------------------

theorem act_of_ok
    {change : Tree → Except StorageFault Tree}
    {tree' : Tree}
    (hFaultless : s.IsFaultless)
    (hChange : change w.tree = .ok tree') :
    w.act s change =
      (.ok (), { w.advance with tree := tree' }) := by
  rw [World.act, hFaultless w.steps]
  simp only [hChange]

/- A change below the root is a change of its entries. -/
theorem act_below
    {act : List String → Tree → Except StorageFault Tree}
    {change : Option Node → Except StorageFault (Option Node)}
    {first : String}
    {rest : List String}
    {changed : Tree}
    (hFaultless : s.IsFaultless)
    (hRoot : w.tree.HasRoot root)
    (hAct : ∀ place, act (place ++ first :: rest) =
      Tree.alter change (place ++ first :: rest))
    (hChange : act (first :: rest) (w.tree.entriesAt root) =
      .ok changed) :
    (w.act s (act (root.names ++ first :: rest))).1 =
        .ok () ∧
      (w.act s (act (root.names ++
        first :: rest))).2.tree.HasRoot root ∧
      (w.act s (act (root.names ++
        first :: rest))).2.tree.entriesAt root = changed := by
  have hEntries := hAct []
  rw [List.nil_append] at hEntries
  rw [hEntries] at hChange
  rcases Tree.alter_below hRoot.find hChange with
    ⟨tree', hAlter, hFound, hKept⟩
  rw [hAct, act_of_ok hFaultless hAlter]
  exact ⟨rfl, hRoot.of_kept hFound hKept,
    Tree.entriesAt_eq hFound⟩

/- The root is created unless it is there. -/
theorem safely_createAll
    (hFaultless : s.IsFaultless)
    (hAwaits : Awaits root names entries w) :
    (createAll root).Safely s (rootFrame root names) w
      fun a w => a = .ok () ∧
        Tracks root names entries w := by
  intro v hRely
  have hHere := hAwaits.of_rely hRely
  rcases hHere.canHave with ⟨tree', hCreate, hRoot, hEntries⟩
  have hStep : v.perform s (.createAll root) =
      (.ok (), { v.advance with tree := tree' }) :=
    act_of_ok hFaultless hCreate
  rw [hStep]
  constructor
  · refine ⟨fun _ => hRoot.canHaveRoot, fun _ => hRoot, ?_⟩
    intro name _
    rw [hEntries]
  · intro v' hLater
    have hThere : Tracks root names entries
        { v.advance with tree := tree' } := by
      refine ⟨hRoot, ?_⟩
      intro name hName
      exact (congrArg (Table.get? name) hEntries).trans
        (hHere.agree name hName)
    exact ⟨rfl, hThere.of_rely hLater⟩

variable {name : String}

theorem create_append
    (place : List String)
    (name : String) :
    Tree.create (place ++ [name]) =
      Tree.alter
        (fun
          | none => .ok (some (.directory []))
          | some _ => .error .alreadyExists)
        (place ++ [name]) := by
  cases place <;> rfl

theorem safely_create
    (hFaultless : s.IsFaultless)
    (hTracks : Tracks root names entries w)
    (hName : names name)
    (hFree : entries.get? name = none) :
    (create (root.join name)).Safely s
      (rootFrame root names) w
      fun a w => a = .ok () ∧
        Tracks root names
          (entries.insert name (.directory [])) w := by
  apply safely_change _ hTracks
    (Tree.isLocal_insert (.directory []) hName)
  intro v hHere
  have hMissing : (v.tree.entriesAt root).get? name = none :=
    (hHere.agree name hName).trans hFree
  apply act_below hFaultless hHere.has
    (fun place => create_append place name)
  rw [← List.nil_append [name], create_append]
  apply Tree.alter_single
  rw [hMissing]

/- A file is written where no directory is. -/
theorem safely_write
    {content : Bytes}
    (hFaultless : s.IsFaultless)
    (hTracks : Tracks root names entries w)
    (hName : names name)
    (hFile : ∀ inner,
      entries.get? name ≠ some (.directory inner)) :
    (write (root.join name) content).Safely s
      (rootFrame root names) w
      fun a w => a = .ok () ∧
        Tracks root names
          (entries.insert name (.file content)) w := by
  apply safely_change _ hTracks
    (Tree.isLocal_insert (.file content) hName)
  intro v hHere
  apply act_below hFaultless hHere.has (fun _ => rfl)
  apply Tree.alter_single
  rw [hHere.agree name hName]
  cases hNode : entries.get? name with
  | none => rfl
  | some node =>
      cases node with
      | file old => rfl
      | directory inner => exact absurd hNode (hFile inner)

/- A file is written into a directory of the root. -/
theorem safely_write_in
    {file : String}
    {content : Bytes}
    {inner : Tree}
    (hFaultless : s.IsFaultless)
    (hTracks : Tracks root names entries w)
    (hName : names name)
    (hDirectory : entries.get? name =
      some (.directory inner))
    (hFree : inner.get? file = none) :
    (write ((root.join name).join file) content).Safely s
      (rootFrame root names) w
      fun a w => a = .ok () ∧
        Tracks root names
          (entries.insert name
            (.directory (inner.insert file (.file content))))
          w := by
  apply safely_change _ hTracks
    (Tree.isLocal_insert _ hName)
  intro v hHere
  have hThere : (v.tree.entriesAt root).get? name =
      some (.directory inner) :=
    (hHere.agree name hName).trans hDirectory
  have hNames :=
    (Path.isBelow_join_join root name file).names
  have hWrite : Tree.write [name, file] content
      (v.tree.entriesAt root) =
        .ok ((v.tree.entriesAt root).insert name
          (.directory (inner.insert file (.file content)))) := by
    have hFile : Tree.write [file] content inner =
        .ok (inner.insert file (.file content)) := by
      apply Tree.alter_single
      rw [hFree]
    rw [Tree.write] at hFile ⊢
    rw [Tree.alter_cons hThere (by simp), hFile]
    rfl
  have hAct := act_below hFaultless hHere.has
    (fun place => rfl) hWrite
  rw [← hNames] at hAct
  exact hAct

/- An entry takes the place of another one. -/
theorem safely_rename
    {old new : String}
    {node : Node}
    (hFaultless : s.IsFaultless)
    (hTracks : Tracks root names entries w)
    (hOldName : names old)
    (hNewName : names new)
    (hOther : old ≠ new)
    (hOld : entries.get? old = some node)
    (hNew : Tree.replace node (entries.get? new) =
      .ok (some node)) :
    (rename (root.join old) (root.join new)).Safely s
      (rootFrame root names) w
      fun a w => a = .ok () ∧
        Tracks root names
          (Tree.moved old new node entries) w := by
  have hLocal : IsLocal names (Tree.moved old new node) :=
    (Tree.isLocal_erase hOldName).comp
      (Tree.isLocal_insert node hNewName)
  apply safely_change _ hTracks hLocal
  intro v hHere
  rcases Tree.rename_below hHere.has.find hOther
      ((hHere.agree old hOldName).trans hOld)
      (by rw [hHere.agree new hNewName, hNew]) with
    ⟨tree', hRename, hFound, hKept⟩
  have hStep :
      v.perform s (.rename (root.join old) (root.join new)) =
        (.ok (), { v.advance with tree := tree' }) :=
    act_of_ok hFaultless hRename
  rw [hStep]
  exact ⟨rfl, hHere.has.of_kept hFound hKept,
    Tree.entriesAt_eq hFound⟩

/- A directory of the root is removed. -/
theorem safely_removeAll
    {inner : Tree}
    (hFaultless : s.IsFaultless)
    (hTracks : Tracks root names entries w)
    (hName : names name)
    (hDirectory : entries.get? name =
      some (.directory inner)) :
    (removeAll (root.join name)).Safely s
      (rootFrame root names) w
      fun a w => a = .ok () ∧
        Tracks root names (entries.erase name) w := by
  apply safely_change _ hTracks (Tree.isLocal_erase hName)
  intro v hHere
  have hThere : (v.tree.entriesAt root).get? name =
      some (.directory inner) :=
    (hHere.agree name hName).trans hDirectory
  apply act_below hFaultless hHere.has (fun _ => rfl)
  apply Tree.alter_single_none
  rw [hThere]

theorem safely_isPresent
    (hTracks : Tracks root names entries w)
    (hName : names name) :
    (isPresent (root.join name)).Safely s
      (rootFrame root names) w
      fun a w => a = (entries.get? name).isSome ∧
        Tracks root names entries w := by
  refine safely_look Tracks.isStable hTracks
    fun v hHere => ⟨?_, rfl⟩
  have hNode :=
    hHere.has.node_eq (Path.isBelow_join root name)
  change (World.node (root.join name) v.tree).isOk = _
  rw [hNode, Tree.find_single, hHere.agree name hName]
  cases entries.get? name <;> rfl

/- There is a file in a directory among some entries. -/
def HoldsFile
    (entries : Tree)
    (name file : String) : Prop :=
  ∃ content,
    Tree.find [name, file] entries = .ok (.file content)

/- Only what a directory of the root holds is found. -/
theorem isFile_iff
    {file : String}
    (hAwaits : Awaits root names entries w)
    (hName : names name) :
    (w.perform s
        (.isFile ((root.join name).join file))).1 = true ↔
      HoldsFile entries name file := by
  have hNode := hAwaits.canHave.node_eq
    (Path.isBelow_join_join root name file)
  rw [Tree.find, Tree.descend, hAwaits.agree name hName] at hNode
  rw [HoldsFile, Tree.find, Tree.descend, ← hNode,
    World.perform]
  cases World.node ((root.join name).join file) w.tree with
  | error fault => simp
  | ok node =>
      cases node with
      | file content =>
          exact ⟨fun _ => ⟨content, rfl⟩, fun _ => rfl⟩
      | directory inner => simp

theorem HoldsFile.tracks
    {file : String}
    (hFile : HoldsFile entries name file)
    (hAwaits : Awaits root names entries w)
    (hName : names name) :
    Tracks root names entries w := by
  rcases hFile with ⟨content, hFound⟩
  rcases Tree.get?_of_find_pair hFound with
    ⟨inner, hDirectory⟩
  exact hAwaits.tracks hName hDirectory

theorem safely_isFile
    {file : String}
    (hAwaits : Awaits root names entries w)
    (hName : names name) :
    (isFile ((root.join name).join file)).Safely s
      (rootFrame root names) w
      fun a w => (a = true ↔ HoldsFile entries name file) ∧
        Awaits root names entries w :=
  safely_look Awaits.isStable hAwaits fun _ hHere =>
    ⟨isFile_iff hHere hName, rfl⟩

/- What is told of every instant is told of the present one. -/
theorem safely_now
    {told : Instant → Prop}
    (hTold : ∀ step, told (s.instant step))
    (hStable : IsStable root names known)
    (hKnown : known w) :
    now.Safely s (rootFrame root names) w
      fun t w => told t ∧ known w :=
  safely_look hStable hKnown
    fun v _ => ⟨hTold v.steps, rfl⟩

theorem safely_freshName
    (hStable : IsStable root names known)
    (hKnown : known w) :
    freshName.Safely s (rootFrame root names) w
      fun fresh w =>
        (∃ step, fresh = s.name step) ∧ known w :=
  safely_look hStable hKnown
    fun v _ => ⟨⟨v.steps, rfl⟩, rfl⟩

theorem safely_isCancelled
    (hStable : IsStable root names known)
    (hKnown : known w) :
    isCancelled.Safely s (rootFrame root names) w
      fun a w =>
        (∃ check, a = s.isCancelled check) ∧ known w :=
  safely_look hStable hKnown
    fun v _ => ⟨⟨v.checks, rfl⟩, rfl⟩

end Program

end Federation
