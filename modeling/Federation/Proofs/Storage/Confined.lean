import Federation.Proofs.Storage.Root

/-
  What a program does and ends in, whatever it is answered.
  A program that works below a root under some names changes
  no entry under another name, in any surroundings, whether
  its operations succeed or not.

  Main declarations:
    * `Program.Behaves`
    * `Program.behaves_interleave`
    * `Program.way`, `Program.worlds_bind`
    * `Operation.IsWithin`
    * `Operation.IsWithin.agreeOn`
    * `Program.Behaves.agreeOn_of_mem_worlds`
    * `Program.confinedFrame`, `Program.Behaves.safely`
    * `Operation.IsLook`, `Program.Behaves.tree_run`
-/

namespace Federation

namespace Program

variable {α β ι : Type}
variable {s : Surroundings}
variable {allowed : Operation → Prop}
variable {post : α → Prop}

------------------------------------------------------------
-- Behaviour
------------------------------------------------------------

/-
  Whatever it is answered, a program does only operations
  that are allowed, and ends in a condition.
-/
def Behaves
    (allowed : Operation → Prop)
    (post : α → Prop) : Program α → Prop
| .done a => post a
| .step operation next =>
    allowed operation ∧
      ∀ answer, (next answer).Behaves allowed post

namespace Behaves

theorem mono
    {p : Program α}
    {more : Operation → Prop}
    {weaker : α → Prop}
    (hBehaves : p.Behaves allowed post)
    (hMore : ∀ o, allowed o → more o)
    (hWeaker : ∀ a, post a → weaker a) :
    p.Behaves more weaker := by
  induction p with
  | done a => exact hWeaker a hBehaves
  | step operation next ih =>
      exact ⟨hMore _ hBehaves.1,
        fun answer => ih answer (hBehaves.2 answer)⟩

theorem bind
    {p : Program α}
    {f : α → Program β}
    {later : β → Prop}
    (hBehaves : p.Behaves allowed post)
    (hNext : ∀ a, post a → (f a).Behaves allowed later) :
    (p.bind f).Behaves allowed later := by
  induction p with
  | done a => exact hNext a hBehaves
  | step operation next ih =>
      exact ⟨hBehaves.1,
        fun answer => ih answer (hBehaves.2 answer)⟩

/- The value that a program ends in when it is run. -/
theorem run
    {p : Program α}
    (hBehaves : p.Behaves allowed post)
    (w : World) :
    post (p.run s w).1 := by
  induction p generalizing w with
  | done a => exact hBehaves
  | step operation next ih =>
      exact ih _ (hBehaves.2 _) _

end Behaves

theorem behaves_ask
    {operation : Operation}
    (hAllowed : allowed operation) :
    (ask operation).Behaves allowed fun _ => True :=
  ⟨hAllowed, fun _ => trivial⟩

/- Nothing is known of a program of which nothing is told. -/
theorem behaves_any (p : Program α) :
    p.Behaves (fun _ => True) fun _ => True := by
  induction p with
  | done a => trivial
  | step operation next ih => exact ⟨trivial, ih⟩

------------------------------------------------------------
-- Several Programs
------------------------------------------------------------

variable {posts : ι → α → Prop}
variable {ids : List ι}
variable {programs : List (Program α)}

/- Each of some programs behaves, and ends in its condition. -/
def AllBehave
    (allowed : Operation → Prop)
    (posts : ι → α → Prop)
    (ids : List ι)
    (programs : List (Program α)) : Prop :=
  List.Forall₂
    (fun i p => Behaves allowed (posts i) p) ids programs

theorem behaves_sequence
    (hAll : AllBehave allowed posts ids programs) :
    (sequence programs).Behaves allowed
      fun results => List.Forall₂ posts ids results := by
  unfold AllBehave at hAll
  induction hAll with
  | nil => exact .nil
  | cons hFirst _ ih =>
      apply hFirst.bind
      intro a hPost
      apply ih.bind
      intro rest hRest
      exact .cons hPost hRest

/- One of some related items may be exchanged for another. -/
theorem exists_related_of_getElem?
    {γ δ : Type}
    {related : γ → δ → Prop}
    {xs : List γ}
    {ys : List δ}
    {i : Nat}
    {y : δ}
    (hAll : List.Forall₂ related xs ys)
    (hItem : ys[i]? = some y) :
    ∃ x, xs[i]? = some x ∧ related x y ∧
      ∀ x' y', related x' y' →
        List.Forall₂ related (xs.set i x') (ys.set i y') := by
  induction hAll generalizing i with
  | nil => cases hItem
  | cons hFirst hRest ih =>
      cases i with
      | zero =>
          cases hItem
          exact ⟨_, rfl, hFirst, fun _ _ hOther =>
            .cons hOther hRest⟩
      | succ i =>
          rcases ih hItem with ⟨x, hThere, hRelated, hSet⟩
          exact ⟨x, hThere, hRelated, fun _ _ hOther =>
            .cons hFirst (hSet _ _ hOther)⟩

theorem set_eq_of_getElem?
    {γ : Type}
    {xs : List γ}
    {i : Nat}
    {x : γ}
    (hItem : xs[i]? = some x) :
    xs.set i x = xs := by
  rcases List.getElem?_eq_some_iff.mp hItem with ⟨hLess, rfl⟩
  exact List.set_getElem_self hLess

/- Programs behave side by side if each of them does. -/
theorem behaves_interleave
    (turns : List Nat)
    (hAll : AllBehave allowed posts ids programs) :
    (interleave turns programs).Behaves allowed
      fun results => List.Forall₂ posts ids results := by
  induction turns generalizing programs with
  | nil => exact behaves_sequence hAll
  | cons turn turns ih =>
      rw [interleave]
      cases hTurn : programs[turn]? with
      | none => exact ih hAll
      | some p =>
          cases p with
          | done a => exact ih hAll
          | step operation next =>
              rcases exists_related_of_getElem? hAll hTurn with
                ⟨i, hItem, ⟨hAllowed, hNext⟩, hSet⟩
              refine ⟨hAllowed, fun answer => ih ?_⟩
              have hOne := hSet i _ (hNext answer)
              rw [set_eq_of_getElem? hItem] at hOne
              exact hOne

------------------------------------------------------------
-- On the Way
------------------------------------------------------------

/- The worlds in which a program does its steps, in order. -/
def way
    (s : Surroundings) :
    Program α → World → List World
| .done _, _ => []
| .step operation next, w =>
    w ::
      (let (answer, w) := w.perform s operation
      (next answer).way s w)

theorem bind_assoc
    {γ : Type}
    (p : Program α)
    (f : α → Program β)
    (g : β → Program γ) :
    (p.bind f).bind g = p.bind fun a => (f a).bind g := by
  induction p with
  | done a => rfl
  | step operation next ih =>
      exact congrArg (step operation) (funext ih)

theorem worlds_eq_way
    (p : Program α)
    (w : World) :
    p.worlds s w = p.way s w ++ [(p.run s w).2] := by
  induction p generalizing w with
  | done a => rfl
  | step operation next ih =>
      exact congrArg (w :: ·) (ih _ _)

/- A program goes on in the world where the one before ends. -/
theorem worlds_bind
    (p : Program α)
    (f : α → Program β)
    (w : World) :
    (p.bind f).worlds s w =
      p.way s w ++
        (f (p.run s w).1).worlds s (p.run s w).2 := by
  induction p generalizing w with
  | done a => rfl
  | step operation next ih =>
      exact congrArg (w :: ·) (ih _ _)

theorem worlds_ne_nil
    (p : Program α)
    (w : World) :
    p.worlds s w ≠ [] := by
  rw [worlds_eq_way]
  exact List.append_ne_nil_of_right_ne_nil _
    (List.cons_ne_nil _ _)

theorem mem_worlds_of_mem_way
    {p : Program α}
    {w v : World}
    (hMem : v ∈ p.way s w) :
    v ∈ p.worlds s w := by
  rw [worlds_eq_way]
  exact List.mem_append_left _ hMem

end Program

------------------------------------------------------------
-- Entries below a Root
------------------------------------------------------------

namespace Tree

variable {change : Option Node → Except StorageFault (Option Node)}
variable {first : String}
variable {rest place : List String}
variable {tree tree' entries changed : Tree}

/- What is changed below an entry is in a directory. -/
theorem exists_of_alter_cons
    {name : String}
    (hRest : rest ≠ [])
    (hAlter : alter change (name :: rest) tree = .ok tree') :
    ∃ inner inner',
      tree.get? name = some (.directory inner) ∧
      alter change rest inner = .ok inner' ∧
      tree' = tree.insert name (.directory inner') := by
  cases rest with
  | nil => exact absurd rfl hRest
  | cons next rest =>
      rw [alter] at hAlter
      cases hEntry : tree.get? name with
      | none => simp [hEntry] at hAlter
      | some node =>
          cases node with
          | file content => simp [hEntry] at hAlter
          | directory inner =>
              simp only [hEntry] at hAlter
              cases hInner : alter change (next :: rest)
                  inner with
              | error fault =>
                  rw [hInner] at hAlter
                  cases hAlter
              | ok inner' =>
                  rw [hInner] at hAlter
                  cases hAlter
                  exact ⟨inner, inner', rfl, hInner, rfl⟩

/- A change concerns the first of its names only. -/
theorem get?_of_alter
    {name : String}
    (hAlter : alter change (first :: rest) entries =
      .ok changed)
    (hOther : name ≠ first) :
    changed.get? name = entries.get? name := by
  cases rest with
  | nil =>
      rw [alter] at hAlter
      cases hChange : change (entries.get? first) with
      | error fault =>
          rw [hChange] at hAlter
          cases hAlter
      | ok node =>
          rw [hChange] at hAlter
          cases node with
          | none =>
              cases hAlter
              exact Table.get?_erase_of_ne _ hOther
          | some node =>
              cases hAlter
              exact Table.get?_insert_of_ne _ _ hOther
  | cons next rest =>
      rcases exists_of_alter_cons (List.cons_ne_nil _ _)
        hAlter with ⟨inner, inner', -, -, rfl⟩
      exact Table.get?_insert_of_ne _ _ hOther

/- To be changed below, a place has to be a directory. -/
theorem find_of_alter
    (hAlter : alter change (place ++ first :: rest) tree =
      .ok tree') :
    ∃ entries changed,
      tree.find place = .ok (.directory entries) ∧
      tree'.find place = .ok (.directory changed) ∧
      alter change (first :: rest) entries = .ok changed := by
  induction place generalizing tree tree' with
  | nil => exact ⟨tree, tree', rfl, rfl, hAlter⟩
  | cons name place ih =>
      rcases exists_of_alter_cons (by simp) hAlter with
        ⟨inner, inner', hEntry, hInner, rfl⟩
      rcases ih hInner with
        ⟨entries, changed, hBefore, hAfter, hChange⟩
      refine ⟨entries, changed, ?_, ?_, hChange⟩
      · rw [find_cons_directory place hEntry, hBefore]
      · rw [find_cons_directory place
          (Table.get?_insert_self _ _ _), hAfter]

/- Directories that have been created are there. -/
theorem find_createAll
    (hCreate : createAll place tree = .ok tree') :
    ∃ entries, tree'.find place = .ok (.directory entries) := by
  induction place generalizing tree tree' with
  | nil => exact ⟨tree', rfl⟩
  | cons name place ih =>
      rcases createAll_cons hCreate with
        ⟨inner, inner', -, hInner, rfl⟩
      rcases ih hInner with ⟨entries, hFound⟩
      refine ⟨entries, ?_⟩
      rw [find_cons_directory place
        (Table.get?_insert_self _ _ _), hFound]

variable {root : Path}

theorem entriesAt_of_createAll
    (hCreate : createAll root.names tree = .ok tree') :
    tree'.entriesAt root = tree.entriesAt root := by
  rcases find_createAll hCreate with ⟨entries, hFound⟩
  rw [entriesAt_eq hFound]
  rcases find_of_createAll hCreate hFound with
    hThere | ⟨hMissing, hEmpty⟩
  · rw [entriesAt_eq hThere]
  · rw [entriesAt, hMissing, hEmpty]

/- A change below a root is one of the entry it is made in. -/
theorem agreeOn_of_alter
    {names : String → Prop}
    (hAlter : alter change (root.names ++ first :: rest)
      tree = .ok tree')
    (hFirst : ¬names first) :
    AgreeOn names (tree'.entriesAt root)
      (tree.entriesAt root) := by
  rcases find_of_alter hAlter with
    ⟨entries, changed, hBefore, hAfter, hChange⟩
  intro name hName
  rw [entriesAt_eq hAfter, entriesAt_eq hBefore]
  apply get?_of_alter hChange
  intro hSame
  exact hFirst (hSame ▸ hName)

/- To move an entry is to change those of both names. -/
theorem agreeOn_of_rename
    {names : String → Prop}
    {old new : String}
    (hRename : rename (root.names ++ [old])
      (root.names ++ [new]) tree = .ok tree')
    (hOld : ¬names old)
    (hNew : ¬names new) :
    AgreeOn names (tree'.entriesAt root)
      (tree.entriesAt root) := by
  rw [rename] at hRename
  cases hFound : find (root.names ++ [old]) tree with
  | error fault =>
      rw [hFound] at hRename
      cases hRename
  | ok node =>
      rw [hFound] at hRename
      simp only [bind, Except.bind] at hRename
      split at hRename
      · cases hRename
        exact fun _ _ => rfl
      · split at hRename
        · cases hRename
        · cases hMiddle : alter (replace node)
              (root.names ++ [new]) tree with
          | error fault =>
              rw [hMiddle] at hRename
              cases hRename
          | ok middle =>
              rw [hMiddle] at hRename
              intro name hName
              exact (agreeOn_of_alter hRename hOld name
                hName).trans
                (agreeOn_of_alter hMiddle hNew name hName)

end Tree

------------------------------------------------------------
-- Operations within Names
------------------------------------------------------------

/-
  The operations on a root and on what is in it under some
  names. They may look anywhere.
-/
inductive Operation.IsWithin
    (root : Path)
    (names : String → Prop) : Operation → Prop
| createAll :
    IsWithin root names (.createAll root)
| create
    {name : String}
    (hName : names name) :
    IsWithin root names (.create (root.join name))
| write
    {name : String}
    (file : String)
    (content : Bytes)
    (hName : names name) :
    IsWithin root names
      (.write ((root.join name).join file) content)
| rename
    {old new : String}
    (hOld : names old)
    (hNew : names new) :
    IsWithin root names
      (.rename (root.join old) (root.join new))
| removeAll
    {name : String}
    (hName : names name) :
    IsWithin root names (.removeAll (root.join name))
| isPresent (path : Path) :
    IsWithin root names (.isPresent path)
| now : IsWithin root names .now
| freshName : IsWithin root names .freshName

section Within

open Federation.Tree (entriesAt AgreeOn)

variable {s : Surroundings}
variable {root : Path}
variable {names : String → Prop}
variable {w : World}

/- Unless a change is made, the tree is as it was. -/
theorem World.tree_act
    (s : Surroundings)
    (w : World)
    (change : Tree → Except StorageFault Tree) :
    (w.act s change).2.tree = w.tree ∨
      change w.tree = .ok (w.act s change).2.tree := by
  unfold World.act
  split
  · exact Or.inl rfl
  · split
    · exact Or.inl rfl
    · rename_i hChange
      exact Or.inr hChange

theorem World.agreeOn_act
    {change : Tree → Except StorageFault Tree}
    (hChange : ∀ tree', change w.tree = .ok tree' →
      AgreeOn names (tree'.entriesAt root)
        (w.tree.entriesAt root)) :
    AgreeOn names
      ((w.act s change).2.tree.entriesAt root)
      (w.tree.entriesAt root) := by
  rcases w.tree_act s change with hSame | hDone
  · rw [hSame]
    exact fun _ _ => rfl
  · exact hChange _ hDone

/- No operation takes checks of the flag back. -/
theorem World.checks_le_perform
    (s : Surroundings)
    (w : World)
    (operation : Operation) :
    w.checks ≤ (w.perform s operation).2.checks := by
  have hAct : ∀ change,
      (w.act s change).2.checks = w.checks := by
    intro change
    unfold World.act
    split
    · rfl
    · split <;> rfl
  have hLook : ∀ {α : Type}
      (view : Tree → Except StorageFault α),
      (w.look s view).2.checks = w.checks := by
    intro α view
    unfold World.look
    split <;> rfl
  cases operation <;>
    first
    | exact Nat.le_of_eq (hAct _).symm
    | exact Nat.le_of_eq (hLook _).symm
    | exact Nat.le_refl _
    | exact Nat.le_succ _

/-
  An operation within some names leaves every other entry of
  the root as it was, one case for each operation.
-/
theorem Operation.IsWithin.agreeOn
    {operation : Operation}
    (hWithin : operation.IsWithin root names)
    (s : Surroundings)
    (w : World) :
    AgreeOn (fun name => ¬names name)
      ((w.perform s operation).2.tree.entriesAt root)
      (w.tree.entriesAt root) := by
  cases hWithin with
  | createAll =>
      apply World.agreeOn_act
      intro tree' hCreate
      rw [Tree.entriesAt_of_createAll hCreate]
      exact fun _ _ => rfl
  | create hName =>
      apply World.agreeOn_act
      intro tree' hCreate
      dsimp only [Path.join] at hCreate
      rw [Program.create_append] at hCreate
      exact Tree.agreeOn_of_alter hCreate
        (not_not_intro hName)
  | @write name file content hName =>
      apply World.agreeOn_act
      intro tree' hWrite
      rw [(Path.isBelow_join_join root name file).names,
        Tree.write] at hWrite
      exact Tree.agreeOn_of_alter hWrite
        (not_not_intro hName)
  | rename hOld hNew =>
      apply World.agreeOn_act
      intro tree' hRename
      exact Tree.agreeOn_of_rename hRename
        (not_not_intro hOld) (not_not_intro hNew)
  | removeAll hName =>
      apply World.agreeOn_act
      intro tree' hRemove
      exact Tree.agreeOn_of_alter hRemove
        (not_not_intro hName)
  | isPresent path => exact fun _ _ => rfl
  | now => exact fun _ _ => rfl
  | freshName => exact fun _ _ => rfl

namespace Program

variable {α : Type}
variable {post : α → Prop}

/-
  At every point of a program that works within some names,
  the other entries of the root are as they were.
-/
theorem Behaves.agreeOn_of_mem_worlds
    {p : Program α}
    {v : World}
    (hBehaves : p.Behaves (Operation.IsWithin root names) post)
    (hMem : v ∈ p.worlds s w) :
    AgreeOn (fun name => ¬names name) (v.tree.entriesAt root)
      (w.tree.entriesAt root) := by
  induction p generalizing w with
  | done a =>
      rw [worlds, List.mem_singleton] at hMem
      rw [hMem]
      exact fun _ _ => rfl
  | step operation next ih =>
      rw [worlds] at hMem
      rcases List.mem_cons.mp hMem with rfl | hLater
      · exact fun _ _ => rfl
      · intro name hName
        exact (ih _ (hBehaves.2 _) hLater name hName).trans
          (hBehaves.1.agreeOn s w name hName)

/-
  What is relied on and guaranteed below a root even if any
  operation may fail: that entries under others' names are kept
  and that the flag is not asked for fewer times than before.
-/
def confinedFrame
    (root : Path)
    (names : String → Prop) : Frame where
  rely w w' :=
    w.checks ≤ w'.checks ∧
      AgreeOn names (w'.tree.entriesAt root)
        (w.tree.entriesAt root)
  guarantee w w' :=
    w.checks ≤ w'.checks ∧
      AgreeOn (fun name => ¬names name)
        (w'.tree.entriesAt root) (w.tree.entriesAt root)
  rely_refl _ := ⟨Nat.le_refl _, fun _ _ => rfl⟩
  rely_trans hFirst hSecond :=
    ⟨Nat.le_trans hFirst.1 hSecond.1, fun name hName =>
      (hSecond.2 name hName).trans (hFirst.2 name hName)⟩
  guarantee_refl _ := ⟨Nat.le_refl _, fun _ _ => rfl⟩
  guarantee_trans hFirst hSecond :=
    ⟨Nat.le_trans hFirst.1 hSecond.1, fun name hName =>
      (hSecond.2 name hName).trans (hFirst.2 name hName)⟩

/- A program that works within some names keeps to them. -/
theorem Behaves.safely
    {p : Program α}
    (hBehaves : p.Behaves (Operation.IsWithin root names) post)
    (w : World) :
    p.Safely s (confinedFrame root names) w
      fun a _ => post a := by
  induction p generalizing w with
  | done a => exact fun _ _ => hBehaves
  | step operation next ih =>
      intro v _
      exact ⟨⟨v.checks_le_perform s operation,
        hBehaves.1.agreeOn s v⟩, ih _ (hBehaves.2 _) _⟩

end Program

end Within

------------------------------------------------------------
-- Looking
------------------------------------------------------------

/- The operations that change nothing. -/
inductive Operation.IsLook : Operation → Prop
| read (path : Path) : IsLook (.read path)
| size (path : Path) : IsLook (.size path)
| isPresent (path : Path) : IsLook (.isPresent path)
| isFile (path : Path) : IsLook (.isFile path)
| now : IsLook .now
| freshName : IsLook .freshName
| isCancelled : IsLook .isCancelled

theorem World.tree_look
    {α : Type}
    (s : Surroundings)
    (w : World)
    (view : Tree → Except StorageFault α) :
    (w.look s view).2.tree = w.tree := by
  unfold World.look
  split <;> rfl

theorem Operation.IsLook.tree_perform
    {operation : Operation}
    (hLook : operation.IsLook)
    (s : Surroundings)
    (w : World) :
    (w.perform s operation).2.tree = w.tree := by
  cases hLook with
  | read path => exact w.tree_look s _
  | size path => exact w.tree_look s _
  | isPresent path => rfl
  | isFile path => rfl
  | now => rfl
  | freshName => rfl
  | isCancelled => rfl

/- A program that only looks leaves the tree alone. -/
theorem Program.Behaves.tree_run
    {α : Type}
    {post : α → Prop}
    {p : Program α}
    (hBehaves : p.Behaves Operation.IsLook post)
    (s : Surroundings)
    (w : World) :
    (p.run s w).2.tree = w.tree := by
  induction p generalizing w with
  | done a => rfl
  | step operation next ih =>
      exact (ih _ (hBehaves.2 _) _).trans
        (hBehaves.1.tree_perform s w)

end Federation
