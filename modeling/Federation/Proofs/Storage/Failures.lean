import Federation.Proofs.Storage.Root

/-
  Programs in surroundings that make operations fail. A run
  is told with the operations that fail in it; what a change
  of the tree does is known from surroundings in which it
  does not fail, and if it fails, the tree is as before.

  Main declarations:
    * `Program.failures`
    * `Program.Ends`
    * `Program.Ends.bind`
    * `Program.ActEnd`
    * `Program.act_cases`, `Program.ends_act`
-/

namespace Federation

------------------------------------------------------------
-- Failing Operations
------------------------------------------------------------

/- An operation that its surroundings can make fail. -/
def Operation.CanFail : Operation → Bool
| .createAll _ => true
| .create _ => true
| .write _ _ => true
| .rename _ _ => true
| .removeAll _ => true
| .read _ => true
| .size _ => true
| .isPresent _ => false
| .isFile _ => false
| .now => false
| .freshName => false
| .isCancelled => false

/- Surroundings that are the same but make nothing fail. -/
def Surroundings.withoutFailures
    (s : Surroundings) : Surroundings :=
  { s with failure := fun _ => none }

theorem Surroundings.isFaultless_withoutFailures
    (s : Surroundings) :
    s.withoutFailures.IsFaultless :=
  fun _ => rfl

/- No operation takes steps back. -/
theorem World.steps_le_perform
    (s : Surroundings)
    (w : World)
    (operation : Operation) :
    w.steps ≤ (w.perform s operation).2.steps := by
  have hAct : ∀ change,
      w.steps ≤ (w.act s change).2.steps := by
    intro change
    unfold World.act
    split
    · exact Nat.le_succ _
    · split <;> exact Nat.le_succ _
  have hLook : ∀ {α : Type}
      (view : Tree → Except StorageFault α),
      w.steps ≤ (w.look s view).2.steps := by
    intro α view
    unfold World.look
    split <;> exact Nat.le_succ _
  cases operation <;>
    first
    | exact hAct _
    | exact hLook _
    | exact Nat.le_succ _

namespace Program

variable {α β : Type}
variable {s : Surroundings}

/-
  The operations of a run that its surroundings make fail,
  in the order in which they are done.
-/
def failures
    (s : Surroundings) :
    Program α → World → List Operation
| .done _, _ => []
| .step operation next, w =>
    let (answer, later) := w.perform s operation
    let rest := (next answer).failures s later
    if operation.CanFail && (s.failure w.steps).isSome then
      operation :: rest
    else rest

@[simp] theorem failures_done
    (a : α)
    (w : World) :
    (Program.done a).failures s w = [] :=
  rfl

/- The failures of both parts of a program add up. -/
theorem failures_bind
    (p : Program α)
    (f : α → Program β)
    (w : World) :
    (p.bind f).failures s w =
      p.failures s w ++
        (f (p.run s w).1).failures s (p.run s w).2 := by
  induction p generalizing w with
  | done a => rfl
  | step operation next ih =>
      simp only [bind, failures, run, ih]
      split <;> rfl

/- Where nothing fails, there is no failure to tell of. -/
theorem failures_of_isFaultless
    (hFaultless : s.IsFaultless)
    (p : Program α)
    (w : World) :
    p.failures s w = [] := by
  induction p generalizing w with
  | done a => rfl
  | step operation next ih =>
      simp [failures, hFaultless w.steps, ih]

theorem steps_le_run
    (p : Program α)
    (w : World) :
    w.steps ≤ (p.run s w).2.steps := by
  induction p generalizing w with
  | done a => exact Nat.le_refl _
  | step operation next ih =>
      exact Nat.le_trans (w.steps_le_perform s operation)
        (ih _ _)

------------------------------------------------------------
-- Ends
------------------------------------------------------------

/-
  How a run of a program ends: with a value, after some
  failures, in a world.
-/
def Ends
    (s : Surroundings)
    (p : Program α)
    (w : World)
    (post : α → List Operation → World → Prop) : Prop :=
  post (p.run s w).1 (p.failures s w) (p.run s w).2

namespace Ends

variable {w : World}
variable {p : Program α}
variable {mid : α → List Operation → World → Prop}

theorem mono
    {weaker : α → List Operation → World → Prop}
    (hEnds : Ends s p w mid)
    (hWeaker : ∀ a failed v, mid a failed v →
      weaker a failed v) :
    Ends s p w weaker :=
  hWeaker _ _ _ hEnds

/- An end of the first part, and of the second from there. -/
theorem bind
    {f : α → Program β}
    {post : β → List Operation → World → Prop}
    (hFirst : Ends s p w mid)
    (hNext : ∀ a failed v, w.steps ≤ v.steps →
      mid a failed v →
      Ends s (f a) v fun b later v' =>
        post b (failed ++ later) v') :
    Ends s (p.bind f) w post := by
  unfold Ends
  rw [run_bind, failures_bind]
  exact hNext _ _ _ (steps_le_run p w) hFirst

/- A program in which nothing can fail, and what follows it. -/
theorem bind_quiet
    {frame : Frame}
    {known : α → World → Prop}
    {f : α → Program β}
    {post : β → List Operation → World → Prop}
    (hQuiet : p.failures s w = [])
    (hSafe : p.Safely s frame w known)
    (hNext : ∀ a v, w.steps ≤ v.steps → known a v →
      Ends s (f a) v post) :
    Ends s (p.bind f) w post := by
  unfold Ends
  rw [run_bind, failures_bind, hQuiet]
  have hKnown := hSafe.run.2 _ (frame.rely_refl _)
  exact hNext _ _ (steps_le_run p w) hKnown

end Ends

------------------------------------------------------------
-- Changes of the Tree
------------------------------------------------------------

/- A program is one operation, which changes the tree. -/
structure IsAct
    (p : Program (Stored Unit))
    (operation : Operation)
    (change : Tree → Except StorageFault Tree) : Prop where
  run_eq : ∀ s w, p.run s w = w.act s change
  failures_eq : ∀ s w, p.failures s w =
    if (s.failure w.steps).isSome then [operation] else []

theorem isAct_createAll (path : Path) :
    IsAct (createAll path) (.createAll path)
      (Tree.createAll path.names) :=
  ⟨fun _ _ => rfl, fun _ _ => rfl⟩

theorem isAct_create (path : Path) :
    IsAct (create path) (.create path)
      (Tree.create path.names) :=
  ⟨fun _ _ => rfl, fun _ _ => rfl⟩

theorem isAct_write (path : Path) (content : Bytes) :
    IsAct (write path content) (.write path content)
      (Tree.write path.names content) :=
  ⟨fun _ _ => rfl, fun _ _ => rfl⟩

theorem isAct_rename (source target : Path) :
    IsAct (rename source target) (.rename source target)
      (Tree.rename source.names target.names) :=
  ⟨fun _ _ => rfl, fun _ _ => rfl⟩

theorem isAct_removeAll (path : Path) :
    IsAct (removeAll path) (.removeAll path)
      (Tree.removeAll path.names) :=
  ⟨fun _ _ => rfl, fun _ _ => rfl⟩

/- A change of the tree is done, or fails and leaves it alone. -/
inductive ActEnd
    (operation : Operation)
    (before : World)
    (known : World → Prop) :
    Stored Unit → List Operation → World → Prop
| done
    {v : World}
    (hKnown : known v) :
    ActEnd operation before known (.ok ()) [] v
| failed
    (fault : StorageFault) :
    ActEnd operation before known (.error fault) [operation]
      before.advance

/-
  What is known of a change in surroundings without failures
  holds in all surroundings in which it does not fail. If it
  fails, it has only taken a step.
-/
theorem act_cases
    {p : Program (Stored Unit)}
    {operation : Operation}
    {change : Tree → Except StorageFault Tree}
    {frame : Frame}
    {known : World → Prop}
    {w : World}
    (hAct : IsAct p operation change)
    (hSafe : p.Safely s.withoutFailures frame w
      fun a v => a = .ok () ∧ known v) :
    (∃ v, s.failure w.steps = none ∧
      p.run s w = (.ok (), v) ∧ known v) ∨
    ∃ fault, s.failure w.steps = some fault ∧
      p.run s w = (.error fault, w.advance) := by
  cases hFailure : s.failure w.steps with
  | some fault =>
      refine Or.inr ⟨fault, rfl, ?_⟩
      rw [hAct.run_eq, World.act, hFailure]
  | none =>
      have hRun : p.run s w = p.run s.withoutFailures w := by
        rw [hAct.run_eq, hAct.run_eq, World.act, World.act,
          hFailure]
        rfl
      rcases hSafe.run.2 _ (frame.rely_refl _) with
        ⟨hOk, hKnown⟩
      exact Or.inl ⟨_, rfl, hRun.trans (Prod.ext hOk rfl),
        hKnown⟩

theorem ends_act
    {p : Program (Stored Unit)}
    {operation : Operation}
    {change : Tree → Except StorageFault Tree}
    {frame : Frame}
    {known : World → Prop}
    {w : World}
    (hAct : IsAct p operation change)
    (hSafe : p.Safely s.withoutFailures frame w
      fun a v => a = .ok () ∧ known v) :
    Ends s p w (ActEnd operation w known) := by
  unfold Ends
  rw [hAct.failures_eq]
  rcases act_cases hAct hSafe with
    ⟨v, hNone, hRun, hKnown⟩ | ⟨fault, hSome, hRun⟩
  · rw [hNone, hRun]
    exact .done hKnown
  · rw [hSome, hRun]
    exact .failed fault

end Program

end Federation
