import Federation.Proofs.Storage.Confined

/-
  Turns of programs that run side by side. What follows the
  last turn, one program after the other, can be told by more
  turns, so that at last all of the programs are done. Other
  programs that do the same operations then go through the
  same worlds, and those that are behind can wait.

  Main declarations:
    * `Program.takeTurns`
    * `Program.run_interleave`
    * `Program.exists_turns_done`
    * `Program.forward`
    * `Program.exists_turns_related`
-/

namespace Federation

namespace Program

variable {α : Type}
variable {s s' : Surroundings}
variable {p : Program α}
variable {programs others : List (Program α)}
variable {w : World}

------------------------------------------------------------
-- Taking Turns
------------------------------------------------------------

/-
  What is left of some programs after some turns, and the
  world that they have come to.
-/
def takeTurns
    (s : Surroundings) :
    (turns : List Nat) → List (Program α) → World →
      List (Program α) × World
| [], programs, w => (programs, w)
| turn :: turns, programs, w =>
    match programs[turn]? with
    | some (.step operation next) =>
        let (answer, w) := w.perform s operation
        takeTurns s turns (programs.set turn (next answer)) w
    | some (.done _) => takeTurns s turns programs w
    | none => takeTurns s turns programs w

/- After the turns, the rest follows one after the other. -/
theorem run_interleave
    (turns : List Nat)
    (programs : List (Program α))
    (w : World) :
    (interleave turns programs).run s w =
      (sequence (takeTurns s turns programs w).1).run s
        (takeTurns s turns programs w).2 := by
  induction turns generalizing programs w with
  | nil => rfl
  | cons turn turns ih =>
      rw [interleave, takeTurns]
      cases hTurn : programs[turn]? with
      | none => exact ih programs w
      | some p =>
          cases p with
          | done a => exact ih programs w
          | step operation next => exact ih _ _

theorem takeTurns_append
    (first second : List Nat)
    (programs : List (Program α))
    (w : World) :
    takeTurns s (first ++ second) programs w =
      takeTurns s second (takeTurns s first programs w).1
        (takeTurns s first programs w).2 := by
  induction first generalizing programs w with
  | nil => rfl
  | cons turn turns ih =>
      rw [List.cons_append, takeTurns, takeTurns]
      cases hTurn : programs[turn]? with
      | none => exact ih programs w
      | some p =>
          cases p with
          | done a => exact ih programs w
          | step operation next => exact ih _ _

/- The first program may be the only one that takes turns. -/
theorem exists_turns_first
    (p : Program α)
    (programs : List (Program α))
    (w : World) :
    ∃ turns, takeTurns s turns (p :: programs) w =
      (.done (p.run s w).1 :: programs, (p.run s w).2) := by
  induction p generalizing w with
  | done a => exact ⟨[], rfl⟩
  | step operation next ih =>
      rcases ih (w.perform s operation).1
        (w.perform s operation).2 with ⟨turns, hTurns⟩
      exact ⟨0 :: turns, hTurns⟩

/- Or all the others, as they would without the first one. -/
theorem takeTurns_succ
    (turns : List Nat)
    (p : Program α)
    (programs : List (Program α))
    (w : World) :
    takeTurns s (turns.map Nat.succ) (p :: programs) w =
      (p :: (takeTurns s turns programs w).1,
        (takeTurns s turns programs w).2) := by
  induction turns generalizing programs w with
  | nil => rfl
  | cons turn turns ih =>
      rw [List.map_cons, takeTurns, takeTurns,
        Nat.succ_eq_add_one, List.getElem?_cons_succ]
      cases hTurn : programs[turn]? with
      | none => exact ih programs w
      | some p =>
          cases p with
          | done a => exact ih programs w
          | step operation next => exact ih _ _

theorem exists_turns_sequence
    (programs : List (Program α))
    (w : World) :
    ∃ turns, takeTurns s turns programs w =
      (((sequence programs).run s w).1.map .done,
        ((sequence programs).run s w).2) := by
  induction programs generalizing w with
  | nil => exact ⟨[], rfl⟩
  | cons p programs ih =>
      rcases exists_turns_first (s := s) p programs w with
        ⟨first, hFirst⟩
      rcases ih (p.run s w).2 with ⟨rest, hRest⟩
      refine ⟨first ++ rest.map Nat.succ, ?_⟩
      rw [takeTurns_append, hFirst, takeTurns_succ, hRest,
        sequence, run_bind, run_bind]
      rfl

/- Some more turns, and all programs are done. -/
theorem exists_turns_append
    (turns : List Nat)
    (programs : List (Program α))
    (w : World) :
    ∃ rest, takeTurns s (turns ++ rest) programs w =
      (((interleave turns programs).run s w).1.map .done,
        ((interleave turns programs).run s w).2) := by
  rcases exists_turns_sequence (s := s)
    (takeTurns s turns programs w).1
    (takeTurns s turns programs w).2 with ⟨rest, hRest⟩
  refine ⟨rest, ?_⟩
  rw [takeTurns_append, hRest, run_interleave]

/- With enough turns all programs are done. -/
theorem exists_turns_done
    (turns : List Nat)
    (programs : List (Program α))
    (w : World) :
    ∃ turns', takeTurns s turns' programs w =
      (((interleave turns programs).run s w).1.map .done,
        ((interleave turns programs).run s w).2) := by
  rcases exists_turns_append turns programs w with
    ⟨rest, hRest⟩
  exact ⟨turns ++ rest, hRest⟩

theorem length_sequence
    (programs : List (Program α))
    (w : World) :
    ((sequence programs).run s w).1.length =
      programs.length := by
  induction programs generalizing w with
  | nil => rfl
  | cons p programs ih =>
      rw [sequence, run_bind, run_bind]
      exact congrArg Nat.succ (ih _)

/- What is done keeps its value when the rest follows. -/
theorem values_of_sequence
    (programs : List (Program α))
    (w : World) :
    List.Forall₂ (fun p b => ∀ a, p = .done a → b = a)
      programs ((sequence programs).run s w).1 := by
  induction programs generalizing w with
  | nil => exact .nil
  | cons p programs ih =>
      rw [sequence, run_bind, run_bind]
      refine .cons ?_ (ih _)
      rintro a rfl
      rfl

------------------------------------------------------------
-- The First Programs
------------------------------------------------------------

/- A program after its next operation, and the world then. -/
def forward
    (s : Surroundings) :
    Program α → World → Program α × World
| .done a, w => (.done a, w)
| .step operation next, w =>
    let (answer, w) := w.perform s operation
    (next answer, w)

theorem takeTurns_zero
    (turns : List Nat)
    (p : Program α)
    (programs : List (Program α))
    (w : World) :
    takeTurns s (0 :: turns) (p :: programs) w =
      takeTurns s turns ((p.forward s w).1 :: programs)
        (p.forward s w).2 := by
  cases p <;> rfl

theorem takeTurns_one
    (turns : List Nat)
    (p q : Program α)
    (programs : List (Program α))
    (w : World) :
    takeTurns s (1 :: turns) (p :: q :: programs) w =
      takeTurns s turns (p :: (q.forward s w).1 :: programs)
        (q.forward s w).2 := by
  cases q <;> rfl

------------------------------------------------------------
-- Programs in Step
------------------------------------------------------------

/-
  Programs that do what others do, which are told otherwise in
  other surroundings. They come to the same worlds in turns of
  their own: each of them waits while its other one is done.
-/
theorem exists_turns_related
    {related : Program α → Program α → Prop}
    (s s' : Surroundings)
    (w : World)
    (hStep : ∀ operation next q (w : World),
      related (.step operation next) q →
      ∃ next', q = .step operation next' ∧
        (w.perform s' operation).2 =
          (w.perform s operation).2 ∧
        related (next (w.perform s operation).1)
          (next' (w.perform s' operation).1))
    (hAll : List.Forall₂ related programs others)
    (turns : List Nat) :
    ∃ turns',
      (takeTurns s' turns' others w).2 =
        (takeTurns s turns programs w).2 ∧
      List.Forall₂ related (takeTurns s turns programs w).1
        (takeTurns s' turns' others w).1 := by
  induction turns generalizing programs others w with
  | nil => exact ⟨[], rfl, hAll⟩
  | cons turn turns ih =>
      rw [takeTurns]
      cases hTurn : programs[turn]? with
      | none => exact ih w hAll
      | some p =>
          cases p with
          | done a => exact ih w hAll
          | step operation next =>
              rcases exists_related_of_getElem? hAll.flip hTurn
                with ⟨q, hOther, hRelated, hSet⟩
              rcases hStep operation next q w hRelated with
                ⟨next', rfl, hWorld, hNext⟩
              rcases ih (w.perform s operation).2
                  (hSet _ _ hNext).flip with ⟨turns', hRest⟩
              refine ⟨turn :: turns', ?_⟩
              rw [takeTurns, hOther]
              dsimp only
              rw [hWorld]
              exact hRest

end Program

end Federation
