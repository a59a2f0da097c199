import Federation.Storage.World
import Mathlib.Data.List.Forall2

/-
  Programs that run side by side. Each relies on what the
  others leave alone and guarantees what it leaves alone; if
  every guarantee is what the others rely on, each program
  ends as it would by itself, however the steps alternate.

  Main declarations:
    * `Program.run_bind`
    * `Program.Frame`
    * `Program.Safely`
    * `Program.Safely.bind`
    * `Program.interleave_safely`
-/

namespace Federation

namespace Program

variable {α β ι : Type}
variable {s : Surroundings}

------------------------------------------------------------
-- Running
------------------------------------------------------------

/- A program runs on where the program before it ends. -/
theorem run_bind
    (p : Program α)
    (f : α → Program β)
    (w : World) :
    (p.bind f).run s w =
      (f (p.run s w).1).run s (p.run s w).2 := by
  induction p generalizing w with
  | done a => rfl
  | step operation next ih => exact ih _ _

theorem run_bind_eq
    (p : Program α)
    (f : α → Program β)
    (w : World) :
    (p >>= f).run s w =
      (f (p.run s w).1).run s (p.run s w).2 :=
  run_bind p f w

/- What is told in a step belongs to the number of the step. -/
theorem run_now (w : World) :
    now.run s w = (s.instant w.steps, w.advance) :=
  rfl

theorem run_freshName (w : World) :
    freshName.run s w = (s.name w.steps, w.advance) :=
  rfl

------------------------------------------------------------
-- Safe Programs
------------------------------------------------------------

/-
  What a program relies on of the steps of others, and what
  it guarantees of its own. Both hold of no step at all and
  of steps one after the other.
-/
structure Frame where
  rely : World → World → Prop
  guarantee : World → World → Prop
  rely_refl : ∀ w, rely w w
  rely_trans : ∀ {u v w}, rely u v → rely v w → rely u w
  guarantee_refl : ∀ w, guarantee w w
  guarantee_trans : ∀ {u v w},
    guarantee u v → guarantee v w → guarantee u w

/-
  A program keeps its guarantee in every step and ends in a
  condition, whatever others do that it may rely on.
-/
def Safely
    (s : Surroundings)
    (frame : Frame) :
    Program α → World → (α → World → Prop) → Prop
| .done a, w, post => ∀ w', frame.rely w w' → post a w'
| .step operation next, w, post =>
    ∀ w', frame.rely w w' →
      frame.guarantee w' (w'.perform s operation).2 ∧
      (next (w'.perform s operation).1).Safely s frame
        (w'.perform s operation).2 post

variable {frame : Frame}
variable {post : α → World → Prop}
variable {w w' : World}

namespace Safely

theorem of_rely
    {p : Program α}
    (hSafe : p.Safely s frame w post)
    (hRely : frame.rely w w') :
    p.Safely s frame w' post := by
  cases p with
  | done a =>
      intro v hLater
      exact hSafe v (frame.rely_trans hRely hLater)
  | step operation next =>
      intro v hLater
      exact hSafe v (frame.rely_trans hRely hLater)

theorem mono
    {p : Program α}
    {weaker : α → World → Prop}
    (hSafe : p.Safely s frame w post)
    (hWeaker : ∀ a w, post a w → weaker a w) :
    p.Safely s frame w weaker := by
  induction p generalizing w with
  | done a =>
      intro v hRely
      exact hWeaker a v (hSafe v hRely)
  | step operation next ih =>
      intro v hRely
      exact ⟨(hSafe v hRely).1, ih _ (hSafe v hRely).2⟩

theorem bind
    {p : Program α}
    {f : α → Program β}
    {later : β → World → Prop}
    (hSafe : p.Safely s frame w post)
    (hNext : ∀ a w, post a w → (f a).Safely s frame w later) :
    (p.bind f).Safely s frame w later := by
  induction p generalizing w with
  | done a => exact hNext a w (hSafe w (frame.rely_refl w))
  | step operation next ih =>
      intro v hRely
      exact ⟨(hSafe v hRely).1, ih _ (hSafe v hRely).2⟩

/- A safe program that runs by itself. -/
theorem run
    {p : Program α}
    (hSafe : p.Safely s frame w post) :
    frame.guarantee w (p.run s w).2 ∧
      ∀ v, frame.rely (p.run s w).2 v →
        post (p.run s w).1 v := by
  induction p generalizing w with
  | done a => exact ⟨frame.guarantee_refl w, hSafe⟩
  | step operation next ih =>
      rcases hSafe w (frame.rely_refl w) with ⟨hStep, hRest⟩
      rcases ih _ hRest with ⟨hLater, hPost⟩
      exact ⟨frame.guarantee_trans hStep hLater, hPost⟩

/- A safe operation of which the answer is known. -/
theorem exists_perform
    {operation : Operation}
    {answer : operation.Answer}
    {known : World → Prop}
    (hSafe : (ask operation).Safely s frame w
      fun a w => a = answer ∧ known w) :
    ∃ v, w.perform s operation = (answer, v) ∧ known v := by
  rcases hSafe.run.2 _ (frame.rely_refl _) with
    ⟨hAnswer, hKnown⟩
  exact ⟨_, Prod.ext hAnswer rfl, hKnown⟩

end Safely

------------------------------------------------------------
-- Programs Side by Side
------------------------------------------------------------

variable {frames : ι → Frame}
variable {posts : ι → α → World → Prop}
variable {ids : List ι}
variable {programs : List (Program α)}

/- What one program guarantees, every other relies on. -/
def Compatible
    (frames : ι → Frame)
    (ids : List ι) : Prop :=
  ids.Pairwise fun i j =>
    (∀ w w', (frames i).guarantee w w' →
      (frames j).rely w w') ∧
    ∀ w w', (frames j).guarantee w w' → (frames i).rely w w'

/- Each of some programs is safe in its frame. -/
def AllSafely
    (s : Surroundings)
    (frames : ι → Frame)
    (posts : ι → α → World → Prop)
    (ids : List ι)
    (programs : List (Program α))
    (w : World) : Prop :=
  List.Forall₂
    (fun i p => Safely s (frames i) p w (posts i)) ids programs

/- What holds of the steps of some programs altogether. -/
structure Spans
    (frames : ι → Frame)
    (ids : List ι)
    (whole : World → World → Prop) : Prop where
  refl : ∀ w, whole w w
  trans : ∀ {u v w}, whole u v → whole v w → whole u w
  spans : ∀ i ∈ ids, ∀ w w',
    (frames i).guarantee w w' → whole w w'

/-
  Programs have ended: each in its condition, and with them
  what holds of the steps of all of them.
-/
def AllEnded
    (frames : ι → Frame)
    (posts : ι → α → World → Prop)
    (ids : List ι)
    (w : World)
    (ended : List α × World) : Prop :=
  (∀ whole, Spans frames ids whole → whole w ended.2) ∧
    List.Forall₂ (fun i a => posts i a ended.2) ids ended.1

theorem AllSafely.of_rely
    (hSafe : AllSafely s frames posts ids programs w)
    (hRely : ∀ i ∈ ids, (frames i).rely w w') :
    AllSafely s frames posts ids programs w' := by
  unfold AllSafely at hSafe ⊢
  induction hSafe with
  | nil => exact .nil
  | cons hFirst _ ih =>
      rw [List.forall_mem_cons] at hRely
      exact .cons (hFirst.of_rely hRely.1) (ih hRely.2)

/- The steps of one program are relied on by all the others. -/
theorem Spans.of_compatible
    {i : ι}
    (hCompatible : Compatible frames (i :: ids)) :
    Spans frames ids (frames i).rely where
  refl := (frames i).rely_refl
  trans := (frames i).rely_trans
  spans j hMem w w' hStep :=
    ((List.pairwise_cons.mp hCompatible).1 j hMem).2 w w' hStep

/- Safe programs that follow one after the other. -/
theorem sequence_safely
    (hCompatible : Compatible frames ids)
    (hSafe : AllSafely s frames posts ids programs w) :
    AllEnded frames posts ids w
      ((sequence programs).run s w) := by
  induction ids generalizing programs w with
  | nil =>
      rcases hSafe with _ | _
      exact ⟨fun _ hSpans => hSpans.refl w, .nil⟩
  | cons i ids ih =>
      rcases hSafe with _ | ⟨hFirst, hRest⟩
      rename_i p programs
      rcases hFirst.run with ⟨hGuarantee, hPost⟩
      have hPairs := List.pairwise_cons.mp hCompatible
      have hOthers :
          AllSafely s frames posts ids programs
            (p.run s w).2 :=
        AllSafely.of_rely hRest fun j hMem =>
          (hPairs.1 j hMem).1 _ _ hGuarantee
      rcases ih hPairs.2 hOthers with ⟨hWhole, hEnded⟩
      have hRely :=
        hWhole _ (Spans.of_compatible hCompatible)
      rw [sequence, run_bind, run_bind]
      refine ⟨fun whole hSpans => ?_,
        .cons (hPost _ hRely) hEnded⟩
      have hLater : Spans frames ids whole :=
        ⟨hSpans.refl, hSpans.trans, fun j hMem =>
          hSpans.spans j (List.mem_cons_of_mem i hMem)⟩
      exact hSpans.trans
        (hSpans.spans i List.mem_cons_self _ _ hGuarantee)
        (hWhole whole hLater)

/- One step of one of the programs. -/
theorem AllSafely.step
    {turn : Nat}
    {operation : Operation}
    {next : operation.Answer → Program α}
    (hCompatible : Compatible frames ids)
    (hSafe : AllSafely s frames posts ids programs w)
    (hTurn : programs[turn]? = some (.step operation next)) :
    (∃ i ∈ ids,
      (frames i).guarantee w (w.perform s operation).2) ∧
    AllSafely s frames posts ids
      (programs.set turn (next (w.perform s operation).1))
      (w.perform s operation).2 := by
  induction ids generalizing programs turn with
  | nil =>
      rcases hSafe with _ | _
      cases hTurn
  | cons i ids ih =>
      rcases hSafe with _ | ⟨hFirst, hRest⟩
      have hPairs := List.pairwise_cons.mp hCompatible
      cases turn with
      | zero =>
          cases hTurn
          rcases hFirst w ((frames i).rely_refl w) with
            ⟨hStep, hNext⟩
          have hOthers := AllSafely.of_rely hRest
            fun j hMem => (hPairs.1 j hMem).1 _ _ hStep
          exact ⟨⟨i, List.mem_cons_self, hStep⟩,
            .cons hNext hOthers⟩
      | succ turn =>
          rcases ih hPairs.2 hRest hTurn with
            ⟨⟨j, hMem, hStep⟩, hNext⟩
          have hRely := (hPairs.1 j hMem).2 _ _ hStep
          exact ⟨⟨j, List.mem_cons_of_mem i hMem, hStep⟩,
            .cons (hFirst.of_rely hRely) hNext⟩

/- Safe programs, whatever turns they take. -/
theorem interleave_safely
    (turns : List Nat)
    (hCompatible : Compatible frames ids)
    (hSafe : AllSafely s frames posts ids programs w) :
    AllEnded frames posts ids w
      ((interleave turns programs).run s w) := by
  induction turns generalizing programs w with
  | nil => exact sequence_safely hCompatible hSafe
  | cons turn turns ih =>
      rw [interleave]
      cases hTurn : programs[turn]? with
      | none => exact ih hSafe
      | some p =>
          cases p with
          | done a => exact ih hSafe
          | step operation next =>
              rcases hSafe.step hCompatible hTurn with
                ⟨⟨i, hMem, hStep⟩, hNext⟩
              rcases ih hNext with ⟨hWhole, hEnded⟩
              exact ⟨fun whole hSpans =>
                hSpans.trans (hSpans.spans i hMem _ _ hStep)
                  (hWhole whole hSpans), hEnded⟩

end Program

end Federation
