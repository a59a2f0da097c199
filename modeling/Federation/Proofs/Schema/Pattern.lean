import Federation.Schema.Parameters
import Mathlib.Tactic.Common

/-
  What a pattern accepts: the texts that split into runs, one
  for each piece, of characters of the piece's class and of a
  length within its bounds.

  Main declarations:
    * `Piece.Admits`
    * `Pattern.Matches`
    * `Pattern.matches_cons_iff`
    * `Pattern.accepts_iff_matches`
-/

namespace Federation

------------------------------------------------------------
-- Runs
------------------------------------------------------------

/-
  A run of characters belongs to a piece: all are of its
  class, and there are neither too few nor too many.
-/
def Piece.Admits (p : Piece) (run : List Char) : Prop :=
  (∀ c ∈ run, p.charClass.holds c = true) ∧
    p.least ≤ run.length ∧
    ∀ most ∈ p.greatest, run.length ≤ most

namespace Piece

theorem admits_nil_iff (p : Piece) :
    p.Admits [] ↔ p.least = 0 := by
  simp [Admits]

theorem admits_cons_iff
    (p : Piece)
    (c : Char)
    (run : List Char) :
    p.Admits (c :: run) ↔
      (p.greatest ≠ Option.some 0 ∧
        p.charClass.holds c = true) ∧
      p.next.Admits run := by
  rcases p with ⟨k, least, greatest⟩
  cases greatest with
  | none =>
      simp [Admits, next, and_assoc]
  | some most =>
      simp only [Admits, next, List.mem_cons, forall_eq_or_imp,
        List.length_cons, Option.mem_def, Option.some.injEq,
        forall_eq', Option.map_some, ne_eq]
      constructor
      · rintro ⟨⟨hHead, hRun⟩, hLeast, hMost⟩
        exact ⟨⟨by omega, hHead⟩, hRun, by omega, by omega⟩
      · rintro ⟨⟨hSome, hHead⟩, hRun, hLeast, hMost⟩
        exact ⟨⟨hHead, hRun⟩, by omega, by omega⟩

end Piece

------------------------------------------------------------
-- Patterns
------------------------------------------------------------

namespace Pattern

/- A text splits into one run for each piece of a pattern. -/
def Matches : Pattern → List Char → Prop
| [], cs => cs = []
| p :: rest, cs =>
    ∃ run after, cs = run ++ after ∧ p.Admits run ∧
      Matches rest after

theorem matches_nil_iff (pattern : Pattern) :
    Matches pattern [] ↔ isComplete pattern = true := by
  induction pattern with
  | nil => simp [Matches, isComplete]
  | cons p rest ih =>
      have hRest : isComplete (p :: rest) = true ↔
          p.least = 0 ∧ isComplete rest = true := by
        simp [isComplete]
      rw [hRest, ← ih, ← p.admits_nil_iff]
      constructor
      · rintro ⟨run, after, hSplit, hRun, hAfter⟩
        rcases List.append_eq_nil_iff.mp hSplit.symm with
          ⟨rfl, rfl⟩
        exact ⟨hRun, hAfter⟩
      · rintro ⟨hRun, hAfter⟩
        exact ⟨[], [], rfl, hRun, hAfter⟩

/-
  The first character of a text belongs to the run of the
  first piece, or that run is empty and the rest of the
  pattern matches the whole text.
-/
theorem matches_piece_cons_iff
    (p : Piece)
    (rest : Pattern)
    (c : Char)
    (cs : List Char) :
    Matches (p :: rest) (c :: cs) ↔
      ((p.greatest ≠ some 0 ∧ p.charClass.holds c = true) ∧
        Matches (p.next :: rest) cs) ∨
      (p.least = 0 ∧ Matches rest (c :: cs)) := by
  constructor
  · rintro ⟨run, after, hSplit, hRun, hAfter⟩
    cases run with
    | nil =>
        have hText : c :: cs = after := by simpa using hSplit
        rw [hText]
        exact Or.inr ⟨p.admits_nil_iff.mp hRun, hAfter⟩
    | cons d more =>
        rcases List.cons.inj hSplit with ⟨rfl, rfl⟩
        rcases (p.admits_cons_iff c more).mp hRun with
          ⟨hHead, hMore⟩
        exact Or.inl
          ⟨hHead, more, after, rfl, hMore, hAfter⟩
  · rintro (⟨hHead, more, after, rfl, hMore, hAfter⟩ |
      ⟨hLeast, hRest⟩)
    · exact ⟨c :: more, after, rfl,
        (p.admits_cons_iff c more).mpr ⟨hHead, hMore⟩,
        hAfter⟩
    · exact ⟨[], c :: cs, rfl, p.admits_nil_iff.mpr hLeast,
        hRest⟩

theorem mem_after_cons_iff
    (c : Char)
    (p : Piece)
    (rest next : Pattern) :
    next ∈ after c (p :: rest) ↔
      ((p.greatest ≠ some 0 ∧ p.charClass.holds c = true) ∧
        next = p.next :: rest) ∨
      (p.least = 0 ∧ next ∈ after c rest) := by
  rw [after]
  by_cases hTaken :
      p.greatest ≠ some 0 ∧ p.charClass.holds c = true
  · by_cases hLeast : p.least = 0 <;> simp [hTaken, hLeast]
  · have hNot : (p.greatest != some 0 &&
        p.charClass.holds c) = false := by
      simpa using hTaken
    by_cases hLeast : p.least = 0 <;>
      simp [hTaken, hNot, hLeast]

theorem matches_cons_iff
    (pattern : Pattern)
    (c : Char)
    (cs : List Char) :
    Matches pattern (c :: cs) ↔
      ∃ next ∈ after c pattern, Matches next cs := by
  induction pattern with
  | nil => simp [Matches, after]
  | cons p rest ih =>
      rw [matches_piece_cons_iff, ih]
      constructor
      · rintro (⟨hTaken, hMatch⟩ | ⟨hLeast, next, hNext, hMatch⟩)
        · exact ⟨p.next :: rest,
            (mem_after_cons_iff _ _ _ _).mpr
              (Or.inl ⟨hTaken, rfl⟩), hMatch⟩
        · exact ⟨next,
            (mem_after_cons_iff _ _ _ _).mpr
              (Or.inr ⟨hLeast, hNext⟩), hMatch⟩
      · rintro ⟨next, hNext, hMatch⟩
        rcases (mem_after_cons_iff _ _ _ _).mp hNext with
          ⟨hTaken, rfl⟩ | ⟨hLeast, hLater⟩
        · exact Or.inl ⟨hTaken, hMatch⟩
        · exact Or.inr ⟨hLeast, next, hLater, hMatch⟩

theorem acceptsAny_iff
    (patterns : List Pattern)
    (cs : List Char) :
    acceptsAny patterns cs = true ↔
      ∃ pattern ∈ patterns, Matches pattern cs := by
  induction cs generalizing patterns with
  | nil =>
      simp [acceptsAny, matches_nil_iff]
  | cons c cs ih =>
      rw [acceptsAny, ih]
      simp only [List.mem_flatMap, matches_cons_iff]
      constructor
      · rintro ⟨next, ⟨pattern, hPattern, hNext⟩, hMatch⟩
        exact ⟨pattern, hPattern, next, hNext, hMatch⟩
      · rintro ⟨pattern, hPattern, next, hNext, hMatch⟩
        exact ⟨next, ⟨pattern, hPattern, hNext⟩, hMatch⟩

theorem accepts_iff_matches
    (pattern : Pattern)
    (cs : List Char) :
    pattern.accepts cs = true ↔ Matches pattern cs := by
  simp [accepts, acceptsAny_iff]

/- A pattern of one piece matches the runs of the piece. -/
theorem matches_singleton_iff
    (p : Piece)
    (cs : List Char) :
    Matches [p] cs ↔ p.Admits cs := by
  constructor
  · rintro ⟨run, after, rfl, hRun, rfl⟩
    simpa using hRun
  · intro hRun
    exact ⟨cs, [], by simp, hRun, rfl⟩

end Pattern

------------------------------------------------------------
-- Patterns of Schemas
------------------------------------------------------------

namespace Schema

/- A character is in the range of a single one if it is that. -/
theorem inRanges_single_iff (c d : Char) :
    CharClass.inRanges [(d, d)] c = true ↔ c = d := by
  simp only [CharClass.inRanges, List.any_cons, List.any_nil,
    Bool.or_false, Bool.and_eq_true, decide_eq_true_eq]
  constructor
  · rintro ⟨hLow, hHigh⟩
    exact Char.le_antisymm hHigh hLow
  · rintro rfl
    exact ⟨Char.le_refl _, Char.le_refl _⟩

/- Codes are the texts that are not empty and have no slash. -/
theorem codePattern_accepts_iff (cs : List Char) :
    codePattern.accepts cs = true ↔ cs ≠ [] ∧ '/' ∉ cs := by
  rw [Pattern.accepts_iff_matches, codePattern,
    Pattern.matches_singleton_iff]
  have hHolds : ∀ c : Char,
      (CharClass.noneOf [('/', '/')]).holds c = true ↔
        c ≠ '/' := by
    intro c
    rw [CharClass.holds, Bool.not_eq_true',
      ← Bool.not_eq_true, inRanges_single_iff]
  constructor
  · rintro ⟨hAll, hLeast, -⟩
    refine ⟨?_, fun hMem => (hHolds _).mp (hAll _ hMem) rfl⟩
    rintro rfl
    simp [Piece.some] at hLeast
  · rintro ⟨hSome, hNone⟩
    refine ⟨fun c hMem => (hHolds c).mpr ?_, ?_, by
      simp [Piece.some]⟩
    · rintro rfl
      exact hNone hMem
    · exact List.length_pos_iff.mpr hSome

end Schema

end Federation
