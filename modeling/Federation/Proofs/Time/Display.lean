import Federation.Proofs.Schema.Pattern
import Federation.Proofs.Time.Calendar
import Federation.Time.Instant

/-
  The texts of instants: numbers of a fixed width, and the
  form that schemas ask of the instant of a generation.

  Main declarations:
    * `Instant.padded_length`
    * `Instant.calendarYear`
    * `Schema.timestampPattern_accepts_display`
-/

namespace Federation

namespace Instant

------------------------------------------------------------
-- Numbers
------------------------------------------------------------

theorem padded_toList (width n : Nat) :
    (padded width n).toList =
      List.replicate (width - (Nat.toDigits 10 n).length) '0' ++
        Nat.toDigits 10 n := by
  rw [padded, String.toList_ofList]

/- A number that fits into a width has that width. -/
theorem padded_length
    {width n : Nat}
    (hWidth : 0 < width)
    (hFits : n < 10 ^ width) :
    (padded width n).toList.length = width := by
  have hDigits : (Nat.toDigits 10 n).length ≤ width :=
    (Nat.length_toDigits_le_iff (by decide) hWidth).mpr hFits
  rw [padded_toList, List.length_append,
    List.length_replicate]
  omega

theorem isDigit_of_mem_padded
    {width n : Nat}
    {c : Char}
    (hMem : c ∈ (padded width n).toList) :
    c.isDigit = true := by
  rw [padded_toList, List.mem_append] at hMem
  rcases hMem with hZero | hDigit
  · rw [List.eq_of_mem_replicate hZero]
    rfl
  · exact Nat.isDigit_of_mem_toDigits (by decide) (by decide)
      hDigit

------------------------------------------------------------
-- Years
------------------------------------------------------------

/- The year of an instant. -/
def calendarYear (t : Instant) : Int :=
  (Date.ofDays (t.seconds / 86400)).year

theorem dateText_truncate
    {t : Instant}
    (hYear : 0 ≤ t.calendarYear ∧ t.calendarYear ≤ 9999) :
    t.truncate.dateText =
      padded 4 (Date.ofDays (t.seconds / 86400)).year.toNat ++
        "-" ++
        padded 2 (Date.ofDays (t.seconds / 86400)).month ++
        "-" ++
        padded 2 (Date.ofDays (t.seconds / 86400)).day := by
  have hPlain :
      yearText (Date.ofDays (t.seconds / 86400)).year =
        padded 4
          (Date.ofDays (t.seconds / 86400)).year.toNat :=
    if_pos hYear
  simp only [dateText, truncate, hPlain]

/- An instant that is truncated shows no fraction. -/
theorem timeText_truncate (t : Instant) :
    t.truncate.timeText =
      padded 2 ((t.seconds % 86400).toNat / 3600) ++ ":" ++
        padded 2 ((t.seconds % 86400).toNat / 60 % 60) ++
        ":" ++
        padded 2
          ((t.seconds % 86400).toNat % 60 +
            t.nanos / 1000000000) := by
  have hWhole :
      t.nanos / 1000000000 * 1000000000 % 1000000000 = 0 :=
    Nat.mul_mod_left _ _
  have hLeap :
      t.nanos / 1000000000 * 1000000000 / 1000000000 =
        t.nanos / 1000000000 :=
    Nat.mul_div_cancel _ (by decide)
  simp only [timeText, truncate, fractionText, hWhole, hLeap,
    if_true, String.append_empty]

end Instant

namespace Schema

------------------------------------------------------------
-- Timestamps
------------------------------------------------------------

theorem digit_holds_iff (c : Char) :
    digit.holds c = true ↔ c.isDigit = true := by
  simp only [digit, CharClass.holds, CharClass.inRanges,
    List.any_cons, List.any_nil, Bool.or_false,
    Bool.and_eq_true, decide_eq_true_eq, Char.isDigit]
  exact Iff.rfl

theorem matches_times_append
    {width n : Nat}
    {rest : Pattern}
    {after : List Char}
    (hWidth : 0 < width)
    (hFits : n < 10 ^ width)
    (hAfter : Pattern.Matches rest after) :
    Pattern.Matches (.times digit width :: rest)
      ((Instant.padded width n).toList ++ after) := by
  have hLength := Instant.padded_length hWidth hFits
  refine ⟨_, after, rfl, ⟨?_, ?_, ?_⟩, hAfter⟩
  · intro c hMem
    exact (digit_holds_iff c).mpr
      (Instant.isDigit_of_mem_padded hMem)
  · exact hLength.ge
  · simp [Piece.times, hLength]

theorem matches_one_cons
    {c : Char}
    {rest : Pattern}
    {after : List Char}
    (hAfter : Pattern.Matches rest after) :
    Pattern.Matches (.one (.literal c) :: rest)
      (c :: after) :=
  ⟨[c], after, rfl,
    ⟨by simp [Piece.one, CharClass.holds],
      by simp [Piece.one], by simp [Piece.one]⟩, hAfter⟩

/-
  An instant of the years that have four digits, and of whole
  seconds, has the form of a timestamp.
-/
theorem timestampPattern_accepts_display
    {t : Instant}
    (hNanos : t.nanos < 2000000000)
    (hYear : 0 ≤ t.calendarYear ∧ t.calendarYear ≤ 9999) :
    timestampPattern.accepts t.truncate.display.toList =
      true := by
  have hMonth :=
    Date.ofDays_month_bounds (t.seconds / 86400)
  have hDay := Date.ofDays_day_bounds (t.seconds / 86400)
  have hLength := Date.daysIn_le
    (Date.ofDays (t.seconds / 86400)).year
    (Date.ofDays (t.seconds / 86400)).month
  have hRest : (t.seconds % 86400).toNat < 86400 := by omega
  rw [Pattern.accepts_iff_matches, Instant.display,
    Instant.timeText_truncate,
    Instant.dateText_truncate hYear]
  have hHyphen : "-".toList = ['-'] := rfl
  have hColon : ":".toList = [':'] := rfl
  have hTime : "T".toList = ['T'] := rfl
  have hZone : "Z".toList = ['Z'] := rfl
  simp only [String.toList_append, List.append_assoc,
    hHyphen, hColon, hTime, hZone, List.cons_append,
    List.nil_append, timestampPattern, hyphen, colon]
  unfold Instant.calendarYear at hYear
  generalize Date.ofDays (t.seconds / 86400) = date at *
  generalize (t.seconds % 86400).toNat = rest at *
  refine matches_times_append (by decide) (by omega) ?_
  apply matches_one_cons
  refine matches_times_append (by decide) (by omega) ?_
  apply matches_one_cons
  refine matches_times_append (by decide) (by omega) ?_
  apply matches_one_cons
  refine matches_times_append (by decide) (by omega) ?_
  apply matches_one_cons
  refine matches_times_append (by decide) (by omega) ?_
  apply matches_one_cons
  refine matches_times_append (by decide) (by omega) ?_
  exact matches_one_cons rfl

end Schema

end Federation
