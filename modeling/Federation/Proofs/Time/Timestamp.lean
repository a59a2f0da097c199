import Federation.Proofs.Time.Reader

/-
  The texts that schemas take for the instant of a document's
  generation. They are just those with the digits of a date
  and of a time of day, whether or not the calendar and the
  clock have them; those that have are just the instants that
  are read.

  Main declarations:
    * `Timestamp`
    * `Timestamp.IsReal`
    * `Timestamp.accepts_iff`
    * `Timestamp.parse_text`
-/

namespace Federation

namespace Instant

open Json.Number (isDigit isDigit_bounds)

------------------------------------------------------------
-- Runs of Digits
------------------------------------------------------------

/-
  By induction on the first run: numbers that end in the same
  digit are the same before it.
-/
theorem foldl_append_inj
    {xs ys : List Char}
    {m n : Nat}
    (hFirst : ∀ c ∈ xs, isDigit c = true)
    (hSecond : ∀ c ∈ ys, isDigit c = true)
    (hLength : xs.length = ys.length)
    (hSame : xs.foldl Json.Number.append m =
      ys.foldl Json.Number.append n) :
    m = n ∧ xs = ys := by
  induction xs generalizing ys m n with
  | nil =>
      have hNone : ys = [] := by simpa using hLength.symm
      rw [hNone] at hSame
      exact ⟨hSame, hNone.symm⟩
  | cons c xs ih =>
      cases ys with
      | nil => cases hLength
      | cons d ys =>
          rw [List.forall_mem_cons] at hFirst hSecond
          rcases ih hFirst.2 hSecond.2
              (Nat.succ.inj hLength) hSame with
            ⟨hNext, hRest⟩
          have hLow := isDigit_bounds hFirst.1
          have hHigh := isDigit_bounds hSecond.1
          rw [Json.Number.append, Json.Number.append] at hNext
          have hDigit : c = d :=
            Char.toNat_inj.mp (by omega)
          exact ⟨by omega, by rw [hDigit, hRest]⟩

/- Digits of a width are the number that they stand for. -/
theorem padded_ofDigits
    {digits : List Char}
    (hSome : digits ≠ [])
    (hDigits : ∀ c ∈ digits, isDigit c = true) :
    (padded digits.length
      (Json.Number.ofDigits digits)).toList = digits := by
  have hWidth := List.length_pos_iff.mpr hSome
  have hFits := ofDigits_lt hDigits
  have hPadded := isNumeral_padded hWidth hFits
  exact (foldl_append_inj hPadded.2 hDigits
    (padded_length hWidth hFits)
    (ofDigits_padded _ _)).2

theorem bind_ok
    {α β : Type}
    (a : α)
    (next : α → Except Fault β) :
    (.ok a : Except Fault α) >>= next = next a :=
  rfl

/- What follows a bound is of account within it only. -/
theorem bind_if
    {α β : Type}
    {P : Prop}
    [Decidable P]
    (a : α)
    (fault : Fault)
    (next : α → Except Fault β) :
    (if P then .ok a else .error fault) >>= next =
      if P then next a else .error fault := by
  split <;> rfl

/- Four digits are a year. -/
theorem year_four
    {n : Nat}
    (rest : List Char)
    (hFits : n < 10000) :
    year ((padded 4 n).toList ++ rest) = .ok (n, rest) := by
  have hDigits : IsNumeral (padded 4 n).toList :=
    isNumeral_padded (by decide) hFits
  refine year_of_signedYear ?_ (by omega)
  rw [trimStart_numeral hDigits,
    signedYear_numeral rest hDigits
      (padded_length (by decide) hFits)
      (by rw [ofDigits_padded, greatestNumber]; omega),
    ofDigits_padded]

end Instant

------------------------------------------------------------
-- Matching
------------------------------------------------------------

namespace Schema

theorem matches_times_iff
    {width : Nat}
    {rest : Pattern}
    {cs : List Char}
    (hWidth : 0 < width) :
    Pattern.Matches (.times digit width :: rest) cs ↔
      ∃ n after, n < 10 ^ width ∧
        cs = (Instant.padded width n).toList ++ after ∧
        Pattern.Matches rest after := by
  constructor
  · rintro ⟨run, after, rfl, ⟨hRun, hLeast, hMost⟩, hAfter⟩
    have hLength : run.length = width :=
      Nat.le_antisymm (hMost width rfl) hLeast
    have hDigits : ∀ c ∈ run,
        Json.Number.isDigit c = true := by
      intro c hMem
      rw [Json.Number.isDigit_eq]
      exact (digit_holds_iff c).mp (hRun c hMem)
    have hSome : run ≠ [] :=
      List.length_pos_iff.mp (hLength ▸ hWidth)
    refine ⟨Json.Number.ofDigits run, after,
      hLength ▸ Instant.ofDigits_lt hDigits, ?_, hAfter⟩
    rw [← hLength, Instant.padded_ofDigits hSome hDigits]
  · rintro ⟨n, after, hFits, rfl, hAfter⟩
    exact matches_times_append hWidth hFits hAfter

theorem matches_literal_iff
    {c : Char}
    {rest : Pattern}
    {cs : List Char} :
    Pattern.Matches (.one (.literal c) :: rest) cs ↔
      ∃ after, cs = c :: after ∧
        Pattern.Matches rest after := by
  constructor
  · rintro ⟨run, after, rfl, ⟨hRun, hLeast, hMost⟩, hAfter⟩
    have hLength : run.length = 1 :=
      Nat.le_antisymm (hMost 1 rfl) hLeast
    rcases List.length_eq_one_iff.mp hLength with ⟨d, rfl⟩
    have hSame : d = c := by
      simpa [Piece.one, CharClass.holds] using
        hRun d List.mem_cons_self
    exact ⟨after, by rw [hSame]; rfl, hAfter⟩
  · rintro ⟨after, rfl, hAfter⟩
    exact matches_one_cons hAfter

end Schema

------------------------------------------------------------
-- Days
------------------------------------------------------------

/- Years of four digits have a few days only. -/
theorem Date.toDays_bounds
    {d : Date}
    (hYear : 0 ≤ d.year ∧ d.year < 10000)
    (hDay : 1 ≤ d.day ∧ d.day ≤ 31) :
    -1000000 ≤ d.toDays ∧ d.toDays ≤ 4000000 := by
  simp only [toDays]
  split <;> omega

------------------------------------------------------------
-- Timestamps
------------------------------------------------------------

/- The digits of a date and of a time of day. -/
structure Timestamp where
  year : Fin 10000
  month : Fin 100
  day : Fin 100
  hour : Fin 100
  minute : Fin 100
  second : Fin 100
deriving DecidableEq, Repr

namespace Timestamp

open Instant (padded)

/- The text of a timestamp. -/
def text (s : Timestamp) : String :=
  padded 4 s.year ++ "-" ++ padded 2 s.month ++ "-" ++
    padded 2 s.day ++ "T" ++ padded 2 s.hour ++ ":" ++
    padded 2 s.minute ++ ":" ++ padded 2 s.second ++ "Z"

/- The day of a timestamp, if there is one. -/
def date (s : Timestamp) : Date :=
  ⟨s.year.val, s.month, s.day⟩

/- The calendar has the day, and the clock the time. -/
structure IsReal (s : Timestamp) : Prop where
  date : s.date.IsValid
  hour : s.hour.val ≤ 23
  minute : s.minute.val ≤ 59
  second : s.second.val ≤ 60

theorem text_toList (s : Timestamp) :
    s.text.toList =
      (padded 4 s.year).toList ++ '-' ::
        ((padded 2 s.month).toList ++ '-' ::
          ((padded 2 s.day).toList ++ 'T' ::
            ((padded 2 s.hour).toList ++ ':' ::
              ((padded 2 s.minute).toList ++ ':' ::
                ((padded 2 s.second).toList ++ ['Z']))))) := by
  have hHyphen : "-".toList = ['-'] := rfl
  have hColon : ":".toList = [':'] := rfl
  have hTime : "T".toList = ['T'] := rfl
  have hZone : "Z".toList = ['Z'] := rfl
  simp only [text, String.toList_append, List.append_assoc,
    hHyphen, hColon, hTime, hZone, List.cons_append,
    List.nil_append]

/- Schemas look at the digits only. -/
theorem accepts_iff {cs : List Char} :
    Schema.timestampPattern.accepts cs = true ↔
      ∃ s : Timestamp, cs = s.text.toList := by
  have hFour : 0 < 4 := by decide
  have hTwo : 0 < 2 := by decide
  rw [Pattern.accepts_iff_matches]
  simp only [Schema.timestampPattern, Schema.hyphen,
    Schema.colon, Schema.matches_times_iff hFour,
    Schema.matches_times_iff hTwo, Schema.matches_literal_iff,
    text_toList]
  constructor
  · rintro ⟨year, _, hYear, hYearText, _, hDash, hMatch⟩
    rcases hMatch with ⟨month, _, hMonth, hMonthText, _, hDash',
      day, _, hDay, hDayText, _, hMark, hMatch⟩
    rcases hMatch with ⟨hour, _, hHour, hHourText, _, hColon,
      minute, _, hMinute, hMinuteText, _, hColon', hMatch⟩
    rcases hMatch with ⟨second, _, hSecond, hSecondText, _,
      hZone, hEnd⟩
    refine ⟨⟨⟨year, hYear⟩, ⟨month, hMonth⟩, ⟨day, hDay⟩,
      ⟨hour, hHour⟩, ⟨minute, hMinute⟩, ⟨second, hSecond⟩⟩, ?_⟩
    rw [hYearText, hDash, hMonthText, hDash', hDayText, hMark,
      hHourText, hColon, hMinuteText, hColon', hSecondText,
      hZone, hEnd]
  · rintro ⟨s, rfl⟩
    exact ⟨_, _, s.year.isLt, rfl, _, rfl,
      _, _, s.month.isLt, rfl, _, rfl,
      _, _, s.day.isLt, rfl, _, rfl,
      _, _, s.hour.isLt, rfl, _, rfl,
      _, _, s.minute.isLt, rfl, _, rfl,
      _, _, s.second.isLt, rfl, _, rfl, rfl⟩

------------------------------------------------------------
-- Reading
------------------------------------------------------------

/- The instant of a timestamp, in a leap second if it says so. -/
def instant (s : Timestamp) : Instant where
  seconds :=
    s.date.toDays * 86400 +
      (s.hour * 3600 + s.minute * 60 + min s.second.val 59 :
        Nat)
  nanos := if s.second.val = 60 then 1000000000 else 0

/- What the text of a timestamp says. -/
def parts (s : Timestamp) : Instant.Parts where
  date := s.date
  hour := s.hour
  minute := s.minute
  second := s.second
  nanos := 0
  offset := 0

/- Month and day are within their bounds. -/
def HasDay (s : Timestamp) : Prop :=
  (1 ≤ s.month.val ∧ s.month.val ≤ 12) ∧
    1 ≤ s.day.val ∧ s.day.val ≤ 31

/- So are hour, minute and second. -/
def HasTime (s : Timestamp) : Prop :=
  (0 ≤ s.hour.val ∧ s.hour.val ≤ 23) ∧
    (0 ≤ s.minute.val ∧ s.minute.val ≤ 59) ∧
    0 ≤ s.second.val ∧ s.second.val ≤ 60

instance (s : Timestamp) : Decidable s.HasDay := by
  unfold HasDay
  infer_instance

instance (s : Timestamp) : Decidable s.HasTime := by
  unfold HasTime
  infer_instance

theorem date_text
    (s : Timestamp)
    (rest : List Char) :
    Instant.date
        ((padded 4 s.year).toList ++ '-' ::
          ((padded 2 s.month).toList ++ '-' ::
            ((padded 2 s.day).toList ++ rest))) =
      if s.HasDay then .ok (s.date, rest)
      else .error .outOfRange := by
  have hHyphen : Text.isBlank '-' = false := by decide
  simp only [Instant.date, Instant.year_four _ s.year.isLt,
    Instant.mark_cons _ hHyphen,
    Instant.bounded_two _ s.month.isLt,
    Instant.bounded_two _ s.day.isLt, Instant.bind_ok,
    Instant.bind_if, HasDay]
  by_cases hMonth : 1 ≤ s.month.val ∧ s.month.val ≤ 12
  · simp only [hMonth, and_self, true_and, if_true]
    rfl
  · simp only [hMonth, false_and, if_false]

theorem parts_text (s : Timestamp) :
    Instant.parts s.text.toList =
      if s.HasDay ∧ s.HasTime then .ok (s.parts, [])
      else .error .outOfRange := by
  have hColon : Text.isBlank ':' = false := by decide
  have hSeparator : ∀ rest : List Char,
      Instant.separator ('T' :: rest) = .ok ((), rest) :=
    fun _ => rfl
  have hFraction : Instant.fraction ['Z'] = .ok (0, ['Z']) :=
    rfl
  have hOffset : Instant.offset (Text.trimStart ['Z']) =
      .ok (0, []) :=
    rfl
  rw [text_toList]
  simp only [Instant.parts, date_text,
    Instant.mark_cons _ hColon,
    Instant.bounded_two _ s.hour.isLt,
    Instant.bounded_two _ s.minute.isLt,
    Instant.bounded_two _ s.second.isLt, hSeparator,
    hFraction, hOffset, Instant.bind_ok, Instant.bind_if,
    HasTime]
  by_cases hDay : s.HasDay
  · by_cases hHour : 0 ≤ s.hour.val ∧ s.hour.val ≤ 23
    · by_cases hMinute : 0 ≤ s.minute.val ∧ s.minute.val ≤ 59
      · simp only [hDay, hHour, hMinute, and_self, true_and,
          if_true]
        rfl
      · simp only [hDay, hHour, hMinute, and_self, and_false,
          false_and, if_true, if_false]
    · simp only [hDay, hHour, and_false, false_and, if_true,
        if_false]
  · simp only [hDay, false_and, if_false]

/- Four digits of a year are far from the limits. -/
theorem instant_bounds
    (s : Timestamp)
    (hDay : s.HasDay)
    (hTime : s.HasTime) :
    Instant.leastSeconds ≤ s.instant.seconds ∧
      s.instant.seconds ≤ Instant.greatestSeconds := by
  have hLeast : Instant.leastSeconds = 86400 * -96465292 := by
    decide
  have hGreatest : Instant.greatestSeconds =
      86400 * 95026236 + 86399 := by
    decide
  have hYear : 0 ≤ s.date.year ∧ s.date.year < 10000 :=
    ⟨Int.natCast_nonneg _, Int.ofNat_lt.mpr s.year.isLt⟩
  have hDays := Date.toDays_bounds hYear hDay.2
  rcases hTime with ⟨⟨-, hHour⟩, ⟨-, hMinute⟩, -, hSecond⟩
  rw [hLeast, hGreatest, instant]
  dsimp only
  omega

theorem IsReal.hasDay
    {s : Timestamp}
    (hReal : s.IsReal) :
    s.HasDay := by
  rcases hReal.date with ⟨-, -, hMonth, hMonth', hDay, hDay'⟩
  have hDays := Date.daysIn_le s.date.year s.date.month
  exact ⟨⟨hMonth, hMonth'⟩, hDay, le_trans hDay' hDays⟩

theorem isReal_iff (s : Timestamp) :
    s.IsReal ↔
      (s.HasDay ∧ s.HasTime) ∧ s.date.IsValid := by
  constructor
  · intro hReal
    exact ⟨⟨hReal.hasDay, ⟨Nat.zero_le _, hReal.hour⟩,
      ⟨Nat.zero_le _, hReal.minute⟩, Nat.zero_le _,
      hReal.second⟩, hReal.date⟩
  · rintro ⟨⟨-, hHour, hMinute, hSecond⟩, hDate⟩
    exact ⟨hDate, hHour.2, hMinute.2, hSecond.2⟩

instance (s : Timestamp) : Decidable s.IsReal :=
  decidable_of_iff _ s.isReal_iff.symm

/-
  The text of a timestamp is read if the calendar has the day
  and the clock the time, and else is out of range.
-/
theorem parse_text (s : Timestamp) :
    Instant.parse s.text =
      if s.IsReal then .ok s.instant
      else .error .outOfRange := by
  rw [Instant.parse, parts_text]
  by_cases hParts : s.HasDay ∧ s.HasTime
  · have hEnd : Text.trimStart [] = [] := rfl
    have hBounds := s.instant_bounds hParts.1 hParts.2
    by_cases hDate : s.date.IsValid
    · have hReal : s.IsReal :=
        s.isReal_iff.mpr ⟨hParts, hDate⟩
      have hOffset : (0 : Int).natAbs < 86400 := by decide
      simp only [hParts, hReal, and_self, if_true,
        Instant.bind_ok, hEnd, Instant.ofParts, parts, hDate,
        hOffset, Int.sub_zero, Nat.zero_add]
      exact if_pos hBounds
    · have hReal : ¬ s.IsReal := fun hReal =>
        hDate hReal.date
      simp only [hParts, hReal, and_self, if_true, if_false,
        Instant.bind_ok, hEnd, Instant.ofParts, parts, hDate]
      rfl
  · have hReal : ¬ s.IsReal := fun hReal =>
      hParts (s.isReal_iff.mp hReal).1
    rw [if_neg hParts, if_neg hReal]
    rfl

end Timestamp

end Federation
