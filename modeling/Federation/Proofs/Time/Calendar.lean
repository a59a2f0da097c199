import Federation.Time.Calendar
import Mathlib.Tactic.IntervalCases

/-
  The calendar: every number of days has a date, the date is
  one that the calendar has, and counts those days again.

  Years are counted from March in eras of 400 years. An era
  is split into centuries, into groups of four years, into
  years and days; only the last parts of each may be longer.

  Main declarations:
    * `Date.exists_eraSplit`
    * `Date.toDays_ofDays`
    * `Date.ofDays_isValid`
-/

namespace Federation

namespace Date

------------------------------------------------------------
-- Eras
------------------------------------------------------------

/-
  A day of an era is a day of a year of a group of a century.
  The day 365 is a leap day, and comes at the end of a group
  that is not the last of a century, or of the last century.
-/
structure EraSplit
    (dayOfEra century group year day : Int) : Prop where
  isCentury : 0 ≤ century ∧ century ≤ 3
  isGroup : 0 ≤ group ∧ group ≤ 24
  isYear : 0 ≤ year ∧ year ≤ 3
  isDay : 0 ≤ day ∧ day ≤ 365
  total : dayOfEra =
    36524 * century + 1461 * group + 365 * year + day
  last : day = 365 → year = 3
  leap : day = 365 → group = 24 → century = 3

theorem exists_eraSplit
    {dayOfEra : Int}
    (hLow : 0 ≤ dayOfEra)
    (hHigh : dayOfEra < 146097) :
    ∃ century group year day,
      EraSplit dayOfEra century group year day := by
  obtain ⟨k, hk⟩ : ∃ k, k = min (dayOfEra / 36524) 3 :=
    ⟨_, rfl⟩
  obtain ⟨v, hv⟩ : ∃ v, v = dayOfEra - 36524 * k := ⟨_, rfl⟩
  have hCentury : (0 ≤ k ∧ k ≤ 3) ∧ (0 ≤ v ∧ v ≤ 36524) ∧
      (k < 3 → v < 36524) := by
    omega
  clear hk
  obtain ⟨q, hq⟩ : ∃ q, q = v / 1461 := ⟨_, rfl⟩
  obtain ⟨w, hw⟩ : ∃ w, w = v - 1461 * q := ⟨_, rfl⟩
  have hGroup : (0 ≤ q ∧ q ≤ 24) ∧ 0 ≤ w ∧ w ≤ 1460 := by
    omega
  clear hq
  obtain ⟨y, hy⟩ : ∃ y, y = min (w / 365) 3 := ⟨_, rfl⟩
  obtain ⟨d, hd⟩ : ∃ d, d = w - 365 * y := ⟨_, rfl⟩
  have hYear : (0 ≤ y ∧ y ≤ 3) ∧ (0 ≤ d ∧ d ≤ 365) ∧
      (y < 3 → d < 365) := by
    omega
  clear hy
  refine ⟨k, q, y, d, hCentury.1, hGroup.1, hYear.1,
    hYear.2.1, by omega, by omega, ?_⟩
  intro hLeap hLast
  have hWhole : v = 36524 := by omega
  by_contra hNot
  have := hCentury.2.2 (by omega)
  omega

variable {n k q y d : Int}

/- A day of 400 years is in the century that it is counted in. -/
theorem EraSplit.century_eq
    (h : EraSplit n k q y d) :
    n / 36524 - n / 146096 = k := by
  rcases h with ⟨hk, hq, hy, hd, hTotal, hLast, hLeap⟩
  by_cases hEnd : 1461 * q + 365 * y + d = 36524
  · have hDay : d = 365 := by omega
    have hCentury := hLeap hDay (by omega)
    have hWhole : n = 146096 := by omega
    subst hWhole hCentury
    decide
  · have hLess : 1461 * q + 365 * y + d < 36524 := by omega
    clear hLast hLeap hEnd
    have hFirst : n / 36524 = k := by omega
    have hSecond : n / 146096 = 0 := by omega
    omega

/- The leap days of an era up to a day, one too early or not. -/
theorem EraSplit.leapDays_eq
    (h : EraSplit n k q y d) :
    n / 1460 =
      25 * k + q + (24 * k + q + 365 * y + d) / 1460 := by
  have hTotal := h.total
  clear h
  omega

theorem EraSplit.day_bounds
    (h : EraSplit n k q y d) :
    0 ≤ d - (24 * k + q + 365 * y + d) / 1460 ∧
      d - (24 * k + q + 365 * y + d) / 1460 ≤ 364 := by
  rcases h with ⟨hk, hq, hy, hd, -, hLast, -⟩
  by_cases hDay : d = 365
  · have hYear := hLast hDay
    omega
  · omega

theorem EraSplit.year_eq
    (h : EraSplit n k q y d) :
    (n - n / 1460 + n / 36524 - n / 146096) / 365 =
      100 * k + 4 * q + y := by
  have hCentury := h.century_eq
  have hLeapDays := h.leapDays_eq
  have hDay := h.day_bounds
  have hTotal := h.total
  clear h
  generalize (24 * k + q + 365 * y + d) / 1460 = t at *
  generalize n / 1460 = a at *
  generalize n / 36524 = b at *
  generalize n / 146096 = c at *
  omega

theorem EraSplit.leapsBefore_eq
    (h : EraSplit n k q y d) :
    (100 * k + 4 * q + y) / 4 = 25 * k + q ∧
      (100 * k + 4 * q + y) / 100 = k := by
  rcases h with ⟨hk, hq, hy, -, -, -, -⟩
  constructor <;> omega

theorem EraSplit.dayOfYear_eq
    (h : EraSplit n k q y d) :
    n - (365 * (100 * k + 4 * q + y) +
        (100 * k + 4 * q + y) / 4 -
        (100 * k + 4 * q + y) / 100) = d := by
  rw [h.leapsBefore_eq.1, h.leapsBefore_eq.2, h.total]
  omega

/- A leap day is in February of a leap year. -/
theorem EraSplit.isLeapYear
    (h : EraSplit n k q y d)
    (hDay : d = 365)
    (era : Int) :
    Date.isLeapYear
      (100 * k + 4 * q + y + era * 400 + 1) = true := by
  have hYear := h.last hDay
  have hLeap := h.leap hDay
  rcases h with ⟨hk, hq, -, -, -, -, -⟩
  subst hYear
  have hFour :
      (100 * k + 4 * q + 3 + era * 400 + 1) % 4 = 0 := by
    omega
  have hCentury :
      (100 * k + 4 * q + 3 + era * 400 + 1) % 100 ≠ 0 ∨
      (100 * k + 4 * q + 3 + era * 400 + 1) % 400 = 0 := by
    by_cases hGroup : q = 24
    · have := hLeap hGroup
      subst this hGroup
      right
      omega
    · left
      omega
  simpa [Date.isLeapYear, hFour] using hCentury

------------------------------------------------------------
-- Months
------------------------------------------------------------

/- The month of the calendar for one that is counted from March. -/
def civilMonth (month : Int) : Int :=
  if month < 10 then month + 3 else month - 9

theorem month_bounds
    {m : Int}
    (hDay : 0 ≤ d ∧ d ≤ 365)
    (hMonth : (5 * d + 2) / 153 = m) :
    0 ≤ m ∧ m ≤ 11 := by
  omega

/- A day is a day of its month. -/
theorem dayOfMonth_bounds
    {m year : Int}
    (hDay : 0 ≤ d ∧ d ≤ 365)
    (hMonth : (5 * d + 2) / 153 = m)
    (hLeap : d = 365 → Date.isLeapYear year = true) :
    1 ≤ (d - (153 * m + 2) / 5 + 1).toNat ∧
      (d - (153 * m + 2) / 5 + 1).toNat ≤
        daysIn year (civilMonth m).toNat := by
  rcases month_bounds hDay hMonth with ⟨hLow, hHigh⟩
  interval_cases m <;>
    simp only [civilMonth, daysIn, Int.reduceLT, if_true,
      if_false, Int.reduceAdd, Int.reduceSub, Int.reduceToNat,
      Nat.reduceEqDiff, or_false, or_true, or_self] <;>
    try omega
  by_cases hLast : d = 365
  · rw [hLeap hLast]
    simp only [if_true]
    omega
  · split <;> omega

------------------------------------------------------------
-- Dates
------------------------------------------------------------

/- The year of the calendar for one that is counted from March. -/
def civilYear (year month : Int) : Int :=
  if civilMonth month ≤ 2 then year + 1 else year

/- The date of a day by the parts that it is split into. -/
theorem exists_ofDays_eq (days : Int) :
    ∃ era k q y d m,
      EraSplit ((days + 719468) % 146097) k q y d ∧
      days + 719468 = 146097 * era +
        (36524 * k + 1461 * q + 365 * y + d) ∧
      (5 * d + 2) / 153 = m ∧
      ofDays days =
        ⟨civilYear (100 * k + 4 * q + y + era * 400) m,
          (civilMonth m).toNat,
          (d - (153 * m + 2) / 5 + 1).toNat⟩ := by
  rcases exists_eraSplit
      (Int.emod_nonneg (days + 719468) (by decide))
      (Int.emod_lt_of_pos (days + 719468) (by decide)) with
    ⟨k, q, y, d, hSplit⟩
  refine ⟨(days + 719468) / 146097, k, q, y, d, _, hSplit,
    ?_, rfl, ?_⟩
  · rw [← hSplit.total]
    exact (Int.mul_ediv_add_emod _ _).symm
  · simp only [ofDays, hSplit.year_eq, hSplit.dayOfYear_eq]
    rfl

theorem civilMonth_bounds
    {m : Int}
    (hMonth : 0 ≤ m ∧ m ≤ 11) :
    1 ≤ (civilMonth m).toNat ∧ (civilMonth m).toNat ≤ 12 ∧
      ((civilMonth m).toNat : Int) = civilMonth m ∧
      (civilMonth m + 9) % 12 = m := by
  unfold civilMonth
  split <;> omega

/- The date of a number of days counts that number of days. -/
theorem toDays_ofDays (days : Int) :
    (ofDays days).toDays = days := by
  rcases exists_ofDays_eq days with
    ⟨era, k, q, y, d, m, hSplit, hTotal, hMonth, hDate⟩
  have hDay := hSplit.isDay
  have hMonthBounds := month_bounds hDay hMonth
  rcases civilMonth_bounds hMonthBounds with
    ⟨hLow, hHigh, hNat, hBack⟩
  have hDayNat :
      ((d - (153 * m + 2) / 5 + 1).toNat : Int) =
        d - (153 * m + 2) / 5 + 1 := by
    omega
  have hLeaps := hSplit.leapsBefore_eq
  have hYear : 0 ≤ 100 * k + 4 * q + y ∧
      100 * k + 4 * q + y < 400 := by
    have hCentury := hSplit.isCentury
    have hGroup := hSplit.isGroup
    have hRest := hSplit.isYear
    omega
  clear hSplit
  have hCount :
      (if (civilMonth m).toNat ≤ 2 then
        civilYear (100 * k + 4 * q + y + era * 400) m - 1
      else civilYear (100 * k + 4 * q + y + era * 400) m) =
        100 * k + 4 * q + y + era * 400 := by
    unfold civilYear
    by_cases hSmall : civilMonth m ≤ 2
    · rw [if_pos (by omega), if_pos hSmall]
      omega
    · rw [if_neg (by omega), if_neg hSmall]
  have hEra : (100 * k + 4 * q + y + era * 400) / 400 = era := by
    omega
  have hRest : (100 * k + 4 * q + y + era * 400) % 400 =
      100 * k + 4 * q + y := by
    omega
  rw [hDate, toDays]
  simp only [hCount, hEra, hRest, hNat, hBack, hLeaps.1,
    hLeaps.2, hDayNat]
  clear hCount hEra hRest hNat hBack hLeaps hDayNat hMonth
  omega

theorem ofDays_month_bounds (days : Int) :
    1 ≤ (ofDays days).month ∧ (ofDays days).month ≤ 12 := by
  rcases exists_ofDays_eq days with
    ⟨era, k, q, y, d, m, hSplit, -, hMonth, hDate⟩
  have hBounds := civilMonth_bounds
    (month_bounds hSplit.isDay hMonth)
  rw [hDate]
  exact ⟨hBounds.1, hBounds.2.1⟩

/- The date of a number of days is a day of its month. -/
theorem ofDays_day_bounds (days : Int) :
    1 ≤ (ofDays days).day ∧
      (ofDays days).day ≤
        daysIn (ofDays days).year (ofDays days).month := by
  rcases exists_ofDays_eq days with
    ⟨era, k, q, y, d, m, hSplit, -, hMonth, hDate⟩
  rw [hDate]
  refine dayOfMonth_bounds hSplit.isDay hMonth fun hLast => ?_
  have hLeap := hSplit.isLeapYear hLast era
  have hSmall : civilMonth m ≤ 2 := by
    have hMonthValue : m = 11 := by omega
    rw [hMonthValue]
    decide
  rw [civilYear, if_pos hSmall]
  exact hLeap

theorem daysIn_le
    (year : Int)
    (month : Nat) :
    daysIn year month ≤ 31 := by
  unfold daysIn
  split
  · split <;> decide
  · split <;> decide

/- Within the limits of years every day has a valid date. -/
theorem ofDays_isValid
    {days : Int}
    (hLeast : leastYear ≤ (ofDays days).year)
    (hGreatest : (ofDays days).year ≤ greatestYear) :
    (ofDays days).IsValid :=
  ⟨hLeast, hGreatest, (ofDays_month_bounds days).1,
    (ofDays_month_bounds days).2,
    (ofDays_day_bounds days).1, (ofDays_day_bounds days).2⟩

------------------------------------------------------------
-- Limits
------------------------------------------------------------

/- The year that is counted from March by the parts of a day. -/
theorem marchYear_bounds
    {era days : Int}
    (h : EraSplit n k q y d)
    (hTotal : days + 719468 = 146097 * era +
      (36524 * k + 1461 * q + 365 * y + d))
    (hLeast : -96465292 ≤ days)
    (hGreatest : days ≤ 95026236) :
    -262144 ≤ 100 * k + 4 * q + y + era * 400 ∧
      100 * k + 4 * q + y + era * 400 ≤ 262142 ∧
      (d < 306 →
        -262143 ≤ 100 * k + 4 * q + y + era * 400) ∧
      (306 ≤ d →
        100 * k + 4 * q + y + era * 400 ≤ 262141) := by
  have hCentury := h.isCentury
  have hGroup := h.isGroup
  have hYear := h.isYear
  have hDay := h.isDay
  clear h
  refine ⟨?_, ?_, ?_, ?_⟩
  · omega
  · omega
  · omega
  · clear hLeast
    omega

/- The days of the first and the last year have valid dates. -/
theorem ofDays_isValid_of_bounds
    {days : Int}
    (hLeast : -96465292 ≤ days)
    (hGreatest : days ≤ 95026236) :
    (ofDays days).IsValid := by
  rcases exists_ofDays_eq days with
    ⟨era, k, q, y, d, m, hSplit, hTotal, hMonth, hDate⟩
  have hBounds := marchYear_bounds hSplit hTotal hLeast
    hGreatest
  have hDay := hSplit.isDay
  have hYear : leastYear ≤ (ofDays days).year ∧
      (ofDays days).year ≤ greatestYear := by
    rw [hDate]
    simp only [civilYear, civilMonth, leastYear, greatestYear]
    generalize 100 * k + 4 * q + y + era * 400 = year at *
    clear hTotal hSplit hDate
    split_ifs <;> omega
  exact ofDays_isValid hYear.1 hYear.2

end Date

end Federation
