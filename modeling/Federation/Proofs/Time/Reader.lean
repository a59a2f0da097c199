import Federation.Proofs.Json.Number
import Federation.Proofs.Text
import Federation.Proofs.Time.Display
import Federation.Time.Reader

/-
  Instants are read back from their texts, with the years of
  more than four digits, fractions and leap seconds.

  Main declarations:
    * `Instant.number_eq_ok`
    * `Instant.parts_display`
    * `Instant.parse_display`
-/

namespace Federation

open Json.Number (isBlank_of_isDigit isDigit isDigit_bounds)

namespace Instant

------------------------------------------------------------
-- Digits
------------------------------------------------------------

/- A text of digits, at least one. -/
def IsNumeral (digits : List Char) : Prop :=
  digits ≠ [] ∧ ∀ c ∈ digits, isDigit c = true

theorem isNumeral_padded
    {width n : Nat}
    (hWidth : 0 < width)
    (hFits : n < 10 ^ width) :
    IsNumeral (padded width n).toList := by
  have hLength := padded_length hWidth hFits
  constructor
  · intro hNil
    rw [hNil, List.length_nil] at hLength
    omega
  · intro c hMem
    rw [Json.Number.isDigit_eq]
    exact isDigit_of_mem_padded hMem

/- A run of digits stands for a number of as many digits. -/
theorem ofDigits_lt
    {digits : List Char}
    (hDigits : ∀ c ∈ digits, isDigit c = true) :
    Json.Number.ofDigits digits < 10 ^ digits.length := by
  have hFold : ∀ n, digits.foldl Json.Number.append n <
      (n + 1) * 10 ^ digits.length := by
    induction digits with
    | nil => simp
    | cons c digits ih =>
        rw [List.forall_mem_cons] at hDigits
        intro n
        have hRest := ih hDigits.2 (Json.Number.append n c)
        have hNext :
            Json.Number.append n c + 1 ≤ (n + 1) * 10 := by
          have hBounds := isDigit_bounds hDigits.1
          rw [Json.Number.append]
          omega
        calc digits.foldl Json.Number.append
              (Json.Number.append n c)
            < (Json.Number.append n c + 1) *
                10 ^ digits.length := hRest
          _ ≤ (n + 1) * 10 * 10 ^ digits.length :=
              Nat.mul_le_mul_right _ hNext
          _ = (n + 1) * 10 ^ (digits.length + 1) := by
              rw [Nat.pow_succ, Nat.mul_assoc,
                Nat.mul_comm 10]
  simpa [Json.Number.ofDigits] using hFold 0

@[simp] theorem ofDigits_padded (width n : Nat) :
    Json.Number.ofDigits (padded width n).toList = n := by
  rw [padded_toList, Json.Number.ofDigits_zeros_append,
    Json.Number.ofDigits_toDigits]

theorem trimStart_numeral
    {digits : List Char}
    (hDigits : IsNumeral digits)
    (rest : List Char) :
    Text.trimStart (digits ++ rest) = digits ++ rest := by
  cases digits with
  | nil => exact absurd rfl hDigits.1
  | cons c digits =>
      exact Text.trimStart_cons _
        (isBlank_of_isDigit (hDigits.2 c List.mem_cons_self))

theorem takeWhile_numeral
    {digits rest : List Char}
    (hDigits : IsNumeral digits) :
    (digits ++ rest).takeWhile isDigit =
      digits ++ rest.takeWhile isDigit :=
  List.takeWhile_append_of_pos hDigits.2

------------------------------------------------------------
-- Numbers
------------------------------------------------------------

/- The digits that a number of at most a count is read from. -/
def numeralOf (most : Option Nat) (cs : List Char) : List Char :=
  match most with
  | some count => (cs.takeWhile isDigit).take count
  | none => cs.takeWhile isDigit

theorem number_eq_ok
    {most : Option Nat}
    {digits rest : List Char}
    (hDigits : IsNumeral digits)
    (hRun : numeralOf most (digits ++ rest) = digits)
    (hSmall : Json.Number.ofDigits digits ≤ greatestNumber) :
    number most (digits ++ rest) =
      .ok (Json.Number.ofDigits digits, rest) := by
  cases digits with
  | nil => exact absurd rfl hDigits.1
  | cons c digits =>
      unfold numeralOf at hRun
      cases most with
      | none => simp_all [number]
      | some count => simp_all [number]

/- A numeral as long as the count may be followed by anything. -/
theorem number_of_length
    {count : Nat}
    {digits rest : List Char}
    (hDigits : IsNumeral digits)
    (hLength : digits.length = count)
    (hSmall : Json.Number.ofDigits digits ≤ greatestNumber) :
    number (some count) (digits ++ rest) =
      .ok (Json.Number.ofDigits digits, rest) := by
  refine number_eq_ok hDigits ?_ hSmall
  rw [numeralOf, takeWhile_numeral hDigits]
  exact List.take_left' hLength

/- A text that goes on with something else than a digit. -/
def EndsNumeral (rest : List Char) : Prop :=
  rest.takeWhile isDigit = []

theorem number_of_ends
    {most : Option Nat}
    {digits rest : List Char}
    (hDigits : IsNumeral digits)
    (hMost : ∀ count ∈ most, digits.length ≤ count)
    (hEnd : EndsNumeral rest)
    (hSmall : Json.Number.ofDigits digits ≤ greatestNumber) :
    number most (digits ++ rest) =
      .ok (Json.Number.ofDigits digits, rest) := by
  refine number_eq_ok hDigits ?_ hSmall
  have hRun : (digits ++ rest).takeWhile isDigit = digits := by
    rw [takeWhile_numeral hDigits, hEnd, List.append_nil]
  cases most with
  | none => exact hRun
  | some count =>
      rw [numeralOf, hRun]
      exact List.take_of_length_le (hMost count rfl)

/- Two digits are a number that is held against bounds. -/
theorem bounded_two
    {low high n : Nat}
    (rest : List Char)
    (hFits : n < 100) :
    bounded low high ((padded 2 n).toList ++ rest) =
      if low ≤ n ∧ n ≤ high then .ok (n, rest)
      else .error .outOfRange := by
  have hDigits : IsNumeral (padded 2 n).toList :=
    isNumeral_padded (by decide) hFits
  have hSmall :
      Json.Number.ofDigits (padded 2 n).toList ≤
        greatestNumber := by
    rw [ofDigits_padded, greatestNumber]
    omega
  rw [bounded, trimStart_numeral hDigits,
    number_of_length hDigits
      (padded_length (by decide) hFits) hSmall,
    ofDigits_padded]
  rfl

theorem bounded_padded
    {low high n : Nat}
    (rest : List Char)
    (hLow : low ≤ n)
    (hHigh : n ≤ high)
    (hFits : n < 100) :
    bounded low high ((padded 2 n).toList ++ rest) =
      .ok (n, rest) :=
  (bounded_two rest hFits).trans (if_pos ⟨hLow, hHigh⟩)

theorem mark_cons
    {c : Char}
    (rest : List Char)
    (hBlank : Text.isBlank c = false) :
    mark c (c :: rest) = .ok ((), rest) := by
  rw [mark, Text.trimStart_cons rest hBlank]
  exact if_pos rfl

------------------------------------------------------------
-- Years
------------------------------------------------------------

/- A text of four digits or more, whatever the number. -/
theorem isNumeral_padded_four (n : Nat) :
    IsNumeral (padded 4 n).toList := by
  constructor
  · rw [padded_toList]
    simp [Nat.toDigits_ne_nil]
  · intro c hMem
    rw [Json.Number.isDigit_eq]
    exact isDigit_of_mem_padded hMem

/- A year with its sign before it is held against limits. -/
def signedYear (cs : List Char) : Except Fault (Int × List Char) :=
  match cs with
  | '-' :: digits =>
      (number none digits).map fun p => (-(p.1 : Int), p.2)
  | '+' :: digits =>
      (number none digits).map fun p => ((p.1 : Int), p.2)
  | digits =>
      (number (some 4) digits).map fun p => ((p.1 : Int), p.2)

/- What is done with a number depends on its sign alone. -/
theorem number_then
    {α : Type}
    (read : Except Fault (Nat × List Char))
    (sign : Nat → Int)
    (next : Int × List Char → Except Fault α) :
    (do
      let (n, rest) ← read
      let p ← pure (sign n, rest)
      next p) =
      (read.map fun p => (sign p.1, p.2)).bind next := by
  cases read <;> rfl

theorem year_of_signedYear
    {cs rest : List Char}
    {y : Int}
    (hSigned : signedYear (Text.trimStart cs) = .ok (y, rest))
    (hRange : -0x80000000 ≤ y ∧ y < 0x80000000) :
    year cs = .ok (y, rest) := by
  have hYear : year cs =
      (signedYear (Text.trimStart cs)).bind fun p =>
        if -0x80000000 ≤ p.1 ∧ p.1 < 0x80000000 then .ok p
        else .error .outOfRange := by
    unfold year
    split
    · rename_i digits hCons
      rw [hCons, signedYear]
      exact number_then (number none digits) (fun n => -n) _
    · rename_i digits hCons
      rw [hCons, signedYear]
      exact number_then (number none digits) (fun n => n) _
    · rename_i hMinus hPlus
      rw [signedYear]
      · exact number_then _ (fun n => n) _
      · exact hMinus
      · exact hPlus
  rw [hYear, hSigned]
  exact if_pos hRange

theorem signedYear_numeral
    {digits : List Char}
    (rest : List Char)
    (hDigits : IsNumeral digits)
    (hLength : digits.length = 4)
    (hSmall : Json.Number.ofDigits digits ≤ greatestNumber) :
    signedYear (digits ++ rest) =
      .ok (Json.Number.ofDigits digits, rest) := by
  have hNumber :
      number (some 4) (digits ++ rest) =
        .ok (Json.Number.ofDigits digits, rest) :=
    number_of_length hDigits hLength hSmall
  have hFirst : ∀ sign tail, digits ++ rest = sign :: tail →
      isDigit sign = true := by
    intro sign tail hCons
    cases digits with
    | nil => exact absurd rfl hDigits.1
    | cons c digits =>
        rw [← (List.cons.inj hCons).1]
        exact hDigits.2 c List.mem_cons_self
  unfold signedYear
  split
  · rename_i tail hCons
    exact absurd (hFirst _ tail hCons) (by decide)
  · rename_i tail hCons
    exact absurd (hFirst _ tail hCons) (by decide)
  · rw [hNumber]
    rfl

/- A year with a sign may have any number of digits. -/
theorem signedYear_signed
    {digits rest : List Char}
    (negative : Bool)
    (hDigits : IsNumeral digits)
    (hEnd : EndsNumeral rest)
    (hSmall : Json.Number.ofDigits digits ≤ greatestNumber) :
    signedYear ((if negative then '-' else '+') ::
        (digits ++ rest)) =
      .ok (if negative then -(Json.Number.ofDigits digits : Int)
        else Json.Number.ofDigits digits, rest) := by
  have hNumber :
      number none (digits ++ rest) =
        .ok (Json.Number.ofDigits digits, rest) :=
    number_of_ends hDigits (fun _ hNone => by cases hNone) hEnd
      hSmall
  cases negative with
  | true =>
      rw [if_pos rfl, if_pos rfl, signedYear, hNumber]
      rfl
  | false =>
      rw [if_neg (by decide), if_neg (by decide), signedYear,
        hNumber]
      rfl

/- Every year of the calendar is read from its text. -/
theorem year_yearText
    {y : Int}
    {rest : List Char}
    (hLeast : Date.leastYear ≤ y)
    (hGreatest : y ≤ Date.greatestYear)
    (hEnd : EndsNumeral rest) :
    year ((yearText y).toList ++ rest) = .ok (y, rest) := by
  rw [Date.leastYear] at hLeast
  rw [Date.greatestYear] at hGreatest
  refine year_of_signedYear ?_ (by omega)
  by_cases hPlain : 0 ≤ y ∧ y ≤ 9999
  · have hDigits := isNumeral_padded_four y.toNat
    rw [yearText, if_pos hPlain, trimStart_numeral hDigits,
      signedYear_numeral rest hDigits
        (padded_length (by decide) (by omega))
        (by rw [ofDigits_padded, greatestNumber]; omega),
      ofDigits_padded, Int.toNat_of_nonneg hPlain.1]
  · have hDigits := isNumeral_padded_four y.natAbs
    have hText : (yearText y).toList =
        (if decide (y < 0) then '-' else '+') ::
          (padded 4 y.natAbs).toList := by
      rw [yearText, if_neg hPlain]
      by_cases hNegative : y < 0 <;> simp [hNegative]
    have hBlank : Text.isBlank
        (if decide (y < 0) then '-' else '+') = false := by
      cases decide (y < 0) <;> decide
    have hSign :
        (if decide (y < 0) = true then -(y.natAbs : Int)
          else y.natAbs) = y := by
      by_cases hNegative : y < 0
      · rw [if_pos (decide_eq_true hNegative)]
        omega
      · rw [if_neg (by simpa using hNegative)]
        omega
    rw [hText, List.cons_append, Text.trimStart_cons _ hBlank,
      signedYear_signed _ hDigits hEnd
        (by rw [ofDigits_padded, greatestNumber]; omega),
      ofDigits_padded, hSign]

------------------------------------------------------------
-- Dates
------------------------------------------------------------

theorem date_dateText
    {t : Instant}
    (rest : List Char)
    (hValid : (Date.ofDays (t.seconds / 86400)).IsValid) :
    date (t.dateText.toList ++ rest) =
      .ok (Date.ofDays (t.seconds / 86400), rest) := by
  have hHyphen : "-".toList = ['-'] := rfl
  have hBlank : Text.isBlank '-' = false := by decide
  rw [dateText]
  generalize Date.ofDays (t.seconds / 86400) = d at *
  rcases hValid with
    ⟨hLeast, hGreatest, hMonth, hMonth', hDay, hDay'⟩
  have hDays := Date.daysIn_le d.year d.month
  have hYear : ∀ tail, year ((yearText d.year).toList ++
      '-' :: tail) = .ok (d.year, '-' :: tail) :=
    fun tail => year_yearText hLeast hGreatest rfl
  simp only [String.toList_append, hHyphen, List.append_assoc,
    List.cons_append, List.nil_append, date, hYear,
    mark_cons _ hBlank, bind, Except.bind, pure, Except.pure,
    bounded_padded _ hMonth hMonth' (by omega),
    bounded_padded _ hDay (le_trans hDay' hDays) (by omega)]

------------------------------------------------------------
-- Times
------------------------------------------------------------

/- A fraction is read from its three, six or nine digits. -/
theorem fraction_padded
    {width part nanos : Nat}
    {rest : List Char}
    (hWidth : 0 < width ∧ width ≤ 9)
    (hFits : part < 10 ^ width)
    (hNanos : part * Nat.pow 10 (9 - width) = nanos)
    (hEnd : EndsNumeral rest) :
    fraction ('.' :: ((padded width part).toList ++ rest)) =
      .ok (nanos, rest) := by
  have hDigits := isNumeral_padded hWidth.1 hFits
  have hLength := padded_length hWidth.1 hFits
  have hPower : 10 ^ width ≤ 10 ^ 9 :=
    Nat.pow_le_pow_right (by decide) hWidth.2
  have hNumber :
      number (some 9) ((padded width part).toList ++ rest) =
        .ok (part, rest) := by
    have hMost : ∀ count ∈ some 9,
        (padded width part).toList.length ≤ count := by
      intro count hCount
      cases hCount
      omega
    rw [number_of_ends hDigits hMost hEnd
      (by rw [ofDigits_padded, greatestNumber]; omega),
      ofDigits_padded]
  have hCount :
      ((padded width part).toList ++ rest).length -
        rest.length = width := by
    rw [List.length_append, hLength]
    omega
  have hBeyond : rest.dropWhile isDigit = rest := by
    have hSplit : rest.takeWhile isDigit ++
        rest.dropWhile isDigit = rest :=
      List.takeWhile_append_dropWhile
    rwa [hEnd, List.nil_append] at hSplit
  simp only [fraction, hNumber, bind, Except.bind, pure,
    Except.pure, hCount, hNanos, hBeyond]

theorem fraction_fractionText
    {nanos : Nat}
    (hNanos : nanos < 1000000000) :
    fraction ((fractionText nanos).toList ++ ['Z']) =
      .ok (nanos, ['Z']) := by
  have hPoint : ".".toList = ['.'] := rfl
  unfold fractionText
  split_ifs with hZero hMilli hMicro
  · rw [hZero]
    rfl
  · rw [String.toList_append, hPoint, List.cons_append,
      List.nil_append, List.cons_append]
    exact fraction_padded (by decide) (by omega)
      (by simp; omega) rfl
  · rw [String.toList_append, hPoint, List.cons_append,
      List.nil_append, List.cons_append]
    exact fraction_padded (by decide) (by omega)
      (by simp; omega) rfl
  · rw [String.toList_append, hPoint, List.cons_append,
      List.nil_append, List.cons_append]
    exact fraction_padded (by decide) (by omega)
      (by simp) rfl

------------------------------------------------------------
-- Instants
------------------------------------------------------------

/- The parts that the text of an instant has. -/
def displayedParts (t : Instant) : Parts :=
  let rest := (t.seconds % 86400).toNat
  { date := Date.ofDays (t.seconds / 86400)
    hour := rest / 3600
    minute := rest / 60 % 60
    second := rest % 60 + t.nanos / 1000000000
    nanos := t.nanos % 1000000000
    offset := 0 }

theorem parts_display
    {t : Instant}
    (hValid : (Date.ofDays (t.seconds / 86400)).IsValid)
    (hNanos : t.nanos < 2000000000) :
    parts t.display.toList = .ok (t.displayedParts, []) := by
  have hRest : (t.seconds % 86400).toNat < 86400 := by omega
  have hColon : ":".toList = [':'] := rfl
  have hTime : "T".toList = ['T'] := rfl
  have hZone : "Z".toList = ['Z'] := rfl
  have hBlank : Text.isBlank ':' = false := by decide
  have hFraction := fraction_fractionText
    (Nat.mod_lt t.nanos (show 0 < 1000000000 by decide))
  have hOffset : offset (Text.trimStart ['Z']) = .ok (0, []) :=
    rfl
  have hSeparator : ∀ rest : List Char,
      separator ('T' :: rest) = .ok ((), rest) :=
    fun _ => rfl
  rw [display, timeText, displayedParts]
  generalize (t.seconds % 86400).toNat = rest at *
  have hHour : ∀ tail : List Char,
      bounded 0 23 ((padded 2 (rest / 3600)).toList ++ tail) =
        .ok (rest / 3600, tail) :=
    fun tail => bounded_padded tail (Nat.zero_le _)
      (by omega) (by omega)
  have hMinute : ∀ tail : List Char,
      bounded 0 59
          ((padded 2 (rest / 60 % 60)).toList ++ tail) =
        .ok (rest / 60 % 60, tail) :=
    fun tail => bounded_padded tail (Nat.zero_le _)
      (by omega) (by omega)
  have hSecond : ∀ tail : List Char,
      bounded 0 60
          ((padded 2
            (rest % 60 + t.nanos / 1000000000)).toList ++
              tail) =
        .ok (rest % 60 + t.nanos / 1000000000, tail) :=
    fun tail => bounded_padded tail (Nat.zero_le _)
      (by omega) (by omega)
  simp only [String.toList_append, hColon, hTime, hZone,
    List.append_assoc, List.cons_append, List.nil_append,
    parts, date_dateText _ hValid, hSeparator,
    mark_cons _ hBlank, hHour, hMinute, hSecond, hFraction,
    hOffset, bind, Except.bind, pure, Except.pure]

/- A leap second is the last but one of the seconds shown. -/
theorem shownSecond
    {seconds : Int}
    {nanos : Nat}
    (hNanos : nanos < 2000000000)
    (hLeap : 1000000000 ≤ nanos → seconds % 60 = 59) :
    min ((seconds % 86400).toNat % 60 + nanos / 1000000000)
        59 =
      (seconds % 86400).toNat % 60 ∧
    ((seconds % 86400).toNat % 60 + nanos / 1000000000 = 60 ↔
      1000000000 ≤ nanos) := by
  have hRest : ((seconds % 86400).toNat % 60 : Nat) =
      seconds % 60 := by
    omega
  by_cases hInLeap : 1000000000 ≤ nanos
  · have hLast := hLeap hInLeap
    have hCarry : nanos / 1000000000 = 1 := by omega
    clear hLeap
    omega
  · have hCarry : nanos / 1000000000 = 0 := by omega
    clear hLeap
    omega

theorem clock_seconds (seconds : Int) :
    seconds / 86400 * 86400 +
        (((seconds % 86400).toNat / 3600 * 3600 +
          (seconds % 86400).toNat / 60 % 60 * 60 +
          (seconds % 86400).toNat % 60 : Nat) : Int) - 0 =
      seconds := by
  omega

/- The parts of an instant describe it. -/
theorem ofParts_displayedParts
    {t : Instant}
    (hValid : (Date.ofDays (t.seconds / 86400)).IsValid)
    (hRepresentable : t.IsRepresentable) :
    ofParts t.displayedParts = .ok t := by
  rcases hRepresentable with
    ⟨hLeast, hGreatest, hNanos, hLeap⟩
  rcases shownSecond hNanos hLeap with ⟨hMin, hShown⟩
  have hFraction : t.nanos % 1000000000 +
      (if (t.seconds % 86400).toNat % 60 +
          t.nanos / 1000000000 = 60 then 1000000000 else 0) =
        t.nanos := by
    simp only [hShown]
    clear hShown hMin hLeap
    split <;> omega
  have hOffset : (0 : Int).natAbs < 86400 := by decide
  simp only [ofParts, displayedParts, hValid, hOffset,
    Date.toDays_ofDays, hMin, clock_seconds, hLeast,
    hGreatest, and_self, if_true, bind, Except.bind, pure,
    Except.pure]
  exact congrArg
    (fun nanos => Except.ok (Instant.mk t.seconds nanos))
    hFraction

/-
  An instant of the years of the calendar is read back from
  its text.
-/
theorem parse_display
    {t : Instant}
    (hRepresentable : t.IsRepresentable) :
    parse t.display = .ok t := by
  have hLeast : leastSeconds = 86400 * -96465292 := by decide
  have hGreatest :
      greatestSeconds = 86400 * 95026236 + 86399 := by decide
  have hValid : (Date.ofDays (t.seconds / 86400)).IsValid := by
    have hLow := hRepresentable.1
    have hHigh := hRepresentable.2.1
    rw [hLeast] at hLow
    rw [hGreatest] at hHigh
    exact Date.ofDays_isValid_of_bounds (by omega) (by omega)
  rw [parse, parts_display hValid hRepresentable.2.2.1]
  have hEnd : Text.trimStart [] = [] := rfl
  simp only [bind, Except.bind, hEnd]
  exact ofParts_displayedParts hValid hRepresentable

end Instant

end Federation
