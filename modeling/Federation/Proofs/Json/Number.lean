import Federation.Json.Printer
import Federation.Json.Token
import Federation.Text.Blank
import Mathlib.Data.List.TakeWhile
import Mathlib.Data.Nat.Init

/-
  Integers as numbers of JSON text: the digits of a number
  stand for it, and every integer of 64 bits is read back
  from its text.

  Main declarations:
    * `Json.Number.ofDigits_toDigits`
    * `Json.Number.ofDigits_zeros_append`
    * `Json.Token.ofBare?_integerText`
-/

namespace Federation

namespace Json

namespace Number

------------------------------------------------------------
-- Digits
------------------------------------------------------------

theorem isDigit_eq (c : Char) :
    isDigit c = c.isDigit := by
  rw [isDigit, Char.isDigit]
  rfl

theorem isDigit_bounds
    {c : Char}
    (hDigit : isDigit c = true) :
    48 ≤ c.toNat ∧ c.toNat ≤ 57 := by
  rw [isDigit, Bool.and_eq_true, decide_eq_true_eq,
    decide_eq_true_eq] at hDigit
  exact hDigit

theorem isBlank_of_isDigit
    {c : Char}
    (hDigit : isDigit c = true) :
    Text.isBlank c = false := by
  have hBounds := isDigit_bounds hDigit
  simp [Text.isBlank, Text.inRanges, Text.blankRanges]
  omega

theorem isDigit_of_mem_toDigits
    {n : Nat}
    {c : Char}
    (hMem : c ∈ Nat.toDigits 10 n) :
    isDigit c = true := by
  rw [isDigit_eq]
  exact Nat.isDigit_of_mem_toDigits (by decide) (by decide)
    hMem

theorem ofDigits_append
    (first second : List Char) :
    ofDigits (first ++ second) =
      second.foldl append (ofDigits first) :=
  List.foldl_append

@[simp] theorem ofDigits_toDigits (n : Nat) :
    ofDigits (Nat.toDigits 10 n) = n := by
  induction n using Nat.strong_induction_on with
  | _ n ih =>
      by_cases hSmall : n < 10
      · rw [Nat.toDigits_of_lt_base hSmall]
        simp [ofDigits, append,
          Nat.toNat_digitChar_sub_48_of_lt_ten hSmall]
      · have hLess : n / 10 < n := by omega
        have hDigit : n % 10 < 10 := by omega
        rw [Nat.toDigits_of_base_le (by decide) (by omega),
          ofDigits_append, ih _ hLess]
        simp only [List.foldl_cons, List.foldl_nil, append,
          Nat.toNat_digitChar_sub_48_of_lt_ten hDigit]
        omega

/- Zeros in front of digits do not count. -/
@[simp] theorem ofDigits_zeros_append
    (count : Nat)
    (digits : List Char) :
    ofDigits (List.replicate count '0' ++ digits) =
      ofDigits digits := by
  induction count with
  | zero => rfl
  | succ count ih =>
      rw [List.replicate_succ, List.cons_append, ← ih]
      rfl

/- Only the digits of zero begin with a zero. -/
theorem head_toDigits_ne_zero
    {n : Nat}
    (hPositive : 0 < n) :
    ∃ c rest, Nat.toDigits 10 n = c :: rest ∧ c ≠ '0' := by
  induction n using Nat.strong_induction_on with
  | _ n ih =>
      by_cases hSmall : n < 10
      · refine ⟨n.digitChar, [],
          Nat.toDigits_of_lt_base hSmall, ?_⟩
        rw [ne_eq, Nat.digitChar_eq_zero]
        omega
      · rcases ih (n / 10) (by omega) (by omega) with
          ⟨c, rest, hDigits, hHead⟩
        refine ⟨c, rest ++ [(n % 10).digitChar], ?_, hHead⟩
        rw [Nat.toDigits_of_base_le (by decide) (by omega),
          hDigits]
        rfl

------------------------------------------------------------
-- Integers
------------------------------------------------------------

theorem takeWhile_isDigit_toDigits (n : Nat) :
    (Nat.toDigits 10 n).takeWhile isDigit =
      Nat.toDigits 10 n :=
  List.takeWhile_eq_self_iff.mpr
    fun _ hMem => isDigit_of_mem_toDigits hMem

theorem wholePart?_toDigits (n : Nat) :
    wholePart? (Nat.toDigits 10 n) =
      some (Nat.toDigits 10 n, []) := by
  rcases Nat.eq_zero_or_pos n with hZero | hPositive
  · rw [hZero]
    rfl
  · rcases head_toDigits_ne_zero hPositive with
      ⟨c, rest, hDigits, hHead⟩
    have hAll := takeWhile_isDigit_toDigits n
    have hNone :
        (Nat.toDigits 10 n).dropWhile isDigit = [] :=
      List.dropWhile_eq_nil_iff.mpr
        fun _ hMem => isDigit_of_mem_toDigits hMem
    rw [hDigits] at hAll hNone ⊢
    unfold wholePart?
    split
    · rename_i hCons
      exact absurd (List.cons.inj hCons).1 hHead
    · rw [hAll, hNone]

theorem ofChars?_integerText (n : Int) :
    ofChars? (integerText n).toList =
      some ⟨decide (n < 0), Nat.toDigits 10 n.natAbs, [],
        none⟩ := by
  have hWhole := wholePart?_toDigits n.natAbs
  have hFraction : fractionPart? [] = some ([], []) := rfl
  have hExponent : exponentPart? [] = some none := rfl
  by_cases hNegative : n < 0
  · have hText : (integerText n).toList =
        '-' :: Nat.toDigits 10 n.natAbs := by
      simp [integerText, hNegative, Decimal.digitsText]
    rw [hText, ofChars?]
    simp [hWhole, hFraction, hExponent, hNegative]
  · have hText : (integerText n).toList =
        Nat.toDigits 10 n.natAbs := by
      simp [integerText, hNegative, Decimal.digitsText]
    rw [hText, ofChars?]
    · simp [hWhole, hFraction, hExponent, hNegative]
    · intro rest hMinus
      have hMem : '-' ∈ Nat.toDigits 10 n.natAbs := by
        rw [hMinus]
        exact List.mem_cons_self
      have hDigit := isDigit_of_mem_toDigits hMem
      exact absurd hDigit (by decide)

/- An integer of 64 bits is the value of its text. -/
theorem value?_of_integer
    {n : Int}
    (hRange : integerInRange n = true) :
    (Number.mk (decide (n < 0)) (Nat.toDigits 10 n.natAbs) []
      none).value? = some (.integer n) := by
  have hSigned :
      (if decide (n < 0) = true then -(n.natAbs : Int)
        else n.natAbs) = n := by
    split
    · rename_i hNegative
      have hLess := of_decide_eq_true hNegative
      omega
    · rename_i hPositive
      rw [decide_eq_true_eq] at hPositive
      omega
  have hZero : ¬(decide (n < 0) = true ∧ n.natAbs = 0) := by
    rintro ⟨hNegative, hNone⟩
    have hLess := of_decide_eq_true hNegative
    omega
  simp only [value?, ofDigits_toDigits, hSigned]
  exact if_pos ⟨trivial, trivial, hRange, hZero⟩

end Number

theorem isBare_of_mem_integerText
    {n : Int}
    {c : Char}
    (hMem : c ∈ (integerText n).toList) :
    isBare c = true := by
  rw [integerText, String.toList_append,
    List.mem_append] at hMem
  rcases hMem with hSign | hDigit
  · split at hSign
    · rw [List.mem_singleton.mp hSign]
      rfl
    · cases hSign
  · rw [Decimal.digitsText, String.toList_ofList] at hDigit
    have hDecimal : c.isDigit = true :=
      Nat.isDigit_of_mem_toDigits (by decide) (by decide)
        hDigit
    simp [isBare, Char.isAlphanum, hDecimal]

theorem integerText_ne_nil (n : Int) :
    (integerText n).toList ≠ [] := by
  simp [integerText, Decimal.digitsText, Nat.toDigits_ne_nil]

/- The text of an integer of 64 bits is its token. -/
theorem Token.ofBare?_integerText
    {n : Int}
    (hRange : integerInRange n = true) :
    Token.ofBare? (integerText n).toList =
      some (.scalar (some (.integer n))) := by
  have hName : ∀ name : List Char,
      Number.ofChars? name = none →
      (integerText n).toList ≠ name := by
    intro name hNone hEq
    rw [← hEq, Number.ofChars?_integerText] at hNone
    cases hNone
  rw [Token.ofBare?, if_neg (hName _ rfl),
    if_neg (hName _ rfl), if_neg (hName _ rfl),
    Number.ofChars?_integerText, Option.map_some,
    Number.value?_of_integer hRange]

end Json

end Federation
