import Federation.Proofs.Json.Number
import Federation.Proofs.Text
import Federation.Version
import Mathlib.Data.List.Forall2
import Mathlib.Data.Nat.Digits.Defs

/-
  The texts of versions. A text is read as a version just if
  it spells the number of one: among blanks there are any
  number of marks, at most one plus sign, and then digits, of
  which any number may be zeros in front. However long the
  digits are, their whole number decides. To read them one by
  one in words of 32 bits comes to the same, for the first
  product or sum that no word holds tells that the number is
  too large.

  Main declarations:
    * `Version.Spelling`
    * `Version.Spells`
    * `Version.Spelling.word?_eq_some_iff`
    * `Version.parse_eq_ok_iff`
    * `Version.parse_display`
    * `Version.parseList_eq_ok_iff`
    * `Version.parse_iff_spells`
-/

namespace Federation

namespace Version

open Json.Number (append isDigit_eq ofDigits)

------------------------------------------------------------
-- Numbers
------------------------------------------------------------

/- A version is made of nothing but its number. -/
theorem ofNat?_eq_some_iff
    {n : Nat}
    {v : Version} :
    ofNat? n = some v ↔ v.number = n := by
  rw [ofNat?, Option.dite_none_right_eq_some]
  constructor
  · rintro ⟨hRange, hVersion⟩
    cases hVersion
    rfl
  · rintro rfl
    exact ⟨⟨v.positive, v.bounded⟩, rfl⟩

@[simp] theorem ofNat?_number (v : Version) :
    ofNat? v.number = some v :=
  ofNat?_eq_some_iff.mpr rfl

theorem ofNat_eq_ok_iff
    {n : Nat}
    {v : Version} :
    ofNat n = .ok v ↔ v.number = n := by
  rw [← ofNat?_eq_some_iff, ofNat]
  cases ofNat? n with
  | none => exact ⟨nofun, nofun⟩
  | some version => simp

------------------------------------------------------------
-- Spellings
------------------------------------------------------------

/- The value of a decimal digit. -/
def digitValue (c : Char) : Nat :=
  c.toNat - '0'.toNat

/- The number that digits write, of which the last is lowest. -/
def decimal (digits : List Char) : Nat :=
  Nat.ofDigits 10 (digits.reverse.map digitValue)

/-
  What a version is spelled with: marks, perhaps a plus sign,
  and digits, of which there is at least one.
-/
structure Spelling where
  marks : List Char
  signed : Bool
  digits : List Char
  areMarks : ∀ c ∈ marks, c = 'v' ∨ c = 'V'
  areDigits : ∀ c ∈ digits, c.isDigit = true
  hasDigits : digits ≠ []

namespace Spelling

/- The plus sign of a spelling, if it has one. -/
def sign (s : Spelling) : List Char :=
  if s.signed then ['+'] else []

/- The characters of a spelling in order. -/
def chars (s : Spelling) : List Char :=
  s.marks ++ (s.sign ++ s.digits)

/- The number that is spelled. -/
def number (s : Spelling) : Nat :=
  decimal s.digits

end Spelling

/- A number is spelled by a text, among blanks. -/
def Spells (text : String) (n : Nat) : Prop :=
  ∃ s : Spelling,
    Text.Surrounds text.toList s.chars ∧ s.number = n

------------------------------------------------------------
-- Digits
------------------------------------------------------------

/- Digit after digit, a run of them comes to its number. -/
theorem ofDigits_eq_decimal (digits : List Char) :
    ofDigits digits = decimal digits := by
  rw [decimal, Nat.ofDigits_eq_foldr, List.foldr_map,
    List.foldr_reverse, ofDigits]
  congr 1
  funext n c
  exact Nat.add_comm _ _

theorem unsigned?_digits_eq_some_iff
    {digits : List Char}
    {n : Nat} :
    Json.Number.unsigned? digits = some n ↔
      digits ≠ [] ∧ (∀ c ∈ digits, c.isDigit = true) ∧
        decimal digits = n := by
  rw [Json.Number.unsigned?, ofDigits_eq_decimal]
  simp only [Option.ite_none_right_eq_some,
    List.all_eq_true, isDigit_eq, Option.some.injEq,
    and_assoc]

theorem isMark_iff {c : Char} :
    isMark c = true ↔ c = 'v' ∨ c = 'V' := by
  rw [isMark, Bool.or_eq_true, decide_eq_true_eq,
    decide_eq_true_eq]

theorem isMark_of_isDigit
    {c : Char}
    (hDigit : c.isDigit = true) :
    isMark c = false := by
  rw [Bool.eq_false_iff, ne_eq, isMark_iff]
  rintro (rfl | rfl) <;> cases hDigit

theorem ne_plus_of_isDigit
    {c : Char}
    (hDigit : c.isDigit = true) :
    c ≠ '+' := by
  rintro rfl
  cases hDigit

------------------------------------------------------------
-- Parts of a Spelling
------------------------------------------------------------

namespace Spelling

theorem eq_plus_of_mem_sign
    {s : Spelling}
    {c : Char}
    (hMem : c ∈ s.sign) :
    c = '+' := by
  unfold sign at hMem
  split at hMem
  · exact List.mem_singleton.mp hMem
  · cases hMem

/- No character of a spelling is blank. -/
theorem isBlank_of_mem_chars (s : Spelling) :
    ∀ c ∈ s.chars, Text.isBlank c = false := by
  intro c hMem
  rw [chars, List.mem_append, List.mem_append] at hMem
  rcases hMem with hMark | hSign | hDigit
  · rcases s.areMarks c hMark with rfl | rfl <;> rfl
  · rw [eq_plus_of_mem_sign hSign]
    rfl
  · apply Json.Number.isBlank_of_isDigit
    rw [isDigit_eq]
    exact s.areDigits c hDigit

/- Without its marks, a spelling is its sign and digits. -/
theorem dropWhile_chars (s : Spelling) :
    s.chars.dropWhile isMark = s.sign ++ s.digits := by
  have hMarks : ∀ c ∈ s.marks, isMark c = true :=
    fun c hMem => isMark_iff.mpr (s.areMarks c hMem)
  have hRest : ∀ c ∈ s.sign ++ s.digits,
      isMark c = false := by
    intro c hMem
    rcases List.mem_append.mp hMem with hSign | hDigit
    · rw [eq_plus_of_mem_sign hSign]
      rfl
    · exact isMark_of_isDigit (s.areDigits c hDigit)
  rw [chars, List.dropWhile_append_of_pos hMarks,
    List.dropWhile_eq_self_iff]
  intro hLength
  rw [hRest _ (List.getElem_mem hLength)]
  exact Bool.false_ne_true

theorem unsigned?_sign_append (s : Spelling) :
    unsigned? (s.sign ++ s.digits) = some s.number := by
  have hDigits :
      Json.Number.unsigned? s.digits = some s.number :=
    unsigned?_digits_eq_some_iff.mpr
      ⟨s.hasDigits, s.areDigits, rfl⟩
  rw [sign]
  split
  · exact hDigits
  · rw [List.nil_append]
    unfold unsigned?
    split
    · rename_i digits hPlus
      have hMem : '+' ∈ s.digits := by
        rw [hPlus]
        exact List.mem_cons_self
      exact absurd rfl
        (ne_plus_of_isDigit (s.areDigits _ hMem))
    · exact hDigits

end Spelling

/- What is read as a number is spelled with the marks before. -/
theorem exists_spelling
    {cs : List Char}
    {n : Nat}
    (hRead : unsigned? (cs.dropWhile isMark) = some n) :
    ∃ s : Spelling, s.chars = cs ∧ s.number = n := by
  have hMarks : ∀ c ∈ cs.takeWhile isMark,
      c = 'v' ∨ c = 'V' :=
    fun c hMem => isMark_iff.mp (List.mem_takeWhile_imp hMem)
  have hSplit : cs.takeWhile isMark ++
      cs.dropWhile isMark = cs :=
    List.takeWhile_append_dropWhile
  unfold unsigned? at hRead
  split at hRead
  · rename_i digits hRest
    rcases unsigned?_digits_eq_some_iff.mp hRead with
      ⟨hSome, hDigits, hNumber⟩
    rw [hRest] at hSplit
    exact ⟨⟨_, true, digits, hMarks, hDigits, hSome⟩,
      hSplit, hNumber⟩
  · rcases unsigned?_digits_eq_some_iff.mp hRead with
      ⟨hSome, hDigits, hNumber⟩
    exact ⟨⟨_, false, _, hMarks, hDigits, hSome⟩,
      hSplit, hNumber⟩

/- What a text spells is what is read behind its marks. -/
theorem spells_iff
    {text : String}
    {n : Nat} :
    Spells text n ↔
      unsigned? ((Text.trim text.toList).dropWhile isMark) =
        some n := by
  constructor
  · rintro ⟨s, hAround, rfl⟩
    rw [Text.trim_of_surrounds hAround
      s.isBlank_of_mem_chars, s.dropWhile_chars,
      s.unsigned?_sign_append]
  · intro hRead
    rcases exists_spelling hRead with ⟨s, hChars, hNumber⟩
    refine ⟨s, ?_, hNumber⟩
    rw [hChars]
    exact Text.surrounds_trim text.toList

/- A text spells the same without the blanks around it. -/
theorem spells_trim_iff
    {part : List Char}
    {n : Nat} :
    Spells (String.ofList (Text.trim part)) n ↔
      Spells (String.ofList part) n := by
  simp only [Spells, String.toList_ofList]
  constructor
  · rintro ⟨s, hAround, hNumber⟩
    exact ⟨s, (Text.surrounds_trim part).trans hAround,
      hNumber⟩
  · rintro ⟨s, hAround, hNumber⟩
    refine ⟨s, ?_, hNumber⟩
    rw [Text.trim_of_surrounds hAround
      s.isBlank_of_mem_chars]
    exact Text.Surrounds.refl _

------------------------------------------------------------
-- Reading
------------------------------------------------------------

theorem parse_of_spells
    {text : String}
    {v : Version}
    (hSpells : Spells text v.number) :
    parse text = .ok v := by
  simp only [parse, spells_iff.mp hSpells, if_pos v.bounded]
  exact ofNat_eq_ok_iff.mpr rfl

/- Zero is refused by its own text, without what is around. -/
theorem parse_of_spells_zero
    {text : String}
    (hSpells : Spells text 0) :
    parse text = .error (.version "0") := by
  simp only [parse, spells_iff.mp hSpells]
  rfl

theorem parse_of_not_spells
    {text : String}
    (hNone : ∀ n < 2 ^ 32, ¬Spells text n) :
    parse text = .error (.version text) := by
  cases hRead : unsigned?
      ((Text.trim text.toList).dropWhile isMark) with
  | none => simp only [parse, hRead]
  | some n =>
      have hLarge : ¬n < 0x100000000 := fun hSmall =>
        hNone n hSmall (spells_iff.mpr hRead)
      simp only [parse, hRead, if_neg hLarge]

/- A version, zero, or no number of 32 bits is spelled. -/
theorem spells_cases (text : String) :
    (∃ v : Version, Spells text v.number) ∨
      Spells text 0 ∨ ∀ n < 2 ^ 32, ¬Spells text n := by
  by_cases hSome : ∃ n < 2 ^ 32, Spells text n
  · rcases hSome with ⟨n, hSmall, hSpells⟩
    rcases Nat.eq_zero_or_pos n with rfl | hPositive
    · exact .inr (.inl hSpells)
    · exact .inl ⟨⟨n, hPositive, hSmall⟩, hSpells⟩
  · refine .inr (.inr ?_)
    intro n hSmall hSpells
    exact hSome ⟨n, hSmall, hSpells⟩

/- The texts of a version are those that spell its number. -/
theorem parse_eq_ok_iff
    {text : String}
    {v : Version} :
    parse text = .ok v ↔ Spells text v.number := by
  refine ⟨?_, parse_of_spells⟩
  intro hParse
  rcases spells_cases text with
    ⟨w, hSpells⟩ | hZero | hNone
  · rw [parse_of_spells hSpells] at hParse
    rwa [← Except.ok.inj hParse]
  · rw [parse_of_spells_zero hZero] at hParse
    cases hParse
  · rw [parse_of_not_spells hNone] at hParse
    cases hParse

------------------------------------------------------------
-- Display
------------------------------------------------------------

theorem display_toList (v : Version) :
    v.display.toList = 'v' :: Nat.toDigits 10 v.number := by
  rw [display, String.toList_append]
  simp [toString]

/- The spelling that versions are shown with. -/
def shown (v : Version) : Spelling where
  marks := ['v']
  signed := false
  digits := Nat.toDigits 10 v.number
  areMarks := List.forall_mem_singleton.mpr (.inl rfl)
  areDigits := fun _ hMem =>
    Nat.isDigit_of_mem_toDigits (by decide) (by decide) hMem
  hasDigits := Nat.toDigits_ne_nil

theorem number_shown (v : Version) :
    v.shown.number = v.number := by
  rw [Spelling.number, ← ofDigits_eq_decimal]
  exact Json.Number.ofDigits_toDigits v.number

/- A version is read back from its text. -/
@[simp] theorem parse_display (v : Version) :
    parse v.display = .ok v := by
  refine parse_of_spells ⟨v.shown, ?_, v.number_shown⟩
  rw [display_toList]
  exact Text.Surrounds.refl _

/- A version is known from its text. -/
theorem display_injective
    {v w : Version}
    (hEqual : v.display = w.display) :
    v = w := by
  have hParse := congrArg parse hEqual
  rw [parse_display, parse_display] at hParse
  exact Except.ok.inj hParse

------------------------------------------------------------
-- Words
------------------------------------------------------------

/- The word of a number, if there is one. -/
def wordOf? (n : Nat) : Option UInt32 :=
  if n < 2 ^ 32 then some (UInt32.ofNat n) else none

/- The product of two words, if it is a word. -/
def product? (a b : UInt32) : Option UInt32 :=
  if a.toBitVec.umulOverflow b.toBitVec then none
  else some (a * b)

/- The sum of two words, if it is a word. -/
def sum? (a b : UInt32) : Option UInt32 :=
  if a.toBitVec.uaddOverflow b.toBitVec then none
  else some (a + b)

/- A word with one more digit, if product and sum are words. -/
def push? (word : UInt32) (c : Char) : Option UInt32 := do
  sum? (← product? word 10) (UInt32.ofNat (digitValue c))

/- The digits of a spelling as a word, read one by one. -/
def Spelling.word? (s : Spelling) : Option UInt32 :=
  s.digits.foldlM push? 0

theorem wordOf?_eq_some_iff
    {n : Nat}
    {word : UInt32} :
    wordOf? n = some word ↔ word.toNat = n := by
  rw [wordOf?, Option.ite_none_right_eq_some,
    Option.some.injEq]
  constructor
  · rintro ⟨hSmall, rfl⟩
    exact UInt32.toNat_ofNat_of_lt' hSmall
  · rintro rfl
    exact ⟨word.toNat_lt, UInt32.ofNat_toNat⟩

/- There is no word beyond a number that has none. -/
theorem wordOf?_eq_none_of_le
    {m n : Nat}
    (hNone : wordOf? m = none)
    (hLess : m ≤ n) :
    wordOf? n = none := by
  cases hWord : wordOf? n with
  | none => rfl
  | some word =>
      have hSmall := word.toNat_lt
      rw [wordOf?_eq_some_iff.mp hWord] at hSmall
      rw [wordOf?, if_pos (hLess.trans_lt hSmall)] at hNone
      cases hNone

/- What has not overflowed is the word of the exact result. -/
theorem checked_eq_wordOf?
    {n : Nat}
    {word : UInt32}
    (hWord : UInt32.ofNat n = word) :
    (if decide (2 ^ 32 ≤ n) then none else some word) =
      wordOf? n := by
  rw [wordOf?, hWord]
  by_cases hSmall : n < 2 ^ 32
  · rw [decide_eq_false (Nat.not_le.mpr hSmall),
      if_pos hSmall]
    rfl
  · rw [decide_eq_true (Nat.not_lt.mp hSmall),
      if_neg hSmall]
    rfl

theorem product?_eq (a b : UInt32) :
    product? a b = wordOf? (a.toNat * b.toNat) := by
  have hWord : UInt32.ofNat (a.toNat * b.toNat) = a * b := by
    rw [UInt32.ofNat_mul, UInt32.ofNat_toNat,
      UInt32.ofNat_toNat]
  exact checked_eq_wordOf? hWord

theorem sum?_eq (a b : UInt32) :
    sum? a b = wordOf? (a.toNat + b.toNat) := by
  have hWord : UInt32.ofNat (a.toNat + b.toNat) = a + b := by
    rw [UInt32.ofNat_add, UInt32.ofNat_toNat,
      UInt32.ofNat_toNat]
  exact checked_eq_wordOf? hWord

/- The value of any character is a word. -/
theorem digitValue_lt (c : Char) :
    digitValue c < 2 ^ 32 := by
  have hCode : c.toNat < 2 ^ 32 := c.val.toNat_lt
  unfold digitValue
  omega

/-
  One more digit leads to the word of the number with that
  digit: if the product is no word, the number is none either.
-/
theorem push?_eq
    (word : UInt32)
    (c : Char) :
    push? word c = wordOf? (append word.toNat c) := by
  have hDigit :
      (UInt32.ofNat (digitValue c)).toNat = digitValue c :=
    UInt32.toNat_ofNat_of_lt' (digitValue_lt c)
  have hProduct : product? word 10 = wordOf? (word.toNat * 10) :=
    product?_eq word 10
  have hNumber : append word.toNat c =
      word.toNat * 10 + digitValue c := by
    rw [append, Nat.mul_comm]
    rfl
  rw [push?, hProduct, hNumber]
  cases hWord : wordOf? (word.toNat * 10) with
  | none =>
      exact (wordOf?_eq_none_of_le hWord
        (Nat.le_add_right _ _)).symm
  | some product =>
      calc sum? product (UInt32.ofNat (digitValue c))
          = wordOf? (product.toNat +
              (UInt32.ofNat (digitValue c)).toNat) :=
            sum?_eq _ _
        _ = wordOf? (word.toNat * 10 + digitValue c) := by
            rw [wordOf?_eq_some_iff.mp hWord, hDigit]

theorem le_foldl_append
    (digits : List Char)
    (n : Nat) :
    n ≤ digits.foldl append n := by
  induction digits generalizing n with
  | nil => exact Nat.le_refl n
  | cons c rest ih =>
      have hNext : n ≤ append n c := by
        unfold append
        omega
      exact hNext.trans (ih (append n c))

/-
  By induction on the digits: the word read so far is that of
  the number so far, and once there is no word, no digit can
  bring the number back.
-/
theorem foldlM_push?
    (digits : List Char)
    (word : UInt32) :
    digits.foldlM push? word =
      wordOf? (digits.foldl append word.toNat) := by
  induction digits generalizing word with
  | nil => exact (wordOf?_eq_some_iff.mpr rfl).symm
  | cons c rest ih =>
      rw [List.foldlM_cons, push?_eq, List.foldl_cons]
      cases hWord : wordOf? (append word.toNat c) with
      | none =>
          exact (wordOf?_eq_none_of_le hWord
            (le_foldl_append rest _)).symm
      | some next =>
          rw [← wordOf?_eq_some_iff.mp hWord]
          exact ih next

/- Reading in words never yields a word of another number. -/
theorem Spelling.word?_eq_some_iff
    {s : Spelling}
    {word : UInt32} :
    s.word? = some word ↔ word.toNat = s.number := by
  have hNumber :
      s.digits.foldl append (0 : UInt32).toNat = s.number :=
    ofDigits_eq_decimal s.digits
  rw [word?, foldlM_push?, hNumber, wordOf?_eq_some_iff]

------------------------------------------------------------
-- Lists
------------------------------------------------------------

/- A list is read when each item of it is. -/
theorem mapM_eq_ok_iff
    {ε α β : Type}
    {f : α → Except ε β}
    {xs : List α}
    {ys : List β} :
    xs.mapM f = .ok ys ↔
      List.Forall₂ (fun x y => f x = .ok y) xs ys := by
  induction xs generalizing ys with
  | nil =>
      rw [List.forall₂_nil_left_iff]
      constructor
      · intro hRead
        cases hRead
        rfl
      · rintro rfl
        rfl
  | cons x xs ih =>
      rw [List.mapM_cons, List.forall₂_cons_left_iff]
      cases hFirst : f x with
      | error e => simp [bind, Except.bind]
      | ok y =>
          cases hRest : xs.mapM f with
          | error e => simp [bind, Except.bind, ← ih, hRest]
          | ok rest =>
              simp [bind, Except.bind, pure, Except.pure,
                ← ih, hRest, eq_comm]

/-
  A list with commas is read as some versions just if its
  parts that are not blank spell them, one after the other.
-/
theorem parseList_eq_ok_iff
    {text : String}
    {versions : List Version} :
    parseList text = .ok versions ↔
      List.Forall₂
        (fun part v => Spells (String.ofList part) v.number)
        ((Text.splitAt ',' text.toList).filter fun part =>
          !Text.isAllBlank part)
        versions := by
  have hKept : ∀ part : List Char,
      decide (Text.trim part ≠ []) = !Text.isAllBlank part := by
    intro part
    rw [Bool.eq_iff_iff, decide_eq_true_eq, ne_eq,
      Text.trim_eq_nil_iff, Bool.not_eq_true',
      Bool.not_eq_true]
  simp only [parseList, List.filter_map, mapM_eq_ok_iff,
    List.forall₂_map_left_iff, parse_eq_ok_iff,
    spells_trim_iff, Function.comp_def, hKept]

------------------------------------------------------------
-- All Texts
------------------------------------------------------------

/-
  A text is read as a version just if it spells a number that
  a version may have, and then it is the version of that
  number. Every other text is refused: zero by its own text
  and all else by the whole of it. What a version is shown as
  is read as that version. And to read digits in words, with
  each product and each sum checked, leads to the same
  versions.
-/
theorem parse_iff_spells :
    (∀ text n, (∃ v, parse text = .ok v ∧ v.number = n) ↔
      Spells text n ∧ 1 ≤ n ∧ n ≤ 2 ^ 32 - 1) ∧
    (∀ text,
      (¬∃ n, Spells text n ∧ 1 ≤ n ∧ n ≤ 2 ^ 32 - 1) ↔
        Spells text 0 ∧
            parse text = .error (.version "0") ∨
          ¬Spells text 0 ∧
            parse text = .error (.version text)) ∧
    (∀ v : Version, parse v.display = .ok v) ∧
    ∀ text v, parse text = .ok v ↔
      ∃ s : Spelling, Text.Surrounds text.toList s.chars ∧
        s.word? = some (UInt32.ofNat v.number) := by
  refine ⟨?_, ?_, parse_display, ?_⟩
  · intro text n
    constructor
    · rintro ⟨v, hParse, rfl⟩
      exact ⟨parse_eq_ok_iff.mp hParse, v.positive,
        Nat.le_pred_of_lt v.bounded⟩
    · rintro ⟨hSpells, hPositive, hMost⟩
      have hBounded : n < 2 ^ 32 := by omega
      exact ⟨⟨n, hPositive, hBounded⟩,
        parse_of_spells hSpells, rfl⟩
  · intro text
    constructor
    · intro hNone
      rcases spells_cases text with
        ⟨v, hSpells⟩ | hZero | hOther
      · exact absurd ⟨v.number, hSpells, v.positive,
          Nat.le_pred_of_lt v.bounded⟩ hNone
      · exact .inl ⟨hZero, parse_of_spells_zero hZero⟩
      · exact .inr ⟨hOther 0 (by decide),
          parse_of_not_spells hOther⟩
    · rintro hRefused ⟨n, hSpells, hPositive, hMost⟩
      have hBounded : n < 2 ^ 32 := by omega
      have hParse : parse text = .ok ⟨n, hPositive, hBounded⟩ :=
        parse_of_spells hSpells
      rcases hRefused with ⟨-, hError⟩ | ⟨-, hError⟩ <;>
        · rw [hError] at hParse
          cases hParse
  · intro text v
    have hWord : ∀ s : Spelling,
        s.word? = some (UInt32.ofNat v.number) ↔
          s.number = v.number := by
      intro s
      rw [Spelling.word?_eq_some_iff,
        UInt32.toNat_ofNat_of_lt' v.bounded, eq_comm]
    simp only [parse_eq_ok_iff, Spells, hWord]

example :
    parse " vV+007\u3000" = .ok ⟨7, by decide, by decide⟩ := by
  decide +kernel

end Version

end Federation
