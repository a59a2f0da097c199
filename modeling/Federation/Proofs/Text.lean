import Federation.Text.Blank
import Federation.Text.Unicode
import Mathlib.Data.List.TakeWhile
import Mathlib.Tactic.SplitIfs

/-
  Texts and what they are written with. Every text is read
  back from its bytes and from the units of 16 bits of its
  characters. The bytes of a text of ASCII are its characters,
  and the order of texts, of character after character, is the
  order of their bytes: UTF-8 writes greater characters with
  greater bytes. What is trimmed off a text is blank, and a
  text without blanks is what remains of every text in which
  it stands among blanks.

  Main declarations:
    * `Text.ofBytes?_toBytes`
    * `Text.toBytes_of_ofBytes?`
    * `Text.toBytes_inj`
    * `Text.toBytes_eq_flatMap`
    * `Text.toBytes_ofList`
    * `Text.toBytes_lt_iff`
    * `Text.ofUnits?_unitsOf`
    * `Text.Surrounds`
    * `Text.trim_of_surrounds`
-/

namespace Federation

namespace Text

------------------------------------------------------------
-- Bytes
------------------------------------------------------------

@[simp] theorem ofBytes?_toBytes (text : String) :
    ofBytes? (toBytes text) = some text := by
  have hBytes :
      (⟨(toBytes text).toArray⟩ : ByteArray) =
        text.toByteArray := by
    simp [toBytes]
  have hValid := text.isValidUTF8
  unfold ofBytes? String.fromUTF8?
  rw [hBytes, dif_pos hValid]
  rfl

/- Bytes that are read as a text are the bytes of that text. -/
theorem toBytes_of_ofBytes?
    {bytes : Bytes}
    {text : String}
    (hRead : ofBytes? bytes = some text) :
    toBytes text = bytes := by
  unfold ofBytes? String.fromUTF8? at hRead
  split at hRead
  · cases hRead
    simp [toBytes, String.fromUTF8]
  · cases hRead

/- Different texts have different bytes. -/
theorem toBytes_inj
    {a b : String}
    (hEqual : toBytes a = toBytes b) :
    a = b := by
  have hTexts := congrArg ofBytes? hEqual
  rw [ofBytes?_toBytes, ofBytes?_toBytes] at hTexts
  exact Option.some.inj hTexts

/- The bytes of a text are those of its characters in turn. -/
theorem toBytes_eq_flatMap (text : String) :
    toBytes text =
      text.toList.flatMap String.utf8EncodeChar := by
  have hBytes : toBytes (String.ofList text.toList) =
      text.toList.flatMap String.utf8EncodeChar := by
    simp only [toBytes, String.toByteArray_ofList,
      List.utf8Encode, List.data_toByteArray,
      List.toList_toArray]
  rwa [String.ofList_toList] at hBytes

/- The byte of a character of ASCII. -/
theorem utf8EncodeChar_of_ascii
    {c : Char}
    (hAscii : c.toNat < 128) :
    String.utf8EncodeChar c = [UInt8.ofNat c.toNat] := by
  have hLow : c.toNat ≤ 127 := by omega
  simp [String.utf8EncodeChar, hLow]

theorem toBytes_ofList
    {cs : List Char}
    (hAscii : ∀ c ∈ cs, c.toNat < 128) :
    toBytes (String.ofList cs) =
      cs.map fun c => UInt8.ofNat c.toNat := by
  induction cs with
  | nil => simp [toBytes]
  | cons c rest ih =>
      have hHead := utf8EncodeChar_of_ascii
        (hAscii c List.mem_cons_self)
      have hTail := ih fun d hd =>
        hAscii d (List.mem_cons_of_mem _ hd)
      simp only [toBytes, String.toByteArray_ofList]
        at hTail ⊢
      rw [List.utf8Encode_cons, List.utf8Encode_singleton,
        hHead]
      simp [hTail]

------------------------------------------------------------
-- Order of Characters
------------------------------------------------------------

/-
  A smaller character has smaller bytes, whatever comes after
  the two: they differ in a byte that both have. Two characters
  of four bytes are compared byte by byte, all others by
  arithmetic.
-/
theorem utf8EncodeChar_append_lt
    {c d : Char}
    (hLess : c < d)
    (rest others : Bytes) :
    String.utf8EncodeChar c ++ rest <
      String.utf8EncodeChar d ++ others := by
  have hVal : c.val.toNat < d.val.toNat := hLess
  have hBound : d.val.toNat < 0x110000 := by
    rcases d.valid with hLow | hHigh
    · exact Nat.lt_trans hLow (by decide)
    · exact hHigh.2
  simp only [String.utf8EncodeChar]
  generalize c.val.toNat = m at *
  generalize d.val.toNat = n at *
  split_ifs <;>
    simp only [List.cons_append, List.nil_append,
      List.cons_lt_cons_iff, UInt8.lt_iff_toNat_lt,
      ← UInt8.toNat_inj, UInt8.toNat_ofNat']
  -- Four bytes on both sides are compared one by one.
  rotate_right
  · by_cases hFirst : m / 262144 < n / 262144
    · left
      omega
    · refine Or.inr ⟨by omega, ?_⟩
      by_cases hSecond : m / 4096 < n / 4096
      · left
        omega
      · omega
  all_goals omega

------------------------------------------------------------
-- Order of Texts
------------------------------------------------------------

/- By induction on the characters that the two share. -/
theorem flatMap_utf8EncodeChar_lt
    {cs ds : List Char}
    (hLess : cs < ds) :
    cs.flatMap String.utf8EncodeChar <
      ds.flatMap String.utf8EncodeChar := by
  induction cs generalizing ds with
  | nil =>
      cases ds with
      | nil => exact absurd hLess (List.lt_irrefl [])
      | cons d ds =>
          rw [List.flatMap_nil, List.flatMap_cons]
          cases hBytes : String.utf8EncodeChar d with
          | nil =>
              exact absurd hBytes String.utf8EncodeChar_ne_nil
          | cons byte bytes => exact List.nil_lt_cons _ _
  | cons c cs ih =>
      cases ds with
      | nil => exact absurd hLess (List.not_lt_nil _)
      | cons d ds =>
          rw [List.flatMap_cons, List.flatMap_cons]
          rcases List.cons_lt_cons_iff.mp hLess with
            hHead | ⟨rfl, hTail⟩
          · exact utf8EncodeChar_append_lt hHead _ _
          · exact List.append_left_lt (ih hTail)

/- Texts are in order just as their bytes are. -/
theorem toBytes_lt_iff {first second : String} :
    toBytes first < toBytes second ↔ first < second := by
  rw [toBytes_eq_flatMap, toBytes_eq_flatMap]
  refine ⟨?_, flatMap_utf8EncodeChar_lt⟩
  intro hBytes
  rcases Std.lt_trichotomy first second with
    hLess | rfl | hGreater
  · exact hLess
  · exact absurd hBytes (List.lt_irrefl _)
  · exact absurd (flatMap_utf8EncodeChar_lt hGreater)
      (List.lt_asymm hBytes)

------------------------------------------------------------
-- Units of 16 Bits
------------------------------------------------------------

/- A character of one unit is no surrogate. -/
theorem not_surrogate
    {c : Char}
    (hSmall : c.toNat < 0x10000) :
    isLowSurrogate c.toNat = false ∧
      isHighSurrogate c.toNat = false := by
  have hValid : c.toNat < 0xD800 ∨
      0xDFFF < c.toNat ∧ c.toNat < 0x110000 := c.valid
  simp only [isLowSurrogate, isHighSurrogate,
    Bool.and_eq_false_iff, decide_eq_false_iff_not]
  omega

/- A pair of surrogates stands for its character. -/
theorem ofSurrogates_unitsOf
    {c : Char}
    (hLarge : 0x10000 ≤ c.toNat) :
    ofSurrogates (0xD800 + (c.toNat - 0x10000) / 0x400)
        (0xDC00 + (c.toNat - 0x10000) % 0x400) = c := by
  have hSum :
      0x10000 +
          (0xD800 + (c.toNat - 0x10000) / 0x400 - 0xD800) *
            0x400 +
          (0xDC00 + (c.toNat - 0x10000) % 0x400 - 0xDC00) =
        c.toNat := by
    omega
  rw [ofSurrogates, hSum, Char.ofNat_toNat]

theorem surrogates_of_large
    {c : Char}
    (hLarge : 0x10000 ≤ c.toNat) :
    isLowSurrogate (0xD800 + (c.toNat - 0x10000) / 0x400) =
        false ∧
      isHighSurrogate (0xD800 + (c.toNat - 0x10000) / 0x400) =
        true ∧
      isLowSurrogate (0xDC00 + (c.toNat - 0x10000) % 0x400) =
        true := by
  have hValid : c.toNat < 0xD800 ∨
      0xDFFF < c.toNat ∧ c.toNat < 0x110000 := c.valid
  simp only [isLowSurrogate, isHighSurrogate,
    Bool.and_eq_false_iff, Bool.and_eq_true,
    decide_eq_false_iff_not, decide_eq_true_eq]
  omega

/- The units of a character stand for it, whatever follows. -/
theorem unitsToChars?_unitsOf
    (seen : List Char)
    (c : Char)
    (rest : List Nat) :
    unitsToChars? seen (unitsOf c ++ rest) =
      unitsToChars? (c :: seen) rest := by
  by_cases hSmall : c.toNat < 0x10000
  · rcases not_surrogate hSmall with ⟨hLow, hHigh⟩
    rw [unitsOf, if_pos hSmall, List.singleton_append,
      unitsToChars?.eq_def]
    simp [hLow, hHigh]
  · have hLarge : 0x10000 ≤ c.toNat := by omega
    rcases surrogates_of_large hLarge with
      ⟨hNotLow, hHigh, hLow⟩
    have hUnits : unitsOf c =
        [0xD800 + (c.toNat - 0x10000) / 0x400,
          0xDC00 + (c.toNat - 0x10000) % 0x400] :=
      if_neg hSmall
    rw [hUnits, List.cons_append, List.singleton_append,
      unitsToChars?.eq_def]
    simp only [hNotLow, hHigh, hLow, if_true,
      Bool.false_eq_true, if_false,
      ofSurrogates_unitsOf hLarge]

theorem unitsToChars?_flatMap
    (seen cs : List Char) :
    unitsToChars? seen (cs.flatMap unitsOf) =
      some (seen.reverse ++ cs) := by
  induction cs generalizing seen with
  | nil => simp [unitsToChars?]
  | cons c rest ih =>
      rw [List.flatMap_cons, unitsToChars?_unitsOf, ih]
      simp

@[simp] theorem ofUnits?_unitsOf (text : String) :
    ofUnits? (text.toList.flatMap unitsOf) = some text := by
  rw [ofUnits?, unitsToChars?_flatMap]
  simp

------------------------------------------------------------
-- Texts Without Blanks
------------------------------------------------------------

/- A text that begins with no blank is not trimmed in front. -/
theorem trimStart_cons
    {c : Char}
    (rest : List Char)
    (hBlank : isBlank c = false) :
    trimStart (c :: rest) = c :: rest := by
  rw [trimStart, List.dropWhile_cons]
  simp [hBlank]

theorem dropWhile_isBlank_eq_self
    {cs : List Char}
    (hNone : ∀ c ∈ cs, isBlank c = false) :
    cs.dropWhile isBlank = cs := by
  cases cs with
  | nil => rfl
  | cons c rest =>
      exact trimStart_cons rest (hNone c List.mem_cons_self)

------------------------------------------------------------
-- Blanks Around a Text
------------------------------------------------------------

/- A text in which another one stands among blanks. -/
def Surrounds (whole inner : List Char) : Prop :=
  ∃ before after, whole = before ++ (inner ++ after) ∧
    (∀ c ∈ before, isBlank c = true) ∧
    ∀ c ∈ after, isBlank c = true

/- There may be no blanks at all. -/
theorem Surrounds.refl (cs : List Char) :
    Surrounds cs cs :=
  ⟨[], [], (List.append_nil cs).symm, nofun, nofun⟩

theorem Surrounds.trans
    {whole middle inner : List Char}
    (hOuter : Surrounds whole middle)
    (hInner : Surrounds middle inner) :
    Surrounds whole inner := by
  rcases hOuter with ⟨before, after, rfl, hBefore, hAfter⟩
  rcases hInner with ⟨front, back, rfl, hFront, hBack⟩
  refine ⟨before ++ front, back ++ after,
    by simp only [List.append_assoc], ?_, ?_⟩
  · exact List.forall_mem_append.mpr ⟨hBefore, hFront⟩
  · exact List.forall_mem_append.mpr ⟨hBack, hAfter⟩

/- What is trimmed off a text is blank. -/
theorem surrounds_trim (cs : List Char) :
    Surrounds cs (trim cs) := by
  have hStart : cs = cs.takeWhile isBlank ++ trimStart cs :=
    List.takeWhile_append_dropWhile.symm
  have hEnd : trimStart cs = trim cs ++
      ((trimStart cs).reverse.takeWhile isBlank).reverse := by
    rw [trim, trimEnd, ← List.reverse_append,
      List.takeWhile_append_dropWhile, List.reverse_reverse]
  refine ⟨_, _, hStart.trans (congrArg _ hEnd), ?_, ?_⟩
  · intro c hMem
    exact List.mem_takeWhile_imp hMem
  · intro c hMem
    exact List.mem_takeWhile_imp (List.mem_reverse.mp hMem)

theorem trim_of_surrounds
    {whole inner : List Char}
    (hAround : Surrounds whole inner)
    (hNone : ∀ c ∈ inner, isBlank c = false) :
    trim whole = inner := by
  rcases hAround with ⟨before, after, rfl, hBefore, hAfter⟩
  have hReverse : ∀ c ∈ after.reverse, isBlank c = true :=
    fun c hMem => hAfter c (List.mem_reverse.mp hMem)
  have hInner : ∀ c ∈ inner.reverse, isBlank c = false :=
    fun c hMem => hNone c (List.mem_reverse.mp hMem)
  have hEnd : trimEnd (inner ++ after) = inner := by
    rw [trimEnd, List.reverse_append,
      List.dropWhile_append_of_pos hReverse,
      dropWhile_isBlank_eq_self hInner, List.reverse_reverse]
  rw [trim, trimStart, List.dropWhile_append_of_pos hBefore]
  cases inner with
  | nil =>
      have hEmpty : ([] ++ after).dropWhile isBlank = [] :=
        List.dropWhile_eq_nil_iff.mpr hAfter
      rw [hEmpty]
      rfl
  | cons c rest =>
      have hHead := hNone c List.mem_cons_self
      rw [List.cons_append,
        List.dropWhile_cons_of_neg (by simp [hHead]),
        ← List.cons_append, hEnd]

theorem trim_eq_self
    {cs : List Char}
    (hNone : ∀ c ∈ cs, isBlank c = false) :
    trim cs = cs :=
  trim_of_surrounds (Surrounds.refl cs) hNone

/- Nothing remains of blanks, and only of them. -/
theorem trim_eq_nil_iff {cs : List Char} :
    trim cs = [] ↔ isAllBlank cs = true := by
  rw [isAllBlank, List.all_eq_true]
  constructor
  · intro hNil
    rcases surrounds_trim cs with
      ⟨before, after, hText, hBefore, hAfter⟩
    rw [hNil, List.nil_append] at hText
    rw [hText]
    exact List.forall_mem_append.mpr ⟨hBefore, hAfter⟩
  · intro hBlank
    have hAround : Surrounds cs [] :=
      ⟨cs, [], (List.append_nil cs).symm, hBlank, nofun⟩
    exact trim_of_surrounds hAround nofun

end Text

end Federation
