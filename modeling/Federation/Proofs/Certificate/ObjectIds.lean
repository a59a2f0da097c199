import Federation.Certificate.ObjectName
import Federation.Proofs.Json.Number
import Federation.Proofs.Table
import Federation.Proofs.Text
import Mathlib.Algebra.Group.Nat.Defs
import Mathlib.Data.List.Nodup

/-
  The texts of object identifiers. Identifiers with numbers
  that are whole, and written with no more bytes than needed,
  are shown by different texts and name attributes by
  different names, none of which has a comma, a plus or an
  equals sign.

  Main declarations:
    * `ObjectId.IsPlain`
    * `ObjectId.display_inj`
    * `ObjectId.attributeName_inj`
    * `ObjectId.isNameChar_attributeName`
-/

namespace Federation

------------------------------------------------------------
-- Texts with Separators
------------------------------------------------------------

/-
  Texts that are not empty and have no separator in them are
  told from each other after they are put together.
-/
theorem intercalate_inj
    {sep : Char}
    {xs ys : List (List Char)}
    (hFirst : ∀ x ∈ xs, x ≠ [] ∧ sep ∉ x)
    (hSecond : ∀ y ∈ ys, y ≠ [] ∧ sep ∉ y)
    (hEqual : [sep].intercalate xs = [sep].intercalate ys) :
    xs = ys := by
  have hNonempty : ∀ {zs : List (List Char)},
      (∀ z ∈ zs, z ≠ [] ∧ sep ∉ z) → zs ≠ [] →
        [sep].intercalate zs ≠ [] := by
    intro zs hAll hSome hNone
    cases zs with
    | nil => exact hSome rfl
    | cons z rest =>
        have hz := (hAll z List.mem_cons_self).1
        cases rest <;> simp_all
  by_cases hxs : xs = []
  · by_cases hys : ys = []
    · rw [hxs, hys]
    · rw [hxs] at hEqual
      exact absurd hEqual.symm (hNonempty hSecond hys)
  · by_cases hys : ys = []
    · rw [hys] at hEqual
      exact absurd hEqual (hNonempty hFirst hxs)
    · have hSplit := congrArg (List.splitOn sep) hEqual
      rwa [List.splitOn_intercalate sep
          (fun x hx => (hFirst x hx).2) hxs,
        List.splitOn_intercalate sep
          (fun y hy => (hSecond y hy).2) hys] at hSplit

/- A separator stands before every text but the first. -/
theorem intercalate_cons
    {α : Type}
    (sep x : List α)
    (xs : List (List α)) :
    sep.intercalate (x :: xs) =
      x ++ xs.flatMap (sep ++ ·) := by
  induction xs generalizing x with
  | nil => simp
  | cons y rest ih =>
      rw [List.intercalate_cons_cons, ih, List.flatMap_cons]
      simp

/- Every character is in one of the texts, or separates them. -/
theorem mem_intercalate
    {sep c : Char}
    {xs : List (List Char)}
    (hMem : c ∈ [sep].intercalate xs) :
    c = sep ∨ ∃ x ∈ xs, c ∈ x := by
  cases xs with
  | nil => simp [List.intercalate] at hMem
  | cons x rest =>
      rw [intercalate_cons, List.mem_append] at hMem
      rcases hMem with hHere | hLater
      · exact Or.inr ⟨x, List.mem_cons_self, hHere⟩
      · rcases List.mem_flatMap.mp hLater with ⟨y, hy, hChar⟩
        rcases List.mem_cons.mp hChar with hSep | hChar
        · exact Or.inl hSep
        · exact Or.inr ⟨y, List.mem_cons_of_mem _ hy, hChar⟩

namespace ObjectId

------------------------------------------------------------
-- Plain Identifiers
------------------------------------------------------------

/-
  Groups of seven bits are those of whole numbers, none of
  which starts with a group of zeros. A number starts at the
  first group, or one is going on.
-/
def hasPlainGroups (starts : Bool) : Bytes → Bool
| [] => starts
| b :: rest =>
    !(starts && b == 128) && hasPlainGroups (b.toNat < 128) rest

/- The numbers after the first two are whole, and no longer than needed. -/
def IsPlain (id : ObjectId) : Prop :=
  hasPlainGroups true (id.content.drop 1) = true

instance (id : ObjectId) : Decidable id.IsPlain := by
  unfold IsPlain
  infer_instance

------------------------------------------------------------
-- Numbers
------------------------------------------------------------

theorem highGroups_eq (n : Nat) :
    highGroups n =
      if n < 128 then []
      else
        highGroups (n / 128) ++
          [UInt8.ofNat (128 + n / 128 % 128)] := by
  rw [highGroups]

theorem highGroups_add
    {n r : Nat}
    (hLow : r < 128) :
    highGroups (n * 128 + r) = highGroups (n * 128) := by
  have hSame : (n * 128 + r) / 128 = n * 128 / 128 := by omega
  rw [highGroups_eq (n * 128 + r), highGroups_eq (n * 128),
    hSame]
  by_cases hZero : n = 0
  · rw [if_pos (by omega), if_pos (by omega)]
  · rw [if_neg (by omega), if_neg (by omega)]

theorem highGroups_mul
    {n : Nat}
    (hPositive : 0 < n) :
    highGroups (n * 128) =
      highGroups n ++ [UInt8.ofNat (128 + n % 128)] := by
  have hSame : n * 128 / 128 = n := by omega
  rw [highGroups_eq (n * 128), if_neg (by omega), hSame]

/- The group that a byte stands for, with its highest bit. -/
theorem ofNat_group (b : UInt8) :
    UInt8.ofNat
        ((if b.toNat < 128 then 0 else 128) + b.toNat % 128) =
      b := by
  have hByte := b.toNat_lt
  have hSame : (if b.toNat < 128 then 0 else 128) +
      b.toNat % 128 = b.toNat := by
    split <;> omega
  rw [hSame, UInt8.ofNat_toNat]

/- A byte that is low ends the groups of a number. -/
theorem groups_of_low
    {b : UInt8}
    (value : Nat)
    (hLow : b.toNat < 128) :
    groups (value * 128 + b.toNat % 128) =
      highGroups (value * 128) ++ [b] := by
  have hByte := ofNat_group b
  rw [if_pos hLow, Nat.zero_add] at hByte
  have hGroup : (value * 128 + b.toNat % 128) % 128 =
      b.toNat % 128 := by omega
  rw [groups, highGroups_add (by omega), hGroup, hByte]

/- A byte that is high goes on with them. -/
theorem highGroups_of_high
    {value : Nat}
    {b : UInt8}
    (hHigh : ¬b.toNat < 128)
    (hPositive : 0 < value * 128 + b.toNat % 128) :
    highGroups ((value * 128 + b.toNat % 128) * 128) =
      highGroups (value * 128) ++ [b] := by
  have hByte := ofNat_group b
  rw [if_neg hHigh] at hByte
  have hGroup : (value * 128 + b.toNat % 128) % 128 =
      b.toNat % 128 := by omega
  rw [highGroups_mul hPositive, highGroups_add (by omega),
    hGroup, hByte]

/-
  A number that is going on is not zero, since its first group
  is not one of zeros.
-/
theorem positive_of_hasPlainGroups
    {value : Nat}
    {b : UInt8}
    {rest : Bytes}
    (hPlain :
      hasPlainGroups (value == 0) (b :: rest) = true)
    (hHigh : ¬b.toNat < 128) :
    0 < value * 128 + b.toNat % 128 := by
  by_contra hZero
  have hEight : (128 : UInt8).toNat = 128 := rfl
  have hByte := b.toNat_lt
  have hValue : value = 0 := by omega
  have hGroup : b = 128 := UInt8.toNat_inj.mp (by omega)
  simp [hValue, hGroup, hasPlainGroups] at hPlain

/-
  The groups of the numbers that plain groups stand for are
  these groups again. Of a number that is going on, the groups
  that have been read come first.
-/
theorem flatMap_groups_readArcs
    (value : Nat)
    (bytes : Bytes)
    (hPlain : hasPlainGroups (value == 0) bytes = true) :
    (readArcs value bytes).flatMap groups =
      highGroups (value * 128) ++ bytes := by
  induction value, bytes using readArcs.induct with
  | case1 value =>
      have hZero : value = 0 := by
        simpa [hasPlainGroups] using hPlain
      subst hZero
      simp [readArcs, highGroups_eq 0]
  | case2 value b =>
      have hLast : b.toNat < 128 := by
        simp only [hasPlainGroups, Bool.and_eq_true,
          decide_eq_true_eq] at hPlain
        exact hPlain.2
      rw [readArcs, List.flatMap_singleton,
        groups_of_low value hLast]
  | case3 value b rest hMore hLow ih =>
      have hRest : hasPlainGroups (0 == 0) rest = true := by
        simp only [hasPlainGroups, Bool.and_eq_true] at hPlain
        rw [decide_eq_true hLow] at hPlain
        exact hPlain.2
      rw [readArcs.eq_3 value b rest hMore, if_pos hLow,
        List.flatMap_cons, ih hRest, groups_of_low value hLow]
      simp [highGroups_eq 0]
  | case4 value b rest hMore next hHigh ih =>
      have hPositive : 0 < next :=
        positive_of_hasPlainGroups hPlain hHigh
      have hRest : hasPlainGroups (next == 0) rest = true := by
        have hGoing : (next == 0) = false := by
          simpa using hPositive.ne'
        simp only [hasPlainGroups, Bool.and_eq_true] at hPlain
        rw [hGoing]
        simpa [hHigh] using hPlain.2
      rw [readArcs.eq_3 value b rest hMore, if_neg hHigh,
        ih hRest, highGroups_of_high hHigh hPositive,
        List.append_assoc, List.singleton_append]

theorem readArcs_inj
    {bytes others : Bytes}
    (hFirst : hasPlainGroups true bytes = true)
    (hSecond : hasPlainGroups true others = true)
    (hEqual : readArcs 0 bytes = readArcs 0 others) :
    bytes = others := by
  have hBytes := flatMap_groups_readArcs 0 bytes hFirst
  have hOthers := flatMap_groups_readArcs 0 others hSecond
  rw [hEqual, hOthers] at hBytes
  exact (List.append_cancel_left hBytes).symm

/- One more group makes a number of one more group. -/
theorem lt_pow_succ
    {seen value : Nat}
    (b : UInt8)
    (hValue : value < 128 ^ seen) :
    value * 128 + b.toNat % 128 < 128 ^ (seen + 1) := by
  rw [Nat.pow_succ]
  omega

theorem lt_of_few_groups
    {seen value : Nat}
    (hValue : value < 128 ^ (seen + 1))
    (hFew : ¬mostGroups < seen + 1) :
    value < 0x10000000000000000 := by
  have hPower : 128 ^ (seen + 1) ≤ 128 ^ 9 :=
    Nat.pow_le_pow_right (by decide) (Nat.not_lt.mp hFew)
  omega

/- Whole numbers of few groups have 64 bits. -/
theorem readArcs_lt
    {starts : Bool}
    (seen value : Nat)
    (bytes : Bytes)
    (hShort : hasLongArc seen bytes = false)
    (hPlain : hasPlainGroups starts bytes = true)
    (hValue : value < 128 ^ seen) :
    ∀ arc ∈ readArcs value bytes,
      arc < 0x10000000000000000 := by
  induction bytes generalizing seen value starts with
  | nil => simp [readArcs]
  | cons b rest ih =>
      have hNext := lt_pow_succ b hValue
      simp only [hasPlainGroups, Bool.and_eq_true] at hPlain
      by_cases hLow : b.toNat < 128
      · simp only [hasLongArc, if_pos hLow,
          Bool.or_eq_false_iff, decide_eq_false_iff_not]
          at hShort
        have hArc := lt_of_few_groups hNext hShort.1
        have hRest := ih 0 0 hShort.2 hPlain.2 (by simp)
        cases rest with
        | nil =>
            simp only [readArcs, List.mem_singleton]
            rintro arc rfl
            exact hArc
        | cons c rest =>
            rw [readArcs.eq_3 value b (c :: rest) (by simp),
              if_pos hLow]
            intro arc hMem
            rcases List.mem_cons.mp hMem with rfl | hLater
            · exact hArc
            · exact hRest arc hLater
      · simp only [hasLongArc, if_neg hLow] at hShort
        have hRest := ih (seen + 1) _ hShort hPlain.2 hNext
        cases rest with
        | nil => simp [hasPlainGroups, hLow] at hPlain
        | cons c rest =>
            rw [readArcs.eq_3 value b (c :: rest) (by simp),
              if_neg hLow]
            exact hRest

theorem arcs_lt
    {id : ObjectId}
    (hPlain : id.IsPlain)
    (hShort : hasLongArc 0 (id.content.drop 1) = false) :
    ∀ arc ∈ id.arcs, arc < 0x10000000000000000 := by
  rcases id with ⟨content⟩
  cases content with
  | nil => simp [arcs]
  | cons b rest =>
      have hRest := readArcs_lt 0 0 rest hShort hPlain (by simp)
      have hByte := b.toNat_lt
      unfold arcs
      dsimp only
      split
      · simp
      · simp only [List.mem_cons]
        rintro arc (rfl | rfl | hLater)
        · omega
        · omega
        · exact hRest arc hLater

/- The first byte stands for two numbers that it is told by. -/
theorem arcs_inj
    {id other : ObjectId}
    (hFirst : id.IsPlain)
    (hSecond : other.IsPlain)
    (hEqual : id.arcs = other.arcs) :
    id = other := by
  rcases id with ⟨content⟩
  rcases other with ⟨others⟩
  have hHead : ∀ b c : UInt8,
      b.toNat / 40 = c.toNat / 40 →
      b.toNat % 40 = c.toNat % 40 → b = c := by
    intro b c hHigh hLow
    apply UInt8.toNat_inj.mp
    omega
  cases content with
  | nil =>
      cases others with
      | nil => rfl
      | cons c rest =>
          simp only [arcs] at hEqual
          split at hEqual <;> simp at hEqual
  | cons b rest =>
      cases others with
      | nil =>
          simp only [arcs] at hEqual
          split at hEqual <;> simp at hEqual
      | cons c more =>
          simp only [arcs] at hEqual
          split at hEqual
          · split at hEqual
            · simp_all
            · simp at hEqual
          · split at hEqual
            · simp at hEqual
            · simp only [List.cons.injEq] at hEqual
              rcases hEqual with ⟨hHigh, hLow, hRest⟩
              have hMore : rest = more :=
                readArcs_inj hFirst hSecond hRest
              rw [hHead b c hHigh hLow, hMore]

------------------------------------------------------------
-- Texts
------------------------------------------------------------

/- The numbers of an identifier with points between them. -/
def dottedText (id : ObjectId) : List Char :=
  ['.'].intercalate
    (id.arcs.map fun arc =>
      Nat.toDigits 10 (arc % 0x10000000000000000))

/- The bytes of an identifier with blanks between them. -/
def hexText (id : ObjectId) : List Char :=
  [' '].intercalate
    (id.content.map fun b => Hex.encodeWith Hex.lowerDigits [b])

theorem display_toList (id : ObjectId) :
    id.display.toList =
      if hasLongArc 0 (id.content.drop 1) then id.hexText
      else id.dottedText := by
  unfold display
  split
  · rw [String.toList_intercalate, List.map_map, hexText]
    congr 1
    apply List.map_congr_left
    intro b _
    exact String.toList_ofList
  · rw [String.toList_intercalate, List.map_map, dottedText]
    congr 1
    apply List.map_congr_left
    intro arc _
    simp [toString]

theorem isDigit_of_mem_dotted
    {id : ObjectId}
    {x : List Char}
    (hMem : x ∈ id.arcs.map fun arc =>
      Nat.toDigits 10 (arc % 0x10000000000000000)) :
    x ≠ [] ∧ ∀ c ∈ x, Json.Number.isDigit c = true := by
  rcases List.mem_map.mp hMem with ⟨arc, -, rfl⟩
  constructor
  · exact Nat.toDigits_ne_nil
  · intro c hChar
    exact Json.Number.isDigit_of_mem_toDigits hChar

theorem dottedText_inj
    {id other : ObjectId}
    (hFirst : ∀ arc ∈ id.arcs, arc < 0x10000000000000000)
    (hSecond : ∀ arc ∈ other.arcs, arc < 0x10000000000000000)
    (hEqual : id.dottedText = other.dottedText) :
    id.arcs = other.arcs := by
  have hApart : ∀ {id : ObjectId}, ∀ x ∈
      id.arcs.map fun arc =>
        Nat.toDigits 10 (arc % 0x10000000000000000),
      x ≠ [] ∧ '.' ∉ x := by
    intro id x hMem
    rcases isDigit_of_mem_dotted hMem with ⟨hSome, hDigits⟩
    refine ⟨hSome, fun hPoint => ?_⟩
    exact absurd (hDigits '.' hPoint) (by decide)
  -- The digits of a number below the bound give it back.
  have hBack : ∀ {id : ObjectId},
      (∀ arc ∈ id.arcs, arc < 0x10000000000000000) →
      (id.arcs.map fun arc => Nat.toDigits 10
          (arc % 0x10000000000000000)).map
        Json.Number.ofDigits = id.arcs := by
    intro id hBound
    rw [List.map_map]
    refine (List.map_congr_left ?_).trans (List.map_id _)
    intro arc hArc
    rw [Function.comp_apply, Json.Number.ofDigits_toDigits,
      Nat.mod_eq_of_lt (hBound arc hArc)]
    rfl
  have hTexts := congrArg (List.map Json.Number.ofDigits)
    (intercalate_inj hApart hApart hEqual)
  rwa [hBack hFirst, hBack hSecond] at hTexts

theorem encodeWith_byte (b : UInt8) :
    Hex.encodeWith Hex.lowerDigits [b] =
      [ Hex.digit Hex.lowerDigits (b.toNat / 16),
        Hex.digit Hex.lowerDigits (b.toNat % 16) ] :=
  rfl

theorem digit_mem (value : Nat) :
    Hex.digit Hex.lowerDigits value ∈ Hex.lowerDigits := by
  unfold Hex.digit
  rw [List.getD_eq_getElem?_getD]
  cases hDigit : Hex.lowerDigits[value]? with
  | none => decide
  | some c => exact List.mem_of_getElem? hDigit

theorem hexText_inj
    {id other : ObjectId}
    (hEqual : id.hexText = other.hexText) :
    id = other := by
  have hApart : ∀ {id : ObjectId}, ∀ x ∈
      id.content.map fun b =>
        Hex.encodeWith Hex.lowerDigits [b],
      x ≠ [] ∧ ' ' ∉ x := by
    intro id x hMem
    rcases List.mem_map.mp hMem with ⟨b, -, rfl⟩
    refine ⟨by simp [encodeWith_byte], ?_⟩
    rw [encodeWith_byte]
    simp only [List.mem_cons, List.not_mem_nil, or_false]
    rintro (hBlank | hBlank)
    · have hDigit := digit_mem (b.toNat / 16)
      rw [← hBlank] at hDigit
      exact absurd hDigit (by decide)
    · have hDigit := digit_mem (b.toNat % 16)
      rw [← hBlank] at hDigit
      exact absurd hDigit (by decide)
  have hDigit : ∀ i j : Fin 16,
      Hex.digit Hex.lowerDigits i =
        Hex.digit Hex.lowerDigits j → i = j := by
    decide
  have hByte : Function.Injective fun b : UInt8 =>
      Hex.encodeWith Hex.lowerDigits [b] := by
    intro b c hSame
    simp only [encodeWith_byte, List.cons.injEq, and_true]
      at hSame
    have hb := b.toNat_lt
    have hc := c.toNat_lt
    have hHigh := hDigit ⟨b.toNat / 16, by omega⟩
      ⟨c.toNat / 16, by omega⟩ hSame.1
    have hLow := hDigit ⟨b.toNat % 16, by omega⟩
      ⟨c.toNat % 16, by omega⟩ hSame.2
    simp only [Fin.mk.injEq] at hHigh hLow
    apply UInt8.toNat_inj.mp
    omega
  have hContent := hByte.list_map
    (intercalate_inj hApart hApart hEqual)
  rcases id with ⟨content⟩
  rcases other with ⟨others⟩
  exact congrArg ObjectId.mk hContent

/- Bytes with a blank between them are no numbers with points. -/
theorem hexText_ne_dottedText
    {id other : ObjectId}
    (hLong : hasLongArc 0 (id.content.drop 1) = true) :
    id.hexText ≠ other.dottedText := by
  intro hEqual
  have hBlank : ' ' ∈ id.hexText := by
    rcases id with ⟨_ | ⟨b, _ | ⟨c, rest⟩⟩⟩
    · simp [hasLongArc] at hLong
    · simp [hasLongArc] at hLong
    · rw [hexText, List.map_cons, List.map_cons,
        List.intercalate_cons_cons]
      simp
  rw [hEqual] at hBlank
  rcases mem_intercalate hBlank with hPoint | ⟨x, hx, hChar⟩
  · exact absurd hPoint (by decide)
  · have hDigit := (isDigit_of_mem_dotted hx).2 ' ' hChar
    exact absurd hDigit (by decide)

/- Plain identifiers with the same text are the same. -/
theorem display_inj
    {id other : ObjectId}
    (hFirst : id.IsPlain)
    (hSecond : other.IsPlain)
    (hEqual : id.display = other.display) :
    id = other := by
  have hTexts := congrArg String.toList hEqual
  rw [display_toList, display_toList] at hTexts
  cases hLong : hasLongArc 0 (id.content.drop 1) with
  | true =>
      rw [if_pos hLong] at hTexts
      cases hOther : hasLongArc 0 (other.content.drop 1) with
      | true =>
          rw [if_pos hOther] at hTexts
          exact hexText_inj hTexts
      | false =>
          rw [hOther, if_neg Bool.false_ne_true] at hTexts
          exact absurd hTexts (hexText_ne_dottedText hLong)
  | false =>
      rw [hLong, if_neg Bool.false_ne_true] at hTexts
      cases hOther : hasLongArc 0 (other.content.drop 1) with
      | true =>
          rw [if_pos hOther] at hTexts
          exact absurd hTexts.symm
            (hexText_ne_dottedText hOther)
      | false =>
          rw [hOther, if_neg Bool.false_ne_true] at hTexts
          exact arcs_inj hFirst hSecond
            (dottedText_inj (arcs_lt hFirst hLong)
              (arcs_lt hSecond hOther) hTexts)

------------------------------------------------------------
-- Names of Attributes
------------------------------------------------------------

/- A character that does not mark where a value begins or ends. -/
def isNameChar (c : Char) : Bool :=
  !(c == '=' || c == ',' || c == '+')

/- The text that an identifier without a name is shown by. -/
def numberedName (id : ObjectId) : String :=
  s!"OID({id.display})"

theorem numberedName_toList (id : ObjectId) :
    id.numberedName.toList =
      ['O', 'I', 'D', '('] ++ (id.display.toList ++ [')']) := by
  simp [numberedName, toString]

/- The bytes of a text, put together to one number. -/
def textNumber (text : String) : Nat :=
  (Text.toBytes text).foldl (fun n b => n * 256 + b.toNat) 0

/- The registered names are of different identifiers. -/
theorem names_nodup :
    ((abbreviations ++ registeredNames).map
      Prod.snd).Nodup := by
  -- Numbers are quicker to compare than texts.
  have hNumbers : (((abbreviations ++ registeredNames).map
      Prod.snd).map textNumber).Nodup := by
    decide +kernel
  exact hNumbers.of_map textNumber

/-
  No registered name has the byte of a mark in it, and none
  begins like the text of an identifier without a name.
-/
theorem names_are_names :
    ∀ entry ∈ abbreviations ++ registeredNames,
      (Text.toBytes entry.2).all
          (fun b => b ≠ 61 ∧ b ≠ 44 ∧ b ≠ 43) = true ∧
        (Text.toBytes entry.2).take 4 ≠ [79, 73, 68, 40] := by
  decide +kernel

theorem attributeName_cases (id : ObjectId) :
    (id, id.attributeName) ∈
        abbreviations ++ registeredNames ∨
      id.attributeName = id.numberedName := by
  unfold attributeName
  cases hName : (abbreviations ++ registeredNames).lookup id with
  | none => exact Or.inr rfl
  | some name => exact Or.inl (Table.mem_of_lookup hName)

theorem isNameChar_eq_false_iff {c : Char} :
    isNameChar c = false ↔ c = '=' ∨ c = ',' ∨ c = '+' := by
  simp only [isNameChar, Bool.not_eq_false', Bool.or_eq_true,
    beq_iff_eq, or_assoc]

theorem isNameChar_of_isDigit
    {c : Char}
    (hDigit : Json.Number.isDigit c = true) :
    isNameChar c = true := by
  by_contra hMark
  rw [Bool.not_eq_true, isNameChar_eq_false_iff] at hMark
  rcases hMark with rfl | rfl | rfl
  · exact absurd hDigit (by decide)
  · exact absurd hDigit (by decide)
  · exact absurd hDigit (by decide)

/- Without the bytes of marks, a text has no mark in it. -/
theorem isNameChar_of_toBytes
    {text : String}
    (hBytes : ∀ b ∈ Text.toBytes text,
      b ≠ 61 ∧ b ≠ 44 ∧ b ≠ 43) :
    ∀ c ∈ text.toList, isNameChar c = true := by
  intro c hChar
  have hOwn : ∀ b ∈ String.utf8EncodeChar c,
      b ≠ 61 ∧ b ≠ 44 ∧ b ≠ 43 := by
    intro b hb
    apply hBytes
    rw [Text.toBytes_eq_flatMap]
    exact List.mem_flatMap.mpr ⟨c, hChar, hb⟩
  by_contra hMark
  rw [Bool.not_eq_true, isNameChar_eq_false_iff] at hMark
  rcases hMark with rfl | rfl | rfl
  · exact (hOwn 61 (by decide)).1 rfl
  · exact (hOwn 44 (by decide)).2.1 rfl
  · exact (hOwn 43 (by decide)).2.2 rfl

/- Neither form of the text of an identifier has a mark in it. -/
theorem isNameChar_display (id : ObjectId) :
    ∀ c ∈ id.display.toList, isNameChar c = true := by
  have hHex : ∀ c ∈ Hex.lowerDigits, isNameChar c = true :=
    List.all_eq_true.mp (by decide)
  rw [display_toList]
  split
  · intro c hMem
    rcases mem_intercalate hMem with rfl | ⟨x, hx, hChar⟩
    · decide
    · rcases List.mem_map.mp hx with ⟨b, -, rfl⟩
      rw [encodeWith_byte] at hChar
      simp only [List.mem_cons, List.not_mem_nil, or_false]
        at hChar
      rcases hChar with rfl | rfl
      · exact hHex _ (digit_mem _)
      · exact hHex _ (digit_mem _)
  · intro c hMem
    rcases mem_intercalate hMem with rfl | ⟨x, hx, hChar⟩
    · decide
    · exact isNameChar_of_isDigit
        ((isDigit_of_mem_dotted hx).2 c hChar)

/- Names of attributes have no mark in them. -/
theorem isNameChar_attributeName (id : ObjectId) :
    ∀ c ∈ id.attributeName.toList, isNameChar c = true := by
  rcases attributeName_cases id with hEntry | hNumbered
  · apply isNameChar_of_toBytes
    simpa using (names_are_names _ hEntry).1
  · rw [hNumbered, numberedName_toList]
    simp only [List.mem_append]
    rintro c (hStart | hMiddle | hEnd)
    · exact List.all_eq_true.mp (by decide) c hStart
    · exact id.isNameChar_display c hMiddle
    · exact List.all_eq_true.mp (by decide) c hEnd

/- Plain attributes with the same name are the same. -/
theorem attributeName_inj
    {id other : ObjectId}
    (hFirst : id.IsPlain)
    (hSecond : other.IsPlain)
    (hEqual : id.attributeName = other.attributeName) :
    id = other := by
  have hApart : ∀ {entry : ObjectId × String} {id : ObjectId},
      entry ∈ abbreviations ++ registeredNames →
      entry.2 ≠ id.numberedName := by
    intro entry id hEntry hSame
    apply (names_are_names entry hEntry).2
    rw [hSame, Text.toBytes_eq_flatMap, numberedName_toList]
    rfl
  rcases attributeName_cases id with hEntry | hNumbered
  · rcases attributeName_cases other with hOther | hNumbered
    · have hSame := List.inj_on_of_nodup_map names_nodup
        hEntry hOther hEqual
      exact congrArg Prod.fst hSame
    · rw [hNumbered] at hEqual
      exact absurd hEqual (hApart hEntry)
  · rcases attributeName_cases other with hOther | hOther
    · rw [hNumbered] at hEqual
      exact absurd hEqual.symm (hApart hOther)
    · rw [hNumbered, hOther] at hEqual
      have hTexts := congrArg String.toList hEqual
      rw [numberedName_toList, numberedName_toList] at hTexts
      have hDisplay := List.append_cancel_right
        (List.append_cancel_left hTexts)
      exact display_inj hFirst hSecond
        (String.toList_injective hDisplay)

end ObjectId

end Federation
