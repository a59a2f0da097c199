import Federation.Proofs.Json.Number
import Federation.Proofs.Text
import Mathlib.Tactic.SplitIfs

/-
  Printing and scanning: the tokens of a value are those that
  the scanner finds in its indented text.

  Main declarations:
    * `Json.IsPrintable`
    * `Json.tokens`
    * `Json.Scanner.scan_indentedChars`
    * `Json.Token.scan_indented`
-/

namespace Federation

namespace Json

------------------------------------------------------------
-- Printable Values
------------------------------------------------------------

/-
  A value without floats and with integers of 64 bits only,
  in which no more than a number of arrays and objects are
  nested.
-/
inductive IsPrintable : (depth : Nat) → Json → Prop where
| null {depth} : IsPrintable depth .null
| bool {depth} (b : Bool) : IsPrintable depth (.bool b)
| integer {depth} {n : Int} :
    integerInRange n = true → IsPrintable depth (.integer n)
| string {depth} (s : String) : IsPrintable depth (.string s)
| array {depth} {items : List Json} :
    (∀ item ∈ items, IsPrintable depth item) →
    IsPrintable (depth + 1) (.array items)
| object {depth} {members : List (String × Json)} :
    (∀ m ∈ members, IsPrintable depth m.2) →
    IsPrintable (depth + 1) (.object members)

------------------------------------------------------------
-- Tokens of Values
------------------------------------------------------------

mutual

/- The tokens of a value in the order of its text. -/
def tokens : Json → List Token
| .array (item :: items) =>
    .openBracket :: (tokens item ++ itemTokens items)
| .object ((key, value) :: members) =>
    .openBrace :: .text (some key) :: .colon ::
      (tokens value ++ memberTokens members)
| .string s => [.text (some s)]
| .array [] => [.openBracket, .closeBracket]
| .object [] => [.openBrace, .closeBrace]
| .null => [.scalar (some .null)]
| .bool b => [.scalar (some (.bool b))]
| .integer n => [.scalar (some (.integer n))]
| .float x => [.scalar (some (.float x))]

/- The tokens after the first item, with the bracket. -/
def itemTokens : List Json → List Token
| [] => [.closeBracket]
| item :: items => .comma :: (tokens item ++ itemTokens items)

/- The tokens after the first member, with the brace. -/
def memberTokens : List (String × Json) → List Token
| [] => [.closeBrace]
| (key, value) :: members =>
    .comma :: .text (some key) :: .colon ::
      (tokens value ++ memberTokens members)

end

namespace Scanner

------------------------------------------------------------
-- Scanning On
------------------------------------------------------------

/- The tokens that a scanner has found at the text's end. -/
def scanOn
    (s : Scanner)
    (cs : List Char) : Option (List Token) :=
  (cs.foldlM push s).bind finish

@[simp] theorem scanOn_cons
    (s : Scanner)
    (c : Char)
    (rest : List Char) :
    scanOn s (c :: rest) =
      (push s c).bind fun next => scanOn next rest := by
  rw [scanOn, List.foldlM_cons]
  cases push s c <;> rfl

/- A text in front of which a bare word may end. -/
def EndsWord (rest : List Char) : Prop :=
  ∀ c ∈ rest.head?, isBare c = false

theorem endsWord_cons
    {c : Char}
    (rest : List Char)
    (hEnd : isBare c = false) :
    EndsWord (c :: rest) := by
  intro d hHead
  cases hHead
  exact hEnd

------------------------------------------------------------
-- Bare Words
------------------------------------------------------------

theorem pushIdle_of_isBare
    (seen : List Token)
    {c : Char}
    (hBare : isBare c = true) :
    pushIdle seen c = some ⟨.bare [c], seen⟩ := by
  have hOther : ∀ d, isBare d = false → c ≠ d := by
    intro d hEnd hEq
    rw [hEq, hEnd] at hBare
    cases hBare
  have hSpace : isSpace c = false := by
    simp [isSpace, hOther ' ' (by decide),
      hOther '\n' (by decide), hOther '\r' (by decide),
      hOther '\t' (by decide)]
  simp [pushIdle, hSpace, hOther '"' (by decide), hBare]

theorem scanOn_bare
    {word : List Char}
    (rest : List Char)
    (reversed : List Char)
    (seen : List Token)
    (hWord : ∀ c ∈ word, isBare c = true) :
    scanOn ⟨.bare reversed, seen⟩ (word ++ rest) =
      scanOn ⟨.bare (word.reverse ++ reversed), seen⟩
        rest := by
  induction word generalizing reversed with
  | nil => rfl
  | cons c word ih =>
      rw [List.forall_mem_cons] at hWord
      rw [List.cons_append, scanOn_cons, push]
      simp [hWord.1, ih (c :: reversed) hWord.2]

/- A word becomes its token where the word ends. -/
theorem scanOn_bare_end
    {word : List Char}
    {token : Token}
    {rest : List Char}
    (seen : List Token)
    (hToken : Token.ofBare? word = some token)
    (hEnd : EndsWord rest) :
    scanOn ⟨.bare word.reverse, seen⟩ rest =
      scanOn ⟨.idle, token :: seen⟩ rest := by
  cases rest with
  | nil => simp [scanOn, finish, hToken]
  | cons c rest =>
      have hOther : isBare c = false := hEnd c rfl
      simp [push, hOther, hToken]

theorem scanOn_word
    {word : List Char}
    {token : Token}
    {rest : List Char}
    (seen : List Token)
    (hWord : ∀ c ∈ word, isBare c = true)
    (hSome : word ≠ [])
    (hToken : Token.ofBare? word = some token)
    (hEnd : EndsWord rest) :
    scanOn ⟨.idle, seen⟩ (word ++ rest) =
      scanOn ⟨.idle, token :: seen⟩ rest := by
  rw [← scanOn_bare_end seen hToken hEnd]
  cases word with
  | nil => exact absurd rfl hSome
  | cons c word =>
      rw [List.forall_mem_cons] at hWord
      have hFirst :
          push ⟨.idle, seen⟩ c = some ⟨.bare [c], seen⟩ :=
        pushIdle_of_isBare seen hWord.1
      rw [List.cons_append, scanOn_cons, hFirst,
        Option.bind_some, scanOn_bare rest [c] seen hWord.2,
        List.reverse_cons]

------------------------------------------------------------
-- Strings
------------------------------------------------------------

theorem unitOf?_ofUnit
    {n : Nat}
    (hControl : n < 0x20) :
    unitOf? (Hex.ofUnit n).toList.reverse = some n := by
  have hAll : ∀ m < 0x20,
      unitOf? (Hex.ofUnit m).toList.reverse = some m := by
    decide
  exact hAll n hControl

/- A unit is read back from its four digits. -/
theorem scanOn_unit
    {a b c d : Char}
    {unit : Nat}
    (units : List Nat)
    (seen : List Token)
    (rest : List Char)
    (hUnit : unitOf? [d, c, b, a] = some unit) :
    scanOn ⟨.text units, seen⟩
        ('\\' :: 'u' :: a :: b :: c :: d :: rest) =
      scanOn ⟨.text (unit :: units), seen⟩ rest := by
  have hBack : '\\' ≠ '"' := by decide
  simp [push, hBack, hUnit]

/- A letter after a backslash stands for a character. -/
theorem scanOn_letter
    {letter c : Char}
    (units : List Nat)
    (seen : List Token)
    (rest : List Char)
    (hLetter : letter ≠ 'u')
    (hEscaped : escaped? letter = some c) :
    scanOn ⟨.text units, seen⟩ ('\\' :: letter :: rest) =
      scanOn ⟨.text (c.toNat :: units), seen⟩ rest := by
  have hBack : '\\' ≠ '"' := by decide
  simp [push, hBack, hLetter, hEscaped]

theorem scanOn_escape
    (units : List Nat)
    (seen : List Token)
    (c : Char)
    (rest : List Char) :
    scanOn ⟨.text units, seen⟩ (escape c ++ rest) =
      scanOn ⟨.text ((Text.unitsOf c).reverse ++ units), seen⟩
        rest := by
  have hUnits : c.toNat < 0x80 →
      (Text.unitsOf c).reverse ++ units =
        c.toNat :: units := by
    intro hAscii
    rw [Text.unitsOf, if_pos (by omega)]
    rfl
  unfold escape
  split_ifs with hQuote hBack hB hF hN hR hT hControl
  · subst hQuote
    exact scanOn_letter units seen rest (by decide) rfl
  · subst hBack
    exact scanOn_letter units seen rest (by decide) rfl
  · subst hB
    exact scanOn_letter units seen rest (by decide) rfl
  · subst hF
    exact scanOn_letter units seen rest (by decide) rfl
  · subst hN
    exact scanOn_letter units seen rest (by decide) rfl
  · subst hR
    exact scanOn_letter units seen rest (by decide) rfl
  · subst hT
    exact scanOn_letter units seen rest (by decide) rfl
  · have hDigits := unitOf?_ofUnit hControl
    rw [Hex.ofUnit, String.toList_ofList] at hDigits ⊢
    rw [hUnits (by omega)]
    exact scanOn_unit units seen rest hDigits
  · simp [push, hQuote, hBack, hControl]

theorem scanOn_escaped
    (cs : List Char)
    (units : List Nat)
    (seen : List Token)
    (rest : List Char) :
    scanOn ⟨.text units, seen⟩ (cs.flatMap escape ++ rest) =
      scanOn
        ⟨.text ((cs.flatMap Text.unitsOf).reverse ++ units),
          seen⟩ rest := by
  induction cs generalizing units with
  | nil => rfl
  | cons c cs ih =>
      rw [List.flatMap_cons, List.append_assoc,
        scanOn_escape, ih]
      simp

/- A text is read back from the string it is printed as. -/
theorem scanOn_quote
    (s : String)
    (seen : List Token)
    (rest : List Char) :
    scanOn ⟨.idle, seen⟩ (quote s ++ rest) =
      scanOn ⟨.idle, .text (some s) :: seen⟩ rest := by
  have hOpen : push ⟨.idle, seen⟩ '"' =
      some ⟨.text [], seen⟩ := rfl
  have hText :
      Text.ofUnits?
          ((s.toList.flatMap Text.unitsOf).reverse ++
            []).reverse = some s := by
    simp
  rw [quote, List.cons_append, scanOn_cons, hOpen,
    Option.bind_some, List.append_assoc, scanOn_escaped,
    List.singleton_append, scanOn_cons, push]
  simp only [hText, if_true, Option.bind_some]

------------------------------------------------------------
-- White Space and Marks
------------------------------------------------------------

theorem scanOn_newline
    (level : Nat)
    (seen : List Token)
    (rest : List Char) :
    scanOn ⟨.idle, seen⟩ (newline level ++ rest) =
      scanOn ⟨.idle, seen⟩ rest := by
  have hSpace : ∀ (c : Char) (rest : List Char),
      isSpace c = true →
      scanOn ⟨.idle, seen⟩ (c :: rest) =
        scanOn ⟨.idle, seen⟩ rest := by
    intro c rest hBlank
    simp [push, pushIdle, hBlank]
  rw [newline, List.cons_append, hSpace _ _ rfl]
  induction 2 * level with
  | zero => rfl
  | succ count ih =>
      rw [List.replicate_succ, List.cons_append,
        hSpace _ _ rfl, ih]

theorem scanOn_mark
    {c : Char}
    {token : Token}
    (seen : List Token)
    (rest : List Char)
    (hMark : pushIdle seen c = some ⟨.idle, token :: seen⟩) :
    scanOn ⟨.idle, seen⟩ (c :: rest) =
      scanOn ⟨.idle, token :: seen⟩ rest := by
  rw [scanOn_cons, push, hMark]
  rfl

/- The key of a member stands before a colon and a space. -/
theorem scanOn_key
    (key : String)
    (seen : List Token)
    (rest : List Char) :
    scanOn ⟨.idle, seen⟩ (quote key ++ ':' :: ' ' :: rest) =
      scanOn ⟨.idle, .colon :: .text (some key) :: seen⟩
        rest := by
  have hSpace : ∀ seen : List Token,
      push ⟨.idle, seen⟩ ' ' = some ⟨.idle, seen⟩ :=
    fun _ => rfl
  rw [scanOn_quote, scanOn_mark _ _ rfl, scanOn_cons, hSpace,
    Option.bind_some]

------------------------------------------------------------
-- Values
------------------------------------------------------------

theorem endsWord_newline
    (level : Nat)
    (rest : List Char) :
    EndsWord (newline level ++ rest) :=
  endsWord_cons _ rfl

theorem endsWord_indentedItems
    (level : Nat)
    (items : List Json)
    (rest : List Char) :
    EndsWord (indentedItems level items ++ rest) := by
  cases items with
  | nil =>
      rw [indentedItems, List.append_assoc]
      exact endsWord_newline level _
  | cons item items =>
      rw [indentedItems]
      exact endsWord_cons _ rfl

theorem endsWord_indentedMembers
    (level : Nat)
    (members : List (String × Json))
    (rest : List Char) :
    EndsWord (indentedMembers level members ++ rest) := by
  cases members with
  | nil =>
      rw [indentedMembers, List.append_assoc]
      exact endsWord_newline level _
  | cons member members =>
      rw [indentedMembers]
      exact endsWord_cons _ rfl

mutual

/- The tokens of a value are found in its text. -/
theorem scan_indentedChars :
    (value : Json) → {depth : Nat} →
      IsPrintable depth value → (level : Nat) →
      (seen : List Token) → (rest : List Char) →
      EndsWord rest →
      scanOn ⟨.idle, seen⟩
          (indentedChars level value ++ rest) =
        scanOn ⟨.idle, (tokens value).reverse ++ seen⟩ rest
| .null, _, _, level, seen, rest, hEnd => by
    rw [indentedChars, tokens]
    exact scanOn_word seen (List.all_eq_true.mp rfl)
      (by decide) rfl hEnd
| .bool true, _, _, level, seen, rest, hEnd => by
    rw [indentedChars, tokens]
    exact scanOn_word seen (List.all_eq_true.mp rfl)
      (by decide) rfl hEnd
| .bool false, _, _, level, seen, rest, hEnd => by
    rw [indentedChars, tokens]
    exact scanOn_word seen (List.all_eq_true.mp rfl)
      (by decide) rfl hEnd
| .integer n, _, .integer hRange, level, seen, rest, hEnd => by
    rw [indentedChars, tokens]
    exact scanOn_word seen
      (fun _ hMem => isBare_of_mem_integerText hMem)
      (integerText_ne_nil n)
      (Token.ofBare?_integerText hRange) hEnd
| .string s, _, _, level, seen, rest, _ => by
    rw [indentedChars, tokens]
    exact scanOn_quote s seen rest
| .array [], _, _, level, seen, rest, _ => by
    rw [indentedChars, tokens, List.cons_append,
      List.singleton_append, scanOn_mark seen _ rfl,
      scanOn_mark _ _ rfl]
    rfl
| .object [], _, _, level, seen, rest, _ => by
    rw [indentedChars, tokens, List.cons_append,
      List.singleton_append, scanOn_mark seen _ rfl,
      scanOn_mark _ _ rfl]
    rfl
| .array (item :: items), _, .array hItems, level, seen, rest,
    _ => by
    rw [List.forall_mem_cons] at hItems
    rw [indentedChars, tokens, List.cons_append,
      scanOn_mark seen _ rfl, List.append_assoc,
      scanOn_newline, List.append_assoc,
      scan_indentedChars item hItems.1 _ _ _
        (endsWord_indentedItems level items rest),
      scan_indentedItems items hItems.2]
    simp
| .object ((key, value) :: members), _, .object hMembers,
    level, seen, rest, _ => by
    rw [List.forall_mem_cons] at hMembers
    rw [indentedChars, tokens, List.cons_append,
      scanOn_mark seen _ rfl, List.append_assoc,
      scanOn_newline, List.append_assoc, List.cons_append,
      List.cons_append, scanOn_key, List.append_assoc,
      scan_indentedChars value hMembers.1 _ _ _
        (endsWord_indentedMembers level members rest),
      scan_indentedMembers members hMembers.2]
    simp

theorem scan_indentedItems :
    (items : List Json) → {depth : Nat} →
      (∀ item ∈ items, IsPrintable depth item) →
      (level : Nat) → (seen : List Token) →
      (rest : List Char) →
      scanOn ⟨.idle, seen⟩
          (indentedItems level items ++ rest) =
        scanOn ⟨.idle, (itemTokens items).reverse ++ seen⟩
          rest
| [], _, _, level, seen, rest => by
    rw [indentedItems, itemTokens, List.append_assoc,
      scanOn_newline, List.singleton_append,
      scanOn_mark seen _ rfl]
    rfl
| item :: items, _, hItems, level, seen, rest => by
    rw [List.forall_mem_cons] at hItems
    rw [indentedItems, itemTokens, List.cons_append,
      scanOn_mark seen _ rfl, List.append_assoc,
      scanOn_newline, List.append_assoc,
      scan_indentedChars item hItems.1 _ _ _
        (endsWord_indentedItems level items rest),
      scan_indentedItems items hItems.2]
    simp

theorem scan_indentedMembers :
    (members : List (String × Json)) → {depth : Nat} →
      (∀ m ∈ members, IsPrintable depth m.2) →
      (level : Nat) → (seen : List Token) →
      (rest : List Char) →
      scanOn ⟨.idle, seen⟩
          (indentedMembers level members ++ rest) =
        scanOn
          ⟨.idle, (memberTokens members).reverse ++ seen⟩ rest
| [], _, _, level, seen, rest => by
    rw [indentedMembers, memberTokens, List.append_assoc,
      scanOn_newline, List.singleton_append,
      scanOn_mark seen _ rfl]
    rfl
| (key, value) :: members, _, hMembers, level, seen, rest => by
    rw [List.forall_mem_cons] at hMembers
    rw [indentedMembers, memberTokens, List.cons_append,
      scanOn_mark seen _ rfl, List.append_assoc,
      scanOn_newline, List.append_assoc, List.cons_append,
      List.cons_append, scanOn_key, List.append_assoc,
      scan_indentedChars value hMembers.1 _ _ _
        (endsWord_indentedMembers level members rest),
      scan_indentedMembers members hMembers.2]
    simp

end

end Scanner

/- At the end of a text the tokens before it have been found. -/
theorem Scanner.scanOn_end (found : List Token) :
    scanOn ⟨.idle, found.reverse ++ []⟩ [] = some found := by
  simp [scanOn, finish]

/- The indented text of a value has its tokens. -/
theorem Token.scan_indented
    {depth : Nat}
    {value : Json}
    (hPrintable : IsPrintable depth value) :
    Token.scan (indented value).toList =
      some (tokens value) := by
  have hScan := Scanner.scan_indentedChars value hPrintable 0
    [] [] (fun _ hHead => by cases hHead)
  rw [List.append_nil, Scanner.scanOn_end] at hScan
  rw [indented, String.toList_ofList]
  exact hScan

end Json

end Federation
