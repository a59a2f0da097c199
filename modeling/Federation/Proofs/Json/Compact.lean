import Federation.Proofs.Json.Normal
import Federation.Proofs.Json.RoundTrip

/-
  The compact text of a value: the scanner finds the value's
  tokens in it, and no value has the tokens of another or
  begins with them. So a text belongs to one value only,
  however deeply it is nested.

  Main declarations:
    * `Json.depth`
    * `Json.Scanner.scan_compactChars`
    * `Json.tokens_append_inj`
    * `Json.compact_inj`
    * `Json.read?_compact`
-/

namespace Federation

namespace Json

------------------------------------------------------------
-- Depth
------------------------------------------------------------

mutual

/- How many arrays and objects are nested at most. -/
def depth : Json → Nat
| .array items => itemsDepth items + 1
| .object members => membersDepth members + 1
| .null => 0
| .bool _ => 0
| .integer _ => 0
| .float _ => 0
| .string _ => 0

/- The greatest depth of items. -/
def itemsDepth : List Json → Nat
| [] => 0
| item :: rest => max item.depth (itemsDepth rest)

/- The greatest depth of the values of members. -/
def membersDepth : List (String × Json) → Nat
| [] => 0
| (_, value) :: rest => max value.depth (membersDepth rest)

end

theorem depth_le_itemsDepth
    {item : Json}
    {items : List Json}
    (hMem : item ∈ items) :
    item.depth ≤ itemsDepth items := by
  induction items with
  | nil => cases hMem
  | cons first rest ih =>
      rw [itemsDepth]
      rcases List.mem_cons.mp hMem with rfl | hRest
      · exact Nat.le_max_left _ _
      · exact Nat.le_trans (ih hRest) (Nat.le_max_right _ _)

theorem depth_le_membersDepth
    {member : String × Json}
    {members : List (String × Json)}
    (hMem : member ∈ members) :
    member.2.depth ≤ membersDepth members := by
  induction members with
  | nil => cases hMem
  | cons first rest ih =>
      rw [membersDepth]
      rcases List.mem_cons.mp hMem with rfl | hRest
      · exact Nat.le_max_left _ _
      · exact Nat.le_trans (ih hRest) (Nat.le_max_right _ _)

------------------------------------------------------------
-- Scanning
------------------------------------------------------------

namespace Scanner

theorem endsWord_compactItems
    (items : List Json)
    (rest : List Char) :
    EndsWord (compactItems items ++ rest) := by
  cases items with
  | nil =>
      rw [compactItems]
      exact endsWord_cons _ rfl
  | cons item items =>
      rw [compactItems]
      exact endsWord_cons _ rfl

theorem endsWord_compactMembers
    (members : List (String × Json))
    (rest : List Char) :
    EndsWord (compactMembers members ++ rest) := by
  cases members with
  | nil =>
      rw [compactMembers]
      exact endsWord_cons _ rfl
  | cons member members =>
      rw [compactMembers]
      exact endsWord_cons _ rfl

/- The key of a member stands before a colon. -/
theorem scanOn_compactKey
    (key : String)
    (seen : List Token)
    (rest : List Char) :
    scanOn ⟨.idle, seen⟩ (quote key ++ ':' :: rest) =
      scanOn ⟨.idle, .colon :: .text (some key) :: seen⟩
        rest := by
  rw [scanOn_quote, scanOn_mark _ _ rfl]

/- What has no parts is written as it is in indented text. -/
theorem scan_compactLeaf
    {value : Json}
    {depth : Nat}
    {rest : List Char}
    (hSame : compactChars value = indentedChars 0 value)
    (hPrintable : IsPrintable depth value)
    (seen : List Token)
    (hEnd : EndsWord rest) :
    scanOn ⟨.idle, seen⟩ (compactChars value ++ rest) =
      scanOn ⟨.idle, (tokens value).reverse ++ seen⟩ rest := by
  rw [hSame]
  exact scan_indentedChars value hPrintable 0 seen rest hEnd

mutual

/- The tokens of a value are found in its compact text. -/
theorem scan_compactChars :
    (value : Json) → {depth : Nat} →
      IsPrintable depth value → (seen : List Token) →
      (rest : List Char) → EndsWord rest →
      scanOn ⟨.idle, seen⟩ (compactChars value ++ rest) =
        scanOn ⟨.idle, (tokens value).reverse ++ seen⟩ rest
| .array (item :: items), _, .array hItems, seen, rest, _ => by
    rw [List.forall_mem_cons] at hItems
    rw [compactChars, tokens, List.cons_append,
      scanOn_mark seen _ rfl, List.append_assoc,
      scan_compactChars item hItems.1 _ _
        (endsWord_compactItems items rest),
      scan_compactItems items hItems.2]
    simp
| .object ((key, value) :: members), _, .object hMembers, seen,
    rest, _ => by
    rw [List.forall_mem_cons] at hMembers
    rw [compactChars, tokens, List.cons_append,
      scanOn_mark seen _ rfl, List.append_assoc,
      List.cons_append, scanOn_compactKey, List.append_assoc,
      scan_compactChars value hMembers.1 _ _
        (endsWord_compactMembers members rest),
      scan_compactMembers members hMembers.2]
    simp
| .null, _, hPrintable, seen, rest, hEnd =>
    scan_compactLeaf (by rw [compactChars, indentedChars])
      hPrintable seen hEnd
| .bool true, _, hPrintable, seen, rest, hEnd =>
    scan_compactLeaf (by rw [compactChars, indentedChars])
      hPrintable seen hEnd
| .bool false, _, hPrintable, seen, rest, hEnd =>
    scan_compactLeaf (by rw [compactChars, indentedChars])
      hPrintable seen hEnd
| .integer _, _, hPrintable, seen, rest, hEnd =>
    scan_compactLeaf (by rw [compactChars, indentedChars])
      hPrintable seen hEnd
| .string _, _, hPrintable, seen, rest, hEnd =>
    scan_compactLeaf (by rw [compactChars, indentedChars])
      hPrintable seen hEnd
| .array [], _, hPrintable, seen, rest, hEnd =>
    scan_compactLeaf (by rw [compactChars, indentedChars])
      hPrintable seen hEnd
| .object [], _, hPrintable, seen, rest, hEnd =>
    scan_compactLeaf (by rw [compactChars, indentedChars])
      hPrintable seen hEnd

theorem scan_compactItems :
    (items : List Json) → {depth : Nat} →
      (∀ item ∈ items, IsPrintable depth item) →
      (seen : List Token) → (rest : List Char) →
      scanOn ⟨.idle, seen⟩ (compactItems items ++ rest) =
        scanOn ⟨.idle, (itemTokens items).reverse ++ seen⟩
          rest
| [], _, _, seen, rest => by
    rw [compactItems, itemTokens, List.singleton_append,
      scanOn_mark seen _ rfl]
    rfl
| item :: items, _, hItems, seen, rest => by
    rw [List.forall_mem_cons] at hItems
    rw [compactItems, itemTokens, List.cons_append,
      scanOn_mark seen _ rfl, List.append_assoc,
      scan_compactChars item hItems.1 _ _
        (endsWord_compactItems items rest),
      scan_compactItems items hItems.2]
    simp

theorem scan_compactMembers :
    (members : List (String × Json)) → {depth : Nat} →
      (∀ m ∈ members, IsPrintable depth m.2) →
      (seen : List Token) → (rest : List Char) →
      scanOn ⟨.idle, seen⟩ (compactMembers members ++ rest) =
        scanOn
          ⟨.idle, (memberTokens members).reverse ++ seen⟩ rest
| [], _, _, seen, rest => by
    rw [compactMembers, memberTokens, List.singleton_append,
      scanOn_mark seen _ rfl]
    rfl
| (key, value) :: members, _, hMembers, seen, rest => by
    rw [List.forall_mem_cons] at hMembers
    rw [compactMembers, memberTokens, List.cons_append,
      scanOn_mark seen _ rfl, List.append_assoc,
      List.cons_append, scanOn_compactKey, List.append_assoc,
      scan_compactChars value hMembers.1 _ _
        (endsWord_compactMembers members rest),
      scan_compactMembers members hMembers.2]
    simp

end

end Scanner

/- The compact text of a value has its tokens. -/
theorem Token.scan_compact
    {depth : Nat}
    {value : Json}
    (hPrintable : IsPrintable depth value) :
    Token.scan (compact value).toList =
      some (tokens value) := by
  have hScan := Scanner.scan_compactChars value hPrintable
    [] [] (fun _ hHead => by cases hHead)
  rw [List.append_nil, Scanner.scanOn_end] at hScan
  rw [compact, String.toList_ofList]
  exact hScan

------------------------------------------------------------
-- One Value for a Text
------------------------------------------------------------

/- The first token of a value's text. -/
def firstToken : Json → Token
| .array _ => .openBracket
| .object _ => .openBrace
| .string s => .text (some s)
| .null => .scalar (some .null)
| .bool b => .scalar (some (.bool b))
| .integer n => .scalar (some (.integer n))
| .float x => .scalar (some (.float x))

theorem tokens_eq_cons (value : Json) :
    tokens value = firstToken value :: (tokens value).tail := by
  cases value with
  | array items => cases items <;> simp [tokens, firstToken]
  | object members =>
      rcases members with _ | ⟨⟨_, _⟩, _⟩ <;>
        simp [tokens, firstToken]
  | null | bool _ | integer _ | float _ | string _ =>
      simp [tokens, firstToken]

theorem firstToken_eq_of_tokens
    {a b : Json}
    {rest others : List Token}
    (hEqual : tokens a ++ rest = tokens b ++ others) :
    firstToken a = firstToken b := by
  rw [tokens_eq_cons a, tokens_eq_cons b, List.cons_append,
    List.cons_append, List.cons.injEq] at hEqual
  exact hEqual.1

/- The first token of a leaf is all of it. -/
theorem tokens_append_inj_of_leaf
    {a b : Json}
    {rest others : List Token}
    (hArray : firstToken a ≠ .openBracket)
    (hObject : firstToken a ≠ .openBrace)
    (hEqual : tokens a ++ rest = tokens b ++ others) :
    a = b ∧ rest = others := by
  have hFirst := firstToken_eq_of_tokens hEqual
  have hSame : a = b := by
    cases a with
    | array items => exact absurd rfl hArray
    | object members => exact absurd rfl hObject
    | null | bool _ | integer _ | float _ | string _ =>
        cases b <;> simp [firstToken] at hFirst ⊢
        all_goals exact hFirst
  subst hSame
  exact ⟨rfl, List.append_cancel_left hEqual⟩

/- No value begins where an array or an object ends. -/
theorem tokens_append_ne
    {value : Json}
    {rest others : List Token}
    {t : Token}
    (hEnd : t = .closeBracket ∨ t = .closeBrace) :
    tokens value ++ rest ≠ t :: others := by
  intro hEqual
  rw [tokens_eq_cons value, List.cons_append,
    List.cons.injEq] at hEqual
  have hFirst := hEqual.1
  rcases hEnd with rfl | rfl <;>
    cases value <;> simp [firstToken] at hFirst

theorem exists_array_of_firstToken
    {value : Json}
    (hFirst : Token.openBracket = firstToken value) :
    ∃ items, value = .array items := by
  cases value with
  | array items => exact ⟨items, rfl⟩
  | _ => simp [firstToken] at hFirst

theorem exists_object_of_firstToken
    {value : Json}
    (hFirst : Token.openBrace = firstToken value) :
    ∃ members, value = .object members := by
  cases value with
  | object members => exact ⟨members, rfl⟩
  | _ => simp [firstToken] at hFirst

mutual

/-
  Where two lists begin with the tokens of values, they begin
  with the same value. By induction on the first one: its
  first token tells how the second one begins, and its parts
  end where those of the second one do.
-/
theorem tokens_append_inj :
    (a b : Json) → {rest others : List Token} →
      tokens a ++ rest = tokens b ++ others →
      a = b ∧ rest = others
| .array items, b, rest, others, hEqual => by
    rcases exists_array_of_firstToken
      (firstToken_eq_of_tokens hEqual) with ⟨targets, rfl⟩
    cases items with
    | nil =>
        cases targets with
        | nil => exact ⟨rfl, List.append_cancel_left hEqual⟩
        | cons target targets =>
            simp only [tokens, List.cons_append,
              List.cons.injEq, true_and,
              List.append_assoc] at hEqual
            exact absurd hEqual.symm
              (tokens_append_ne (Or.inl rfl))
    | cons item items =>
        cases targets with
        | nil =>
            simp only [tokens, List.cons_append,
              List.cons.injEq, true_and,
              List.append_assoc] at hEqual
            exact absurd hEqual
              (tokens_append_ne (Or.inl rfl))
        | cons target targets =>
            simp only [tokens, List.cons_append,
              List.cons.injEq, true_and,
              List.append_assoc] at hEqual
            rcases tokens_append_inj item target hEqual with
              ⟨rfl, hItems⟩
            rcases itemTokens_append_inj items targets hItems
              with ⟨rfl, hRest⟩
            exact ⟨rfl, hRest⟩
| .object members, b, rest, others, hEqual => by
    rcases exists_object_of_firstToken
      (firstToken_eq_of_tokens hEqual) with ⟨targets, rfl⟩
    rcases members with _ | ⟨⟨key, value⟩, members⟩
    · rcases targets with _ | ⟨⟨name, target⟩, targets⟩
      · exact ⟨rfl, List.append_cancel_left hEqual⟩
      · simp [tokens] at hEqual
    · rcases targets with _ | ⟨⟨name, target⟩, targets⟩
      · simp [tokens] at hEqual
      · simp only [tokens, List.cons_append, List.cons.injEq,
          true_and, List.append_assoc, Token.text.injEq,
          Option.some.injEq] at hEqual
        rcases hEqual with ⟨rfl, hEqual⟩
        rcases tokens_append_inj value target hEqual with
          ⟨rfl, hMembers⟩
        rcases memberTokens_append_inj members targets
          hMembers with ⟨rfl, hRest⟩
        exact ⟨rfl, hRest⟩
| .null, b, rest, others, hEqual =>
    tokens_append_inj_of_leaf nofun nofun hEqual
| .bool _, b, rest, others, hEqual =>
    tokens_append_inj_of_leaf nofun nofun hEqual
| .integer _, b, rest, others, hEqual =>
    tokens_append_inj_of_leaf nofun nofun hEqual
| .float _, b, rest, others, hEqual =>
    tokens_append_inj_of_leaf nofun nofun hEqual
| .string _, b, rest, others, hEqual =>
    tokens_append_inj_of_leaf nofun nofun hEqual

theorem itemTokens_append_inj :
    (items targets : List Json) →
      {rest others : List Token} →
      itemTokens items ++ rest = itemTokens targets ++ others →
      items = targets ∧ rest = others
| [], targets, rest, others, hEqual => by
    cases targets with
    | nil => exact ⟨rfl, List.append_cancel_left hEqual⟩
    | cons target targets => simp [itemTokens] at hEqual
| item :: items, targets, rest, others, hEqual => by
    cases targets with
    | nil => simp [itemTokens] at hEqual
    | cons target targets =>
        simp only [itemTokens, List.cons_append,
          List.cons.injEq, true_and,
          List.append_assoc] at hEqual
        rcases tokens_append_inj item target hEqual with
          ⟨rfl, hItems⟩
        rcases itemTokens_append_inj items targets hItems with
          ⟨rfl, hRest⟩
        exact ⟨rfl, hRest⟩

theorem memberTokens_append_inj :
    (members targets : List (String × Json)) →
      {rest others : List Token} →
      memberTokens members ++ rest =
        memberTokens targets ++ others →
      members = targets ∧ rest = others
| [], targets, rest, others, hEqual => by
    cases targets with
    | nil => exact ⟨rfl, List.append_cancel_left hEqual⟩
    | cons target targets => simp [memberTokens] at hEqual
| (key, value) :: members, targets, rest, others, hEqual => by
    rcases targets with _ | ⟨⟨name, target⟩, targets⟩
    · simp [memberTokens] at hEqual
    · simp only [memberTokens, List.cons_append,
        List.cons.injEq, true_and, List.append_assoc,
        Token.text.injEq, Option.some.injEq] at hEqual
      rcases hEqual with ⟨rfl, hEqual⟩
      rcases tokens_append_inj value target hEqual with
        ⟨rfl, hMembers⟩
      rcases memberTokens_append_inj members targets hMembers
        with ⟨rfl, hRest⟩
      exact ⟨rfl, hRest⟩

end

/- A compact text belongs to one value only. -/
theorem compact_inj
    {a b : Json}
    {depth more : Nat}
    (hFirst : IsPrintable depth a)
    (hSecond : IsPrintable more b)
    (hEqual : a.compact = b.compact) :
    a = b := by
  have hTokens : some (tokens a) = some (tokens b) := by
    rw [← Token.scan_compact hFirst,
      ← Token.scan_compact hSecond, hEqual]
  have hRest : tokens a ++ [] = tokens b ++ [] := by
    rw [Option.some.inj hTokens]
  exact (tokens_append_inj a b hRest).1

------------------------------------------------------------
-- Reading Back
------------------------------------------------------------

/- A value is read back from its compact text as well. -/
theorem read?_compact
    {depth : Nat}
    {value : Json}
    (hPrintable : IsPrintable depth value)
    (hDepth : depth < Builder.depthLimit) :
    read? (compact value) = some value.normalize := by
  have hDraft : Draft.ofText? (compact value) =
      some (draft value) := by
    rw [Draft.ofText?, Token.scan_compact hPrintable]
    exact ofTokens?_tokens hPrintable hDepth
  rw [read?, hDraft]
  simp [value?_draft]

end Json

end Federation
