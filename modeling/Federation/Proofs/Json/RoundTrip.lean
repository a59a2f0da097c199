import Federation.Json.Reader
import Federation.Proofs.Json.Scanner

/-
  Printing and reading: a printable value that is nested less
  deeply than the limit is read back from its indented text,
  its members put in order.

  Main declarations:
    * `Json.draft`
    * `Json.Builder.build_tokens`
    * `Json.ofTokens?_tokens`
    * `Json.ofText?_indented`
    * `Json.read?_indented`
-/

namespace Federation

namespace Json

------------------------------------------------------------
-- Drafts of Values
------------------------------------------------------------

mutual

/- The draft of a value's text. -/
def draft : Json → Draft
| .array items => .array (itemDrafts items)
| .object members => .object (memberDrafts members)
| .null => .leaf (some .null)
| .bool b => .leaf (some (.bool b))
| .integer n => .leaf (some (.integer n))
| .float x => .leaf (some (.float x))
| .string s => .leaf (some (.string s))

/- The draft of each item. -/
def itemDrafts : List Json → List Draft
| [] => []
| item :: items => draft item :: itemDrafts items

/- The draft of each member. -/
def memberDrafts :
    List (String × Json) → List (Option String × Draft)
| [] => []
| (key, value) :: members =>
    (some key, draft value) :: memberDrafts members

end

mutual

/- A value is the value of its draft. -/
theorem value?_draft :
    (value : Json) → (draft value).value? = some value
| .array items => by
    rw [draft, Draft.value?, itemValues?_itemDrafts items]
    rfl
| .object members => by
    rw [draft, Draft.value?, memberValues?_memberDrafts members]
    rfl
| .null => rfl
| .bool _ => rfl
| .integer _ => rfl
| .float _ => rfl
| .string _ => rfl

theorem itemValues?_itemDrafts :
    (items : List Json) →
      Draft.itemValues? (itemDrafts items) = some items
| [] => rfl
| item :: items => by
    rw [itemDrafts, Draft.itemValues?, value?_draft item,
      itemValues?_itemDrafts items]
    rfl

theorem memberValues?_memberDrafts :
    (members : List (String × Json)) →
      Draft.memberValues? (memberDrafts members) =
        some members
| [] => rfl
| (key, value) :: members => by
    rw [memberDrafts, Draft.memberValues?, value?_draft value,
      memberValues?_memberDrafts members]
    rfl

end

namespace Builder

------------------------------------------------------------
-- Building On
------------------------------------------------------------

/- What a builder has become after tokens. -/
def buildOn
    (b : Builder)
    (tokens : List Token) : Option Builder :=
  tokens.foldlM push b

/- An array or object below the limit is put into its frame. -/
theorem close_of_shallow
    (part : Draft)
    {frames : List Frame}
    (hDepth : frames.length + 1 < depthLimit) :
    close part frames = place part frames :=
  if_pos hDepth

/- The tokens of an item begin a value, and end no array. -/
theorem buildOn_awaitItem
    (frames : List Frame)
    (item : Json)
    (rest : List Token) :
    buildOn (.awaitItem frames) (tokens item ++ rest) =
      buildOn (.awaitValue (.array [] :: frames))
        (tokens item ++ rest) := by
  have hFirst : ∀ (t : Token) (rest : List Token),
      t ≠ .closeBracket →
      buildOn (.awaitItem frames) (t :: rest) =
        buildOn (.awaitValue (.array [] :: frames))
          (t :: rest) := by
    intro t rest hOpen
    cases t <;> first | rfl | exact absurd rfl hOpen
  cases item with
  | array items =>
      cases items <;>
        exact hFirst _ _ (fun hEq => by cases hEq)
  | object members =>
      cases members <;>
        exact hFirst _ _ (fun hEq => by cases hEq)
  | null | bool _ | integer _ | float _ | string _ =>
      exact hFirst _ _ (fun hEq => by cases hEq)

------------------------------------------------------------
-- Values
------------------------------------------------------------

mutual

/- From the tokens of a value its draft is built. -/
theorem build_tokens :
    (value : Json) → {depth : Nat} →
      IsPrintable depth value → (frames : List Frame) →
      frames.length + depth < depthLimit →
      (rest : List Token) →
      buildOn (.awaitValue frames) (tokens value ++ rest) =
        buildOn (place (draft value) frames) rest
| .null, _, _, frames, _, rest => by
    rw [tokens, draft]
    rfl
| .bool _, _, _, frames, _, rest => by
    rw [tokens, draft]
    rfl
| .integer _, _, _, frames, _, rest => by
    rw [tokens, draft]
    rfl
| .string _, _, _, frames, _, rest => by
    rw [tokens, draft]
    rfl
| .array [], _, .array _, frames, hDepth, rest => by
    rw [tokens, draft, itemDrafts,
      ← close_of_shallow (.array []) (by omega)]
    rfl
| .object [], _, .object _, frames, hDepth, rest => by
    rw [tokens, draft, memberDrafts,
      ← close_of_shallow (.object []) (by omega)]
    rfl
| .array (item :: items), _, .array hItems, frames, hDepth,
    rest => by
    rw [List.forall_mem_cons] at hItems
    have hOpen : ∀ ts : List Token,
        buildOn (.awaitValue frames) (.openBracket :: ts) =
          buildOn (.awaitItem frames) ts :=
      fun _ => rfl
    rw [tokens, draft, List.cons_append, hOpen,
      List.append_assoc, buildOn_awaitItem,
      build_tokens item hItems.1 (.array [] :: frames)
        (by rw [List.length_cons]; omega),
      place, build_itemTokens items hItems.2 _ frames
        (by omega)]
    rfl
| .object ((key, value) :: members), _, .object hMembers,
    frames, hDepth, rest => by
    rw [List.forall_mem_cons] at hMembers
    have hOpen : ∀ ts : List Token,
        buildOn (.awaitValue frames)
            (.openBrace :: .text (some key) :: .colon :: ts) =
          buildOn
            (.awaitValue (.object [] (some key) :: frames))
            ts :=
      fun _ => rfl
    rw [tokens, draft, List.cons_append, List.cons_append,
      List.cons_append, hOpen, List.append_assoc,
      build_tokens value hMembers.1
        (.object [] (some key) :: frames)
        (by rw [List.length_cons]; omega),
      place, build_memberTokens members hMembers.2 _ _ frames
        (by omega)]
    rfl

theorem build_itemTokens :
    (items : List Json) → {depth : Nat} →
      (∀ item ∈ items, IsPrintable depth item) →
      (reversed : List Draft) → (frames : List Frame) →
      frames.length + 1 + depth < depthLimit →
      (rest : List Token) →
      buildOn (.awaitMore (.array reversed) frames)
          (itemTokens items ++ rest) =
        buildOn
          (place (.array (reversed.reverse ++
            itemDrafts items)) frames) rest
| [], _, _, reversed, frames, hDepth, rest => by
    rw [itemTokens, itemDrafts, List.append_nil,
      ← close_of_shallow (.array reversed.reverse) (by omega)]
    rfl
| item :: items, _, hItems, reversed, frames, hDepth, rest => by
    rw [List.forall_mem_cons] at hItems
    have hComma : ∀ ts : List Token,
        buildOn (.awaitMore (.array reversed) frames)
            (.comma :: ts) =
          buildOn (.awaitValue (.array reversed :: frames))
            ts :=
      fun _ => rfl
    rw [itemTokens, itemDrafts, List.cons_append, hComma,
      List.append_assoc,
      build_tokens item hItems.1 (.array reversed :: frames)
        (by rw [List.length_cons]; omega),
      place, build_itemTokens items hItems.2 _ frames hDepth]
    simp

theorem build_memberTokens :
    (members : List (String × Json)) → {depth : Nat} →
      (∀ m ∈ members, IsPrintable depth m.2) →
      (reversed : List (Option String × Draft)) →
      (key : Option String) → (frames : List Frame) →
      frames.length + 1 + depth < depthLimit →
      (rest : List Token) →
      buildOn (.awaitMore (.object reversed key) frames)
          (memberTokens members ++ rest) =
        buildOn
          (place (.object (reversed.reverse ++
            memberDrafts members)) frames) rest
| [], _, _, reversed, _, frames, hDepth, rest => by
    rw [memberTokens, memberDrafts, List.append_nil,
      ← close_of_shallow (.object reversed.reverse)
        (by omega)]
    rfl
| (key, value) :: members, _, hMembers, reversed, _, frames,
    hDepth, rest => by
    rw [List.forall_mem_cons] at hMembers
    have hComma : ∀ (last : Option String) (ts : List Token),
        buildOn (.awaitMore (.object reversed last) frames)
            (.comma :: .text (some key) :: .colon :: ts) =
          buildOn
            (.awaitValue
              (.object reversed (some key) :: frames))
            ts :=
      fun _ _ => rfl
    rw [memberTokens, memberDrafts, List.cons_append,
      List.cons_append, List.cons_append, hComma,
      List.append_assoc,
      build_tokens value hMembers.1
        (.object reversed (some key) :: frames)
        (by rw [List.length_cons]; omega),
      place,
      build_memberTokens members hMembers.2 _ _ frames hDepth]
    simp

end

end Builder

------------------------------------------------------------
-- Reading Back
------------------------------------------------------------

/- The tokens of a value make its draft. -/
theorem ofTokens?_tokens
    {depth : Nat}
    {value : Json}
    (hPrintable : IsPrintable depth value)
    (hDepth : depth < Builder.depthLimit) :
    Draft.ofTokens? (tokens value) = some (draft value) := by
  have hBuild := Builder.build_tokens value hPrintable []
    (by simpa using hDepth) []
  rw [List.append_nil] at hBuild
  have hTokens : (tokens value).foldlM Builder.push
      (.awaitValue []) = some (.done (draft value)) := hBuild
  simp [Draft.ofTokens?, hTokens]

/- The form of a value is read back from its text. -/
theorem ofText?_indented
    {depth : Nat}
    {value : Json}
    (hPrintable : IsPrintable depth value)
    (hDepth : depth < Builder.depthLimit) :
    Draft.ofText? (indented value) = some (draft value) := by
  rw [Draft.ofText?, Token.scan_indented hPrintable]
  exact ofTokens?_tokens hPrintable hDepth

/- A value is read back from its text, its members in order. -/
theorem read?_indented
    {depth : Nat}
    {value : Json}
    (hPrintable : IsPrintable depth value)
    (hDepth : depth < Builder.depthLimit) :
    read? (indented value) = some value.normalize := by
  rw [read?, ofText?_indented hPrintable hDepth]
  simp [value?_draft]

end Json

end Federation
