import Federation.Proofs.Certificate.Gate
import Federation.Proofs.Certificate.Shown
import Mathlib.Data.List.Forall2

/-
  When a certificate counts as issued by itself: subject and
  issuer are compared by their texts. Names without a text
  count as the same. Names with one do exactly if they can be
  cut at the marks inside their values until they are the
  same, and names without such marks only if they are the
  same name.

  Main declarations:
    * `Name.IsReadable`
    * `Name.IsPlain`
    * `Name.IsSame`
    * `Certificate.isSelfIssued_iff`
-/

namespace Federation

open Shown (partMark furtherMark texts HidesMark)

------------------------------------------------------------
-- Attributes
------------------------------------------------------------

namespace Attribute

/- The characters of a value, none if it has no text. -/
def valueText (a : Attribute) : List Char :=
  (a.value?.getD "").toList

/- The characters of an attribute with its name. -/
def text (a : Attribute) : List Char :=
  a.kind.attributeName.toList ++ '=' :: a.valueText

/- An attribute after a mark. -/
def shown
    (mark : List Char)
    (a : Attribute) : Shown :=
  ⟨mark, a.kind.attributeName.toList, a.valueText⟩

/- The value is a text, and not shown by its bytes. -/
def isText (a : Attribute) : Bool :=
  textNumbers.contains a.value.tag.number ||
    a.value.HasNumber unitsNumber

/-
  What a value says: a text, in whatever form it is written,
  or a value of another form.
-/
def meaning (a : Attribute) : Option (String ⊕ Element) :=
  if a.isText then a.value?.map .inl else some (.inr a.value)

/-
  An attribute of a plain kind whose value is a text without
  a mark inside.
-/
structure IsPlain (a : Attribute) : Prop where
  kind : a.kind.IsPlain
  isText : a.isText = true
  value : ¬ HidesMark a.valueText

/- Attributes of the same kind whose values say the same. -/
structure IsSame (a b : Attribute) : Prop where
  kind : a.kind = b.kind
  meaning : a.meaning = b.meaning

/- Values that say the same are shown by the same text. -/
theorem IsSame.value?_eq
    {a b : Attribute}
    (hSame : a.IsSame b) :
    a.value? = b.value? := by
  have hMeaning := hSame.meaning
  have hInl : Function.Injective
      (Option.map (@Sum.inl String Element)) :=
    Option.map_injective fun _ _ => Sum.inl.inj
  unfold Attribute.meaning at hMeaning
  by_cases hFirst : a.isText = true
  · rw [if_pos hFirst] at hMeaning
    by_cases hSecond : b.isText = true
    · rw [if_pos hSecond] at hMeaning
      exact hInl hMeaning
    · rw [if_neg hSecond] at hMeaning
      simp at hMeaning
  · rw [if_neg hFirst] at hMeaning
    by_cases hSecond : b.isText = true
    · rw [if_pos hSecond] at hMeaning
      exact absurd hMeaning.symm (by simp)
    · rw [if_neg hSecond, Option.some.injEq, Sum.inr.injEq]
        at hMeaning
      rw [value?, value?, hMeaning]

theorem display?_of_isSome
    {a : Attribute}
    (hText : a.value?.isSome) :
    a.display? = some (String.ofList a.text) := by
  rcases Option.isSome_iff_exists.mp hText with
    ⟨value, hValue⟩
  rw [display?, hValue, Option.map_some]
  congr 1
  apply String.toList_injective
  simp [text, valueText, hValue]

theorem IsSame.display?_eq
    {a b : Attribute}
    (hSame : a.IsSame b) :
    a.display? = b.display? := by
  rw [display?, display?, hSame.kind, hSame.value?_eq]

end Attribute

------------------------------------------------------------
-- Names
------------------------------------------------------------

/- The attributes of a part with the marks before them. -/
def NamePart.shown : NamePart → List Shown
| [] => []
| a :: rest =>
    a.shown partMark ::
      rest.map (Attribute.shown furtherMark)

namespace Name

/- The attributes of a name with the marks before them. -/
def shown (n : Name) : List Shown :=
  n.parts.flatMap NamePart.shown

/- All values of a name have a text. -/
def IsReadable (n : Name) : Prop :=
  ∀ part ∈ n.parts, ∀ a ∈ part, a.value?.isSome

/- All attributes of a name are plain. -/
def IsPlain (n : Name) : Prop :=
  ∀ part ∈ n.parts, ∀ a ∈ part, a.IsPlain

/- Every part of a name has an attribute. -/
def HasAttributes (n : Name) : Prop :=
  ∀ part ∈ n.parts, part ≠ []

/-
  Names have the same parts in the same order, and these the
  same attributes.
-/
def IsSame (n m : Name) : Prop :=
  List.Forall₂ (List.Forall₂ Attribute.IsSame) n.parts m.parts

theorem isWell_of_mem_shown
    {n : Name}
    {t : Shown}
    (hMem : t ∈ n.shown) :
    t.IsWell ∧ ∃ part ∈ n.parts, ∃ a ∈ part,
      t.value = a.valueText := by
  rcases List.mem_flatMap.mp hMem with ⟨part, hPart, ht⟩
  cases part with
  | nil => cases ht
  | cons a rest =>
      rcases List.mem_cons.mp ht with rfl | hLater
      · exact ⟨⟨Or.inl rfl, a.kind, rfl⟩, _, hPart, a,
          List.mem_cons_self, rfl⟩
      · rcases List.mem_map.mp hLater with ⟨b, hb, rfl⟩
        exact ⟨⟨Or.inr rfl, b.kind, rfl⟩, _, hPart, b,
          List.mem_cons_of_mem _ hb, rfl⟩

------------------------------------------------------------
-- Texts
------------------------------------------------------------

section Lists

variable {α β : Type} {f : α → Option β} {xs ys : List α}

theorem mapM_of_forall
    {g : α → β}
    (hEach : ∀ x ∈ xs, f x = some (g x)) :
    xs.mapM f = some (xs.map g) := by
  induction xs with
  | nil => rfl
  | cons x rest ih =>
      rw [List.forall_mem_cons] at hEach
      rw [List.mapM_cons, hEach.1, ih hEach.2]
      rfl

theorem mapM_eq_none
    {x : α}
    (hMem : x ∈ xs)
    (hNone : f x = none) :
    xs.mapM f = none := by
  induction xs with
  | nil => cases hMem
  | cons y rest ih =>
      rw [List.mapM_cons]
      rcases List.mem_cons.mp hMem with rfl | hLater
      · rw [hNone]
        rfl
      · rw [ih hLater]
        cases f y <;> rfl

theorem mapM_congr
    (hSame : List.Forall₂ (fun x y => f x = f y) xs ys) :
    xs.mapM f = ys.mapM f := by
  induction hSame with
  | nil => rfl
  | cons hFirst _ ih =>
      rw [List.mapM_cons, List.mapM_cons, hFirst, ih]

end Lists

/- The characters of a part. -/
def partText (part : NamePart) : List Char :=
  furtherMark.intercalate (part.map Attribute.text)

theorem displayPart?_of_isSome
    {part : NamePart}
    (hTexts : ∀ a ∈ part, a.value?.isSome) :
    displayPart? part = some (String.ofList (partText part)) := by
  rw [displayPart?, mapM_of_forall fun a ha =>
    Attribute.display?_of_isSome (hTexts a ha),
    Option.map_some]
  congr 1
  apply String.toList_injective
  rw [String.toList_intercalate, List.map_map]
  simp [partText, furtherMark, Function.comp_def]

theorem texts_shown_part
    {part : NamePart}
    (hSome : part ≠ []) :
    texts (NamePart.shown part) = partMark ++ partText part := by
  cases part with
  | nil => exact absurd rfl hSome
  | cons a rest =>
      rw [partText, List.map_cons, intercalate_cons]
      simp [NamePart.shown, texts, Shown.text, Shown.opening,
        Attribute.shown, Attribute.text, List.flatMap_map]

theorem texts_shown
    {n : Name}
    (hParts : n.HasAttributes) :
    texts n.shown =
      n.parts.flatMap fun part => partMark ++ partText part := by
  rw [shown, texts, List.flatMap_assoc]
  exact List.flatMap_congr fun part hPart =>
    texts_shown_part (hParts part hPart)

/- The text of a name without the mark at its start. -/
theorem display?_of_isReadable
    {n : Name}
    (hReadable : n.IsReadable)
    (hParts : n.HasAttributes) :
    n.display? =
      some (String.ofList ((texts n.shown).drop 2)) := by
  rw [display?, mapM_of_forall fun part hPart =>
    displayPart?_of_isSome (hReadable part hPart),
    Option.map_some, texts_shown hParts]
  congr 1
  apply String.toList_injective
  rw [String.toList_intercalate, List.map_map]
  cases n.parts with
  | nil => rfl
  | cons part rest =>
      rw [List.map_cons, intercalate_cons, List.flatMap_cons]
      simp [partMark, List.flatMap_map]

theorem display?_of_not_isReadable
    {n : Name}
    (hUnreadable : ¬ n.IsReadable) :
    n.display? = none := by
  unfold IsReadable at hUnreadable
  push Not at hUnreadable
  rcases hUnreadable with ⟨part, hPart, a, ha, hText⟩
  have hNone : a.display? = none := by
    rw [Attribute.display?, Option.not_isSome_iff_eq_none.mp
      hText]
    rfl
  have hPartNone : displayPart? part = none := by
    rw [displayPart?, mapM_eq_none ha hNone]
    rfl
  rw [display?, mapM_eq_none hPart hPartNone]
  rfl

/- The text of a name with a part has an equals sign. -/
theorem drop_texts_shown
    {n : Name}
    (hParts : n.HasAttributes) :
    texts n.shown = [] ∨
      ∃ rest, texts n.shown = partMark ++ rest ∧
        '=' ∈ rest := by
  rw [texts_shown hParts]
  cases hName : n.parts with
  | nil => exact Or.inl rfl
  | cons part rest =>
      have hSome : part ≠ [] :=
        hParts part (hName ▸ List.mem_cons_self)
      rcases List.exists_cons_of_ne_nil hSome with
        ⟨a, more, rfl⟩
      refine Or.inr ⟨_, by
        rw [List.flatMap_cons, List.append_assoc], ?_⟩
      rw [partText, List.map_cons, intercalate_cons]
      simp [Attribute.text]

/- Readable names have the same text if their attributes do. -/
theorem display_eq_iff
    {n m : Name}
    (hFirst : n.IsReadable)
    (hSecond : m.IsReadable)
    (hParts : n.HasAttributes)
    (hOthers : m.HasAttributes) :
    n.display = m.display ↔
      texts n.shown = texts m.shown := by
  rw [display, display, display?_of_isReadable hFirst hParts,
    display?_of_isReadable hSecond hOthers, Option.getD_some,
    Option.getD_some]
  constructor
  · intro hEqual
    have hTexts := congrArg String.toList hEqual
    rw [String.toList_ofList, String.toList_ofList] at hTexts
    rcases drop_texts_shown hParts with
      hNone | ⟨rest, hText, hMark⟩
    · rcases drop_texts_shown hOthers with
        hOther | ⟨more, hText, hMark⟩
      · rw [hNone, hOther]
      · rw [hNone, hText] at hTexts
        have hEmpty : more = [] := hTexts.symm
        rw [hEmpty] at hMark
        cases hMark
    · rcases drop_texts_shown hOthers with
        hOther | ⟨more, hOther, -⟩
      · rw [hText, hOther] at hTexts
        have hEmpty : rest = [] := hTexts
        rw [hEmpty] at hMark
        cases hMark
      · rw [hText, hOther] at hTexts ⊢
        have hSame : rest = more := hTexts
        rw [hSame]
  · intro hEqual
    rw [hEqual]

/- What names without a text are shown by is no name's text. -/
theorem display_ne_of_isReadable
    {n m : Name}
    (hReadable : n.IsReadable)
    (hParts : n.HasAttributes)
    (hUnreadable : ¬ m.IsReadable) :
    n.display ≠ m.display := by
  intro hEqual
  rw [display, display, display?_of_isReadable hReadable hParts,
    display?_of_not_isReadable hUnreadable, Option.getD_some,
    Option.getD_none] at hEqual
  have hTexts := congrArg String.toList hEqual
  rw [String.toList_ofList] at hTexts
  rcases drop_texts_shown hParts with
    hNone | ⟨rest, hText, hMark⟩
  · rw [hNone] at hTexts
    simp at hTexts
  · rw [hText] at hTexts
    have hSame : rest =
        "<X509Error: Invalid X.509 name>".toList := hTexts
    rw [hSame] at hMark
    simp at hMark

------------------------------------------------------------
-- Plain Names
------------------------------------------------------------

/- Attributes after marks end where the next part begins. -/
theorem further_inj
    {as bs : List Attribute}
    {n m : Name}
    (hEqual : as.map (Attribute.shown furtherMark) ++ n.shown =
      bs.map (Attribute.shown furtherMark) ++ m.shown) :
    as.map (Attribute.shown furtherMark) =
        bs.map (Attribute.shown furtherMark) ∧
      n.shown = m.shown := by
  let isFurther : Shown → Bool :=
    fun t => t.mark == furtherMark
  have hAll : ∀ cs : List Attribute,
      ∀ t ∈ cs.map (Attribute.shown furtherMark),
        isFurther t = true := by
    intro cs t ht
    rcases List.mem_map.mp ht with ⟨a, -, rfl⟩
    rfl
  have hNone : ∀ k : Name, k.shown.takeWhile isFurther = [] := by
    rintro ⟨parts⟩
    rw [shown]
    induction parts with
    | nil => rfl
    | cons part rest ih =>
        cases part with
        | nil => exact ih
        | cons a more => rfl
  have hTake := congrArg (List.takeWhile isFurther) hEqual
  rw [List.takeWhile_append_of_pos (hAll as),
    List.takeWhile_append_of_pos (hAll bs), hNone, hNone,
    List.append_nil, List.append_nil] at hTake
  rw [hTake] at hEqual
  exact ⟨hTake, List.append_cancel_left hEqual⟩

/-
  Attributes with marks tell the parts of a name: by
  induction on these, each of which begins at its own mark.
-/
theorem forall₂_of_shown_eq
    {n m : Name}
    (hParts : n.HasAttributes)
    (hOthers : m.HasAttributes)
    (hEqual : n.shown = m.shown) :
    List.Forall₂
      (List.Forall₂ fun a b : Attribute =>
        a.kind.attributeName = b.kind.attributeName ∧
          a.valueText = b.valueText)
      n.parts m.parts := by
  rcases n with ⟨parts⟩
  rcases m with ⟨others⟩
  have hShown : ∀ {mark : List Char} {a b : Attribute},
      a.shown mark = b.shown mark →
      a.kind.attributeName = b.kind.attributeName ∧
        a.valueText = b.valueText := by
    intro mark a b hSame
    simp only [Attribute.shown, Shown.mk.injEq, true_and]
      at hSame
    exact ⟨String.toList_injective hSame.1, hSame.2⟩
  induction parts generalizing others with
  | nil =>
      cases others with
      | nil => exact .nil
      | cons part rest =>
          cases part with
          | nil => exact absurd rfl (hOthers [] (by simp))
          | cons a more =>
              simp [shown, NamePart.shown] at hEqual
  | cons part rest ih =>
      cases part with
      | nil => exact absurd rfl (hParts [] (by simp))
      | cons a as =>
          cases others with
          | nil => simp [shown, NamePart.shown] at hEqual
          | cons other more =>
              cases other with
              | nil => exact absurd rfl (hOthers [] (by simp))
              | cons b bs =>
                  simp only [shown, NamePart.shown,
                    List.flatMap_cons, List.cons_append,
                    List.cons.injEq] at hEqual
                  have hLater := further_inj (n := ⟨rest⟩)
                    (m := ⟨more⟩) hEqual.2
                  have hFurther : List.Forall₂ (· = ·)
                      (as.map (Attribute.shown furtherMark))
                      (bs.map
                        (Attribute.shown furtherMark)) := by
                    rw [List.forall₂_eq_eq_eq]
                    exact hLater.1
                  rw [List.forall₂_map_left_iff,
                    List.forall₂_map_right_iff] at hFurther
                  refine .cons (.cons (hShown hEqual.1)
                    (hFurther.imp fun _ _ => hShown)) ?_
                  exact ih
                    (fun p hp => hParts p
                      (List.mem_cons_of_mem _ hp)) more
                    (fun p hp => hOthers p
                      (List.mem_cons_of_mem _ hp)) hLater.2

/- Related lists, of whose elements more is known. -/
theorem forall₂_imp_of_mem
    {α β : Type}
    {R S : α → β → Prop}
    {xs : List α}
    {ys : List β}
    (hRelated : List.Forall₂ R xs ys)
    (hImp : ∀ x ∈ xs, ∀ y ∈ ys, R x y → S x y) :
    List.Forall₂ S xs ys := by
  induction hRelated with
  | nil => exact .nil
  | cons hFirst _ ih =>
      refine .cons
        (hImp _ List.mem_cons_self _ List.mem_cons_self hFirst)
        (ih ?_)
      intro x hx y hy
      exact hImp x (List.mem_cons_of_mem _ hx) y
        (List.mem_cons_of_mem _ hy)

/- Plain names with the same text are the same name. -/
theorem isSame_of_display_eq
    {n m : Name}
    (hFirst : n.IsReadable)
    (hSecond : m.IsReadable)
    (hParts : n.HasAttributes)
    (hOthers : m.HasAttributes)
    (hPlain : n.IsPlain)
    (hOther : m.IsPlain)
    (hEqual : n.display = m.display) :
    n.IsSame m := by
  have hWell : ∀ {k : Name}, k.IsPlain →
      ∀ t ∈ k.shown, t.IsWell ∧ ¬ HidesMark t.value := by
    intro k hk t ht
    rcases isWell_of_mem_shown ht with
      ⟨hWell, part, hPart, a, ha, hValue⟩
    rw [hValue]
    exact ⟨hWell, (hk part hPart a ha).value⟩
  have hShown : n.shown = m.shown :=
    Shown.texts_inj (hWell hPlain) (hWell hOther)
      ((display_eq_iff hFirst hSecond hParts hOthers).mp hEqual)
  refine forall₂_imp_of_mem
    (forall₂_of_shown_eq hParts hOthers hShown) ?_
  intro part hPart other hOtherPart hSame
  refine forall₂_imp_of_mem hSame ?_
  intro a ha b hb hTexts
  have hKind := ObjectId.attributeName_inj
    (hPlain part hPart a ha).kind
    (hOther other hOtherPart b hb).kind hTexts.1
  have hValue : a.value? = b.value? := by
    rcases Option.isSome_iff_exists.mp
      (hFirst part hPart a ha) with ⟨v, hv⟩
    rcases Option.isSome_iff_exists.mp
      (hSecond other hOtherPart b hb) with ⟨w, hw⟩
    have hChars := hTexts.2
    rw [Attribute.valueText, Attribute.valueText, hv, hw]
      at hChars
    rw [hv, hw]
    exact congrArg some (String.toList_injective hChars)
  refine ⟨hKind, ?_⟩
  rw [Attribute.meaning, Attribute.meaning,
    if_pos (hPlain part hPart a ha).isText,
    if_pos (hOther other hOtherPart b hb).isText, hValue]

theorem IsSame.display_eq
    {n m : Name}
    (hSame : n.IsSame m) :
    n.display = m.display := by
  have hTexts : n.display? = m.display? := by
    rw [display?, display?]
    congr 1
    apply mapM_congr
    refine hSame.imp fun part other hPart => ?_
    rw [displayPart?, displayPart?]
    congr 1
    apply mapM_congr
    exact hPart.imp fun _ _ hAttribute => hAttribute.display?_eq
  rw [display, display, hTexts]

end Name

------------------------------------------------------------
-- Certificates
------------------------------------------------------------

theorem exists_of_mem_takeWhileSome
    {α β : Type}
    {f : α → Option β}
    {xs : List α}
    {y : β}
    (hMem : y ∈ takeWhileSome f xs) :
    ∃ x ∈ xs, f x = some y := by
  induction xs with
  | nil => cases hMem
  | cons x rest ih =>
      rw [takeWhileSome] at hMem
      cases hFirst : f x with
      | none =>
          rw [hFirst] at hMem
          cases hMem
      | some z =>
          rw [hFirst] at hMem
          rcases List.mem_cons.mp hMem with rfl | hLater
          · exact ⟨x, List.mem_cons_self, hFirst⟩
          · rcases ih hLater with ⟨w, hw, hLast⟩
            exact ⟨w, List.mem_cons_of_mem _ hw, hLast⟩

/- A part that is read has an attribute. -/
theorem Name.hasAttributes_of_ofElement?
    {e : Element}
    {n : Name}
    (hRead : Name.ofElement? e = some n) :
    n.HasAttributes := by
  unfold Name.ofElement? at hRead
  split at hRead
  · rw [← Option.some.inj hRead]
    intro part hPart
    rcases exists_of_mem_takeWhileSome hPart with
      ⟨item, -, hItem⟩
    unfold NamePart.ofElement? at hItem
    split at hItem
    · split at hItem
      · cases hItem
      · rename_i hSome
        rw [← Option.some.inj hItem]
        exact hSome
    · cases hItem
  · cases hRead

namespace Certificate

/- The names of a certificate are read from elements of its own. -/
theorem names_of_ofDer?
    {der : Bytes}
    {c : Certificate}
    (hRead : ofDer? der = some c) :
    (∃ e, Name.ofElement? e = some c.subject) ∧
      ∃ e, Name.ofElement? e = some c.issuer := by
  rcases exists_signedPart_of_ofDer? hRead with
    ⟨part, _, hPart, -, rfl⟩
  rcases exists_elements_of_signedPart? hPart with
    ⟨_, _, _, _, _, -, -, -, -, hContent⟩
  unfold SignedPart.ofContent? at hContent
  simp only [Option.bind_eq_bind, Option.bind_eq_some_iff,
    Prod.exists, Option.some.injEq] at hContent
  rcases hContent with ⟨_, _, -, _, _, -, _, -, issuerElement,
    _, -, issuer, hIssuer, _, _, -, _, -, subjectElement, _,
    -, subject, hSubject, _, -, _, -, rfl⟩
  exact ⟨⟨subjectElement, hSubject⟩, ⟨issuerElement, hIssuer⟩⟩

/-
  Subject and issuer of a certificate count as the same name
  exactly if neither has a text, or if both have one and cuts
  at the marks inside their values lead to the same
  attributes. If they are plain, exactly if they are the same
  name.
-/
theorem isSelfIssued_iff
    {der : Bytes}
    {c : Certificate}
    (hRead : ofDer? der = some c) :
    (¬ (c.subject.IsReadable ∧ c.issuer.IsReadable) →
      (c.isSelfIssued = true ↔
        ¬ c.subject.IsReadable ∧ ¬ c.issuer.IsReadable)) ∧
    (c.subject.IsReadable → c.issuer.IsReadable →
      (c.isSelfIssued = true ↔
        ∃ cuts, Shown.Splits c.subject.shown cuts ∧
          Shown.Splits c.issuer.shown cuts) ∧
      (c.subject.IsPlain → c.issuer.IsPlain →
        (c.isSelfIssued = true ↔
          c.subject.IsSame c.issuer))) := by
  rcases names_of_ofDer? hRead with
    ⟨⟨subject, hSubject⟩, ⟨issuer, hIssuer⟩⟩
  have hParts := Name.hasAttributes_of_ofElement? hSubject
  have hOthers := Name.hasAttributes_of_ofElement? hIssuer
  rw [isSelfIssued, beq_iff_eq]
  constructor
  · intro hUnreadable
    by_cases hFirst : c.subject.IsReadable
    · have hSecond : ¬ c.issuer.IsReadable := fun hSecond =>
        hUnreadable ⟨hFirst, hSecond⟩
      have hApart := Name.display_ne_of_isReadable hFirst
        hParts hSecond
      simp only [hApart, hFirst, not_true, false_and]
    · by_cases hSecond : c.issuer.IsReadable
      · have hApart := Name.display_ne_of_isReadable hSecond
          hOthers hFirst
        simp only [hApart.symm, hSecond, not_true, and_false]
      · rw [Name.display, Name.display,
          Name.display?_of_not_isReadable hFirst,
          Name.display?_of_not_isReadable hSecond]
        simp only [hFirst, hSecond, not_false_eq_true,
          and_self]
  · intro hFirst hSecond
    constructor
    · rw [Name.display_eq_iff hFirst hSecond hParts hOthers]
      exact Shown.texts_eq_iff
        (fun t ht => (Name.isWell_of_mem_shown ht).1)
        (fun t ht => (Name.isWell_of_mem_shown ht).1)
    · intro hPlain hOther
      constructor
      · exact Name.isSame_of_display_eq hFirst hSecond hParts
          hOthers hPlain hOther
      · exact Name.IsSame.display_eq

------------------------------------------------------------
-- Small Certificates
------------------------------------------------------------

/- An element with a tag of one byte and a short length. -/
def element (tag : UInt8) (content : Bytes) : Bytes :=
  tag :: UInt8.ofNat content.length :: content

/- A part of a name with one attribute of the directory. -/
def partBytes (number : UInt8) (value : String) : Bytes :=
  element 49
    (element 48
      (element 6 [85, 4, number] ++
        element 12 (Text.toBytes value)))

/- A certificate with the given parts of issuer and subject. -/
def bytesNaming (issuer subject : List Bytes) : Bytes :=
  let algorithm := element 48 (element 6 [43, 101, 112])
  let year : Bytes → Bytes := fun digits =>
    element 23
      (digits ++
        [48, 49, 48, 49, 48, 48, 48, 48, 48, 48, 90])
  element 48
    (element 48
        (element 160 (element 2 [2]) ++ element 2 [1] ++
          algorithm ++ element 48 issuer.flatten ++
          element 48 (year [50, 53] ++ year [51, 53]) ++
          element 48 subject.flatten ++
          element 48 (algorithm ++ element 3 [0, 1, 2])) ++
      algorithm ++ element 3 [0, 3])

/- The name of two parts with an attribute each. -/
def twinName : Name :=
  let letter : UInt8 → Element := fun b =>
    ⟨⟨.universal, false, 12⟩, [b]⟩
  ⟨[ [⟨⟨[85, 4, 3]⟩, letter 97⟩],
      [⟨⟨[85, 4, 10]⟩, letter 98⟩] ]⟩

theorem isPlain_twinName :
    twinName.IsReadable ∧ twinName.IsPlain := by
  have hEach : ∀ part ∈ twinName.parts, ∀ a ∈ part,
      a.value?.isSome ∧ a.kind.IsPlain ∧ a.isText = true ∧
        '=' ∉ a.valueText := by
    decide +kernel
  constructor
  · intro part hPart a ha
    exact (hEach part hPart a ha).1
  · intro part hPart a ha
    rcases hEach part hPart a ha with
      ⟨-, hKind, hText, hEquals⟩
    exact ⟨hKind, hText, Shown.not_hidesMark hEquals⟩

/- A certificate whose subject and issuer have the same two parts. -/
def twinBytes : Bytes :=
  bytesNaming [partBytes 3 "a", partBytes 10 "b"]
    [partBytes 3 "a", partBytes 10 "b"]

theorem isSelfIssued_twin :
    ∃ c, ofDer? twinBytes = some c ∧
      c.subject.IsReadable ∧ c.subject.IsPlain ∧
      c.isSelfIssued = true ∧ c.subject.IsSame c.issuer := by
  have hNames : (ofDer? twinBytes).any
      (fun c => c.subject = twinName ∧ c.issuer = twinName ∧
        c.isSelfIssued) = true := by
    decide +kernel
  rcases (Option.any_eq_true _ _).mp hNames with
    ⟨c, hRead, hc⟩
  rcases of_decide_eq_true hc with ⟨hSubject, hIssuer, hSelf⟩
  rcases isPlain_twinName with ⟨hReadable, hPlain⟩
  have hFirst := hSubject.symm ▸ hReadable
  have hSecond := hIssuer.symm ▸ hReadable
  have hSame := ((isSelfIssued_iff hRead).2 hFirst hSecond).2
    (hSubject.symm ▸ hPlain) (hIssuer.symm ▸ hPlain)
  exact ⟨c, hRead, hFirst, hSubject.symm ▸ hPlain, hSelf,
    hSame.mp hSelf⟩

/-
  A certificate whose issuer has two parts, and whose subject
  has one part with the mark of the other in its value.
-/
def disguisedBytes : Bytes :=
  bytesNaming [partBytes 3 "a", partBytes 10 "b"]
    [partBytes 3 "a, O=b"]

/- It counts as issued by itself, though the names differ. -/
theorem isSelfIssued_disguised :
    ∃ c, ofDer? disguisedBytes = some c ∧
      c.isSelfIssued = true ∧
      ¬ c.subject.IsSame c.issuer := by
  have hNames : (ofDer? disguisedBytes).any
      (fun c => c.isSelfIssued ∧
        c.subject.parts.length ≠ c.issuer.parts.length) =
      true := by
    decide +kernel
  rcases (Option.any_eq_true _ _).mp hNames with
    ⟨c, hRead, hc⟩
  rcases of_decide_eq_true hc with ⟨hSelf, hLengths⟩
  exact ⟨c, hRead, hSelf, fun hSame =>
    hLengths hSame.length_eq⟩

end Certificate

end Federation
