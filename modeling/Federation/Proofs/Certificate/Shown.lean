import Federation.Proofs.Certificate.ObjectIds
import Mathlib.Data.List.Infix
import Mathlib.Tactic.Push

/-
  The texts of attributes that are shown one after the other.
  Nothing in them tells a mark between attributes from the
  same characters in a value: two lists of attributes have
  the same text exactly if they can be cut at the marks inside
  their values until they are the same. Without such marks
  they have the same text only if they are the same.

  Main declarations:
    * `Shown.HidesMark`
    * `Shown.texts_inj`
    * `Shown.Splits`
    * `Shown.texts_eq_iff`
-/

namespace Federation

------------------------------------------------------------
-- Shown Attributes
------------------------------------------------------------

/-
  An attribute as it is shown: the mark before it, its name
  and its value.
-/
@[ext] structure Shown where
  mark : List Char
  name : List Char
  value : List Char

namespace Shown

/- The mark before the first attribute of a part. -/
def partMark : List Char := [',', ' ']

/- The mark before a further attribute of a part. -/
def furtherMark : List Char := [' ', '+', ' ']

/- A text that stands before an attribute. -/
def IsMark (mark : List Char) : Prop :=
  mark = partMark ∨ mark = furtherMark

/- A text that is the name of an attribute. -/
def IsName (name : List Char) : Prop :=
  ∃ id : ObjectId, id.attributeName.toList = name

/- A mark with a name, up to the value. -/
def opening (mark name : List Char) : List Char :=
  mark ++ (name ++ ['='])

/- The text of an attribute with the mark before it. -/
def text (t : Shown) : List Char :=
  opening t.mark t.name ++ t.value

/- The text of attributes one after the other. -/
def texts (ts : List Shown) : List Char :=
  ts.flatMap text

/- Inside a value there is what reads as the next attribute. -/
def HidesMark (value : List Char) : Prop :=
  ∃ mark name, IsMark mark ∧ IsName name ∧
    opening mark name <:+: value

/- A value hides a mark only if it has an equals sign. -/
theorem not_hidesMark
    {value : List Char}
    (hEquals : '=' ∉ value) :
    ¬ HidesMark value := by
  rintro ⟨mark, name, -, -, hInfix⟩
  apply hEquals
  apply hInfix.subset
  simp [opening]

/- A shown attribute has a mark and the name of an attribute. -/
structure IsWell (t : Shown) : Prop where
  mark : IsMark t.mark
  name : IsName t.name

theorem isNameChar_of_isName
    {name : List Char}
    (hName : IsName name) :
    ∀ c ∈ name, ObjectId.isNameChar c = true := by
  rcases hName with ⟨id, rfl⟩
  exact ObjectId.isNameChar_attributeName id

theorem not_mem_name
    {name : List Char}
    {c : Char}
    (hName : IsName name)
    (hChar : ObjectId.isNameChar c = false) :
    c ∉ name := by
  intro hMem
  have hOwn := isNameChar_of_isName hName c hMem
  rw [hChar] at hOwn
  cases hOwn

------------------------------------------------------------
-- Marks
------------------------------------------------------------

/-
  A mark does not begin inside another mark with its name: a
  comma is there at the start only, and so is a plus after a
  blank, while the last character is neither.
-/
theorem not_inside_opening
    {mark other name before after rest more : List Char}
    (hMark : IsMark mark)
    (hOther : IsMark other)
    (hName : IsName name)
    (hOpening : opening mark name = before ++ after)
    (hBefore : before ≠ [])
    (hAfter : after ≠ [])
    (hRest : after ++ rest = other ++ more) :
    False := by
  have hComma : ',' ∉ name := not_mem_name hName rfl
  have hPlus : '+' ∉ name := not_mem_name hName rfl
  rcases List.exists_cons_of_ne_nil hBefore with
    ⟨b, start, rfl⟩
  rcases List.exists_cons_of_ne_nil hAfter with
    ⟨a, tail, rfl⟩
  rcases hOther with rfl | rfl
  · -- What is left would begin with a comma.
    have hFirst : a = ',' := by
      simpa [partMark] using congrArg List.head? hRest
    have hInner : ',' ∈ (opening mark name).tail := by
      rw [hOpening, hFirst]
      simp
    rcases hMark with rfl | rfl
    · simp [opening, partMark, hComma] at hInner
    · simp [opening, furtherMark, hComma] at hInner
  · -- It would begin with a blank and a plus.
    have hFirst : a = ' ' := by
      simpa [furtherMark] using congrArg List.head? hRest
    subst hFirst
    cases tail with
    | nil =>
        have hEnd : opening mark name =
            (mark ++ name) ++ ['='] := by
          rw [opening, List.append_assoc]
        rw [hEnd] at hOpening
        have hLast :=
          (List.append_inj' hOpening rfl).2
        simp at hLast
    | cons c tail =>
        have hSecond : c = '+' := by
          have hTail := congrArg List.tail hRest
          simpa [furtherMark] using congrArg List.head? hTail
        have hInner : '+' ∈ ((opening mark name).tail).tail := by
          rw [hOpening, hSecond]
          cases start <;> simp
        rcases hMark with rfl | rfl
        · simp [opening, partMark, hPlus] at hInner
        · simp [opening, furtherMark, hPlus] at hInner

/-
  If one text goes on where another has its next mark, it has
  that mark inside.
-/
theorem hidesMark_of_texts_eq
    {ts us : List Shown}
    {ahead : List Char}
    (hts : ∀ t ∈ ts, t.IsWell)
    (hus : ∀ u ∈ us, u.IsWell)
    (hAhead : ahead ≠ [])
    (hEqual : texts ts = ahead ++ texts us) :
    HidesMark ahead := by
  cases ts with
  | nil =>
      have hNone := List.append_eq_nil_iff.mp hEqual.symm
      exact absurd hNone.1 hAhead
  | cons t ts =>
      have ht := hts t List.mem_cons_self
      rw [texts, List.flatMap_cons, text, List.append_assoc]
        at hEqual
      rcases List.append_eq_append_iff.mp hEqual with
        ⟨rest, hWhole, -⟩ | ⟨after, hCut, hRest⟩
      · rw [hWhole]
        exact ⟨t.mark, t.name, ht.mark, ht.name,
          (List.prefix_append _ _).isInfix⟩
      · by_cases hNone : after = []
        · rw [hNone, List.append_nil] at hCut
          rw [← hCut]
          exact ⟨t.mark, t.name, ht.mark, ht.name,
            List.infix_rfl⟩
        · exfalso
          cases us with
          | nil =>
              have hEmpty :=
                List.append_eq_nil_iff.mp hRest.symm
              exact hNone hEmpty.1
          | cons u us =>
              have hu := hus u List.mem_cons_self
              rw [texts, List.flatMap_cons, text, opening,
                List.append_assoc, List.append_assoc] at hRest
              exact not_inside_opening ht.mark hu.mark ht.name
                hCut hAhead hNone hRest.symm

/- Values without marks end where their texts part. -/
theorem value_eq_of_append
    {value other : List Char}
    {ts us : List Shown}
    (hts : ∀ t ∈ ts, t.IsWell)
    (hus : ∀ u ∈ us, u.IsWell)
    (hValue : ¬ HidesMark value)
    (hOther : ¬ HidesMark other)
    (hEqual : value ++ texts ts = other ++ texts us) :
    value = other := by
  have hMono : ∀ {start ahead : List Char},
      HidesMark ahead → HidesMark (start ++ ahead) := by
    rintro start ahead ⟨mark, name, hMark, hName, hInfix⟩
    exact ⟨mark, name, hMark, hName,
      hInfix.trans (List.suffix_append _ _).isInfix⟩
  rcases List.append_eq_append_iff.mp hEqual with
    ⟨ahead, rfl, hRest⟩ | ⟨ahead, rfl, hRest⟩
  · by_cases hNone : ahead = []
    · rw [hNone, List.append_nil]
    · exact absurd
        (hMono (hidesMark_of_texts_eq hts hus hNone hRest))
        hOther
  · by_cases hNone : ahead = []
    · rw [hNone, List.append_nil]
    · exact absurd
        (hMono (hidesMark_of_texts_eq hus hts hNone hRest))
        hValue

theorem isMark_eq_of_append
    {mark other rest more : List Char}
    (hMark : IsMark mark)
    (hOther : IsMark other)
    (hEqual : mark ++ rest = other ++ more) :
    mark = other := by
  rcases hMark with rfl | rfl
  · rcases hOther with rfl | rfl
    · rfl
    · simp [partMark, furtherMark] at hEqual
  · rcases hOther with rfl | rfl
    · simp [partMark, furtherMark] at hEqual
    · rfl

/- A name ends at the first equals sign. -/
theorem name_eq_of_append
    {name other rest more : List Char}
    (hName : '=' ∉ name)
    (hOther : '=' ∉ other)
    (hEqual : name ++ '=' :: rest = other ++ '=' :: more) :
    name = other ∧ rest = more := by
  rcases List.append_eq_append_iff.mp hEqual with
    ⟨ahead, rfl, hRest⟩ | ⟨ahead, rfl, hRest⟩
  · cases ahead with
    | nil => simpa using hRest
    | cons c ahead =>
        rw [List.cons_append, List.cons.injEq] at hRest
        rw [← hRest.1] at hOther
        simp at hOther
  · cases ahead with
    | nil => simpa using hRest.symm
    | cons c ahead =>
        rw [List.cons_append, List.cons.injEq] at hRest
        rw [← hRest.1] at hName
        simp at hName

/-
  Attributes without marks inside their values are told from
  their text: by induction on them, the mark, the name up to
  the equals sign, and the value up to the next mark.
-/
theorem texts_inj
    {ts us : List Shown}
    (hts : ∀ t ∈ ts, t.IsWell ∧ ¬ HidesMark t.value)
    (hus : ∀ u ∈ us, u.IsWell ∧ ¬ HidesMark u.value)
    (hEqual : texts ts = texts us) :
    ts = us := by
  induction ts generalizing us with
  | nil =>
      cases us with
      | nil => rfl
      | cons u us =>
          simp [texts, text, opening] at hEqual
  | cons t ts ih =>
      cases us with
      | nil => simp [texts, text, opening] at hEqual
      | cons u us =>
          have ht := hts t List.mem_cons_self
          have hu := hus u List.mem_cons_self
          rw [List.forall_mem_cons] at hts hus
          have hText : t.mark ++
                (t.name ++ '=' :: (t.value ++ texts ts)) =
              u.mark ++
                (u.name ++ '=' :: (u.value ++ texts us)) := by
            simpa [texts, text, opening] using hEqual
          have hMark := isMark_eq_of_append ht.1.mark
            hu.1.mark hText
          rw [hMark] at hText
          have hNames := List.append_cancel_left hText
          rcases name_eq_of_append
              (not_mem_name ht.1.name (by decide))
              (not_mem_name hu.1.name (by decide)) hNames with
            ⟨hName, hValues⟩
          have hValue := value_eq_of_append
            (fun t ht => (hts.2 t ht).1)
            (fun u hu => (hus.2 u hu).1) ht.2 hu.2 hValues
          rw [hValue] at hValues
          have hRest := List.append_cancel_left hValues
          rw [ih hts.2 hus.2 hRest,
            Shown.ext hMark hName hValue]

------------------------------------------------------------
-- Cuts
------------------------------------------------------------

/-
  Attributes come from others by cuts: a value with a mark
  inside ends at the mark, and the rest is an attribute of
  its own.
-/
inductive Splits : List Shown → List Shown → Prop where
| refl (ts : List Shown) : Splits ts ts
| cut {before after us : List Shown} {t u : Shown}
    {value : List Char} :
    u.IsWell →
    t.value = value ++ u.text →
    Splits (before ++ { t with value } :: u :: after) us →
    Splits (before ++ t :: after) us

theorem texts_eq_of_splits
    {ts us : List Shown}
    (hSplits : Splits ts us) :
    texts ts = texts us := by
  induction hSplits with
  | refl ts => rfl
  | @cut before after us t u value hWell hValue _ ih =>
      rw [← ih]
      simp [texts, text, hValue]

/-
  By induction on the length of all values, which every cut
  makes shorter, cuts come to an end.
-/
theorem exists_splits
    (ts : List Shown)
    (hts : ∀ t ∈ ts, t.IsWell) :
    ∃ us, Splits ts us ∧
      ∀ u ∈ us, u.IsWell ∧ ¬ HidesMark u.value := by
  induction hLength : (ts.map fun t => t.value.length).sum
      using Nat.strong_induction_on generalizing ts with
  | _ n ih =>
      by_cases hPlain : ∀ t ∈ ts, ¬ HidesMark t.value
      · exact ⟨ts, .refl ts,
          fun t ht => ⟨hts t ht, hPlain t ht⟩⟩
      · push Not at hPlain
        rcases hPlain with ⟨t, ht, mark, name, hMark, hName,
          value, rest, hValue⟩
        rcases List.append_of_mem ht with
          ⟨before, after, rfl⟩
        let u : Shown := ⟨mark, name, rest⟩
        have hCut : t.value = value ++ u.text := by
          rw [← hValue, text, List.append_assoc]
        have hWell : u.IsWell := ⟨hMark, hName⟩
        have hShorter : ((before ++ { t with value } :: u ::
            after).map fun t => t.value.length).sum < n := by
          rw [← hLength]
          simp only [List.map_append, List.map_cons,
            List.sum_append, List.sum_cons, hCut,
            List.length_append, text, opening,
            List.length_cons]
          omega
        have hAll : ∀ s ∈ before ++ { t with value } :: u ::
            after, s.IsWell := by
          intro s hs
          rcases List.mem_append.mp hs with hs | hs
          · exact hts s (List.mem_append_left _ hs)
          · rcases List.mem_cons.mp hs with rfl | hs
            · exact ⟨(hts t ht).mark, (hts t ht).name⟩
            · rcases List.mem_cons.mp hs with rfl | hs
              · exact hWell
              · exact hts s (List.mem_append_right _
                  (List.mem_cons_of_mem _ hs))
        rcases ih _ hShorter _ hAll rfl with
          ⟨us, hSplits, hus⟩
        exact ⟨us, .cut hWell hCut hSplits, hus⟩

/- Texts are the same if cuts lead to the same attributes. -/
theorem texts_eq_iff
    {ts us : List Shown}
    (hts : ∀ t ∈ ts, t.IsWell)
    (hus : ∀ u ∈ us, u.IsWell) :
    texts ts = texts us ↔
      ∃ cuts, Splits ts cuts ∧ Splits us cuts := by
  constructor
  · intro hEqual
    rcases exists_splits ts hts with ⟨first, hFirst, hPlain⟩
    rcases exists_splits us hus with ⟨second, hSecond, hOther⟩
    rw [texts_eq_of_splits hFirst,
      texts_eq_of_splits hSecond] at hEqual
    have hSame := texts_inj hPlain hOther hEqual
    exact ⟨first, hFirst, hSame ▸ hSecond⟩
  · rintro ⟨cuts, hFirst, hSecond⟩
    rw [texts_eq_of_splits hFirst, texts_eq_of_splits hSecond]

end Shown

end Federation
