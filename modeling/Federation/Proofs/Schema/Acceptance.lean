import Federation.Identity
import Federation.Proofs.Certificate.Material
import Federation.Proofs.Table
import Federation.Schema.Parameters

/-
  What a schema accepts: the values in which the search for
  mismatches finds nothing, whatever their place.

  Main declarations:
    * `Schema.Accepts`
    * `Schema.mismatches_eq_nil_iff`
    * `Schema.accepts_record_iff_of_perm`
    * `Json.hasRepeats_strings`
-/

namespace Federation

namespace Schema

------------------------------------------------------------
-- Acceptance
------------------------------------------------------------

mutual

/- A value has the form that a schema asks for. -/
def Accepts :
    Schema → Json → Prop
| .text minLength pattern, value =>
    ∃ s, value = .string s ∧ minLength ≤ s.length ∧
      ∀ p ∈ pattern, p.accepts s.toList = true
| .flag, value => ∃ b, value = .bool b
| .whole minimum, value =>
    value.isBelow minimum = false ∧ value.isWhole = true
| .constant expected, value =>
    value.sameValue false (.integer expected) = true
| .list item minItems unique, value =>
    ∃ items, value = .array items ∧
      (∀ part ∈ items, Accepts item part) ∧
      minItems ≤ items.length ∧
      (unique = true → Json.hasRepeats items = false)
| .record properties required, value =>
    ∃ members, value = .object members ∧
      (∀ m ∈ members, AcceptsProperty properties m.1 m.2) ∧
      ∀ name ∈ required, (members.lookup name).isSome

/- A member is a property and has the form of that property. -/
def AcceptsProperty :
    List (String × Schema) → String → Json → Prop
| [], _, _ => False
| (key, schema) :: rest, name, value =>
    if key = name then Accepts schema value
    else AcceptsProperty rest name value

end

theorem acceptsProperty_iff
    {properties : List (String × Schema)}
    {name : String}
    {value : Json} :
    AcceptsProperty properties name value ↔
      ∃ schema, properties.lookup name = some schema ∧
        Accepts schema value := by
  induction properties with
  | nil => simp [AcceptsProperty]
  | cons property rest ih =>
      rcases property with ⟨key, schema⟩
      unfold AcceptsProperty
      by_cases hKey : key = name
      · simp [hKey]
      · have hOther : (name == key) = false :=
          beq_eq_false_iff_ne.mpr (Ne.symm hKey)
        rw [if_neg hKey, List.lookup_cons, hOther, ih]

------------------------------------------------------------
-- Mismatches
------------------------------------------------------------

theorem whenever_eq_nil_iff
    {condition : Bool}
    {place : Pointer}
    {mismatch : Mismatch} :
    whenever condition place mismatch = [] ↔
      condition = false := by
  cases condition <;> simp [whenever]

theorem textMismatches_eq_nil_iff
    {minLength : Nat}
    {pattern : Option Pattern}
    {place : Pointer}
    {value : Json} :
    textMismatches minLength pattern place value = [] ↔
      Accepts (.text minLength pattern) value := by
  unfold textMismatches Accepts
  cases value with
  | string s =>
      cases pattern <;>
        simp [whenever_eq_nil_iff]
  | null | bool _ | integer _ | float _ | array _
  | object _ => simp

theorem extraMismatches_eq_nil_iff
    {properties : List (String × Schema)}
    {place : Pointer}
    {members : Json.Members} :
    extraMismatches properties place members = [] ↔
      ∀ m ∈ members, (properties.lookup m.1).isSome := by
  unfold extraMismatches
  have hNames : unexpectedNames properties members = [] ↔
      ∀ m ∈ members, (properties.lookup m.1).isSome := by
    simp [unexpectedNames, List.filter_eq_nil_iff,
      Option.isSome_iff_ne_none]
  rw [← hNames]
  cases unexpectedNames properties members <;> simp

theorem missingMismatches_eq_nil_iff
    {required : List String}
    {place : Pointer}
    {members : Json.Members} :
    missingMismatches required place members = [] ↔
      ∀ name ∈ required, (members.lookup name).isSome := by
  simp [missingMismatches, List.filter_eq_nil_iff,
    Option.isSome_iff_ne_none]

/- A member that is no property is told of with the others. -/
theorem acceptsProperty_iff_and
    {properties : List (String × Schema)}
    {name : String}
    {value : Json} :
    AcceptsProperty properties name value ↔
      (∀ schema, properties.lookup name = some schema →
        Accepts schema value) ∧
      (properties.lookup name).isSome := by
  rw [acceptsProperty_iff]
  cases properties.lookup name <;> simp

mutual

/- Nothing is found in a value exactly if it is accepted. -/
theorem mismatches_eq_nil_iff :
    (schema : Schema) → (place : Pointer) → (value : Json) →
      (mismatches schema place value = [] ↔
        Accepts schema value)
| .text minLength pattern, place, value => by
    unfold mismatches
    exact textMismatches_eq_nil_iff
| .flag, place, value => by
    unfold mismatches Accepts
    cases value <;> simp
| .whole minimum, place, value => by
    unfold mismatches wholeMismatches Accepts
    simp [whenever_eq_nil_iff]
| .constant expected, place, value => by
    unfold mismatches Accepts
    simp [whenever_eq_nil_iff]
| .list item minItems unique, place, value => by
    unfold mismatches Accepts
    cases value with
    | array items =>
        have hItems : items.zipIdx.flatMap
            (fun (part, i) =>
              mismatches item (place.index i) part) = [] ↔
            ∀ part ∈ items, Accepts item part := by
          rw [List.flatMap_eq_nil_iff]
          constructor
          · intro hAll part hPart
            rcases List.mem_iff_getElem?.mp hPart with ⟨i, hi⟩
            exact (mismatches_eq_nil_iff item _ part).mp
              (hAll (part, i)
                (List.mem_zipIdx_iff_getElem?.mpr hi))
          · rintro hAll ⟨part, i⟩ hPair
            have hPart := List.mem_iff_getElem?.mpr
              ⟨i, List.mem_zipIdx_iff_getElem?.mp hPair⟩
            exact (mismatches_eq_nil_iff item _ part).mpr
              (hAll part hPart)
        simp [hItems, whenever_eq_nil_iff]
    | null | bool _ | integer _ | float _ | string _
    | object _ => simp
| .record properties required, place, value => by
    unfold mismatches Accepts
    cases value with
    | object members =>
        have hMembers : members.flatMap
            (fun (name, part) =>
              propertyMismatches properties name
                (place.key name) part) = [] ↔
            ∀ m ∈ members, ∀ schema,
              properties.lookup m.1 = some schema →
                Accepts schema m.2 := by
          rw [List.flatMap_eq_nil_iff]
          exact forall₂_congr fun m _ =>
            propertyMismatches_eq_nil_iff properties m.1 _ m.2
        simp only [List.append_eq_nil_iff, hMembers,
          extraMismatches_eq_nil_iff,
          missingMismatches_eq_nil_iff, Json.object.injEq,
          exists_eq_left', acceptsProperty_iff_and]
        constructor
        · rintro ⟨⟨hListed, hKnown⟩, hRequired⟩
          exact ⟨fun m hm => ⟨hListed m hm, hKnown m hm⟩,
            hRequired⟩
        · rintro ⟨hMember, hRequired⟩
          exact ⟨⟨fun m hm => (hMember m hm).1,
            fun m hm => (hMember m hm).2⟩, hRequired⟩
    | null | bool _ | integer _ | float _ | string _
    | array _ => simp

/- Nothing is found in a member that is no property. -/
theorem propertyMismatches_eq_nil_iff :
    (properties : List (String × Schema)) →
      (name : String) → (place : Pointer) → (value : Json) →
      (propertyMismatches properties name place value = [] ↔
        ∀ schema, properties.lookup name = some schema →
          Accepts schema value)
| [], name, place, value => by
    simp [propertyMismatches]
| (key, schema) :: rest, name, place, value => by
    unfold propertyMismatches
    by_cases hKey : key = name
    · simp [hKey, mismatches_eq_nil_iff schema]
    · have hOther : (name == key) = false :=
        beq_eq_false_iff_ne.mpr (Ne.symm hKey)
      rw [if_neg hKey, List.lookup_cons, hOther]
      exact propertyMismatches_eq_nil_iff rest name place
        value

end

theorem violations_eq_nil_iff
    {schema : Schema}
    {document : Json} :
    schema.violations document = [] ↔
      Accepts schema document := by
  rw [violations, List.map_eq_nil_iff,
    mismatches_eq_nil_iff]

------------------------------------------------------------
-- Records
------------------------------------------------------------

/- The order of an object's members is of no account. -/
theorem accepts_record_iff_of_perm
    {properties : List (String × Schema)}
    {required : List String}
    {members parts : List (String × Json)}
    (hPerm : members.Perm parts) :
    Accepts (.record properties required) (.object members) ↔
      (∀ m ∈ parts, AcceptsProperty properties m.1 m.2) ∧
      ∀ name ∈ required, (parts.lookup name).isSome := by
  unfold Accepts
  simp [hPerm.mem_iff]

theorem lookup_zip_isSome
    {properties : List (String × Schema)}
    {parts : List (String × Json)}
    (hSame : properties.map Prod.fst = parts.map Prod.fst)
    {name : String}
    (hName : name ∈ properties.map Prod.fst) :
    (parts.lookup name).isSome := by
  rw [hSame] at hName
  cases hLookup : parts.lookup name with
  | some value => rfl
  | none =>
      rcases List.mem_map.mp hName with ⟨m, hMem, rfl⟩
      have hNone := List.lookup_eq_none_iff.mp hLookup m hMem
      simp at hNone

/-
  A member of a list of parts is judged by the property at
  its place if both lists name the same keys in order.
-/
theorem acceptsProperty_zip
    {properties : List (String × Schema)}
    {parts : List (String × Json)}
    (hSame : properties.map Prod.fst = parts.map Prod.fst)
    (hKeys : (parts.map Prod.fst).Nodup) :
    (∀ m ∈ parts, AcceptsProperty properties m.1 m.2) ↔
      ∀ p ∈ properties.zip parts, Accepts p.1.2 p.2.2 := by
  induction parts generalizing properties with
  | nil => simp
  | cons part rest ih =>
      cases properties with
      | nil => cases hSame
      | cons property others =>
          rcases property with ⟨key, schema⟩
          rcases part with ⟨name, value⟩
          simp only [List.map_cons, List.cons.injEq]
            at hSame
          rcases hSame with ⟨rfl, hRest⟩
          simp only [List.map_cons, List.nodup_cons] at hKeys
          rcases hKeys with ⟨hFresh, hOthers⟩
          have hApart : ∀ m ∈ rest,
              (AcceptsProperty ((key, schema) :: others)
                m.1 m.2 ↔
              AcceptsProperty others m.1 m.2) := by
            intro m hMem
            have hNe : key ≠ m.1 := by
              rintro rfl
              exact hFresh (List.mem_map.mpr ⟨m, hMem, rfl⟩)
            conv => lhs; unfold AcceptsProperty
            rw [if_neg hNe]
          rw [List.zip_cons_cons, List.forall_mem_cons,
            List.forall_mem_cons, ← ih hRest hOthers,
            forall₂_congr hApart]
          simp [AcceptsProperty]

theorem accepts_recordOf_iff_of_perm
    {properties : List (String × Schema)}
    {members parts : List (String × Json)}
    (hPerm : members.Perm parts)
    (hSame : properties.map Prod.fst = parts.map Prod.fst)
    (hKeys : (parts.map Prod.fst).Nodup) :
    Accepts (recordOf properties) (.object members) ↔
      ∀ p ∈ properties.zip parts, Accepts p.1.2 p.2.2 := by
  rw [recordOf, accepts_record_iff_of_perm hPerm,
    acceptsProperty_zip hSame hKeys]
  exact and_iff_left fun _ => lookup_zip_isSome hSame

theorem accepts_recordOf_iff
    {properties : List (String × Schema)}
    {parts : List (String × Json)}
    (hSame : properties.map Prod.fst = parts.map Prod.fst)
    (hKeys : (parts.map Prod.fst).Nodup) :
    Accepts (recordOf properties) (.ofMembers parts) ↔
      ∀ p ∈ properties.zip parts, Accepts p.1.2 p.2.2 :=
  accepts_recordOf_iff_of_perm (Table.ofList_perm hKeys)
    hSame hKeys

------------------------------------------------------------
-- Lists
------------------------------------------------------------

theorem accepts_list_ofList_iff
    {α : Type}
    {item : Schema}
    {minItems : Nat}
    {toJson : α → Json}
    {values : List α} :
    Accepts (.list item minItems false)
        (Json.ofList toJson values) ↔
      (∀ a ∈ values, Accepts item (toJson a)) ∧
        minItems ≤ values.length := by
  rw [Accepts, Json.ofList]
  simp

theorem accepts_listOf_iff
    {α : Type}
    {item : Schema}
    {toJson : α → Json}
    {values : List α} :
    Accepts (listOf item) (Json.ofList toJson values) ↔
      ∀ a ∈ values, Accepts item (toJson a) := by
  rw [listOf, accepts_list_ofList_iff]
  simp

end Schema

/- Texts are repeated as values if they are as texts. -/
theorem Json.hasRepeats_strings (texts : List String) :
    Json.hasRepeats (texts.map .string) = false ↔
      texts.Nodup := by
  unfold hasRepeats
  generalize (decide
    (unsignedLength < (texts.map Json.string).length)) = signed
  induction texts with
  | nil => simp [someRepeated]
  | cons text rest ih =>
      have hSame : ∀ other : String,
          sameValue signed (.string text) (.string other) =
            (text == other) := by
        intro other
        rw [sameValue]
      rw [List.map_cons, someRepeated, Bool.or_eq_false_iff,
        ih, List.nodup_cons]
      apply and_congr_left
      intro _
      rw [List.any_map, List.any_eq_false]
      simp only [Function.comp, hSame, beq_iff_eq]
      constructor
      · intro hOther hMem
        exact hOther text hMem rfl
      · intro hNotMem other hOther hEq
        exact hNotMem (hEq ▸ hOther)

namespace Schema

theorem accepts_strings_iff
    {item : Schema}
    {minItems : Nat}
    {texts : List String}
    (hNodup : texts.Nodup) :
    Accepts (.list item minItems true)
        (Json.ofList .string texts) ↔
      (∀ text ∈ texts, Accepts item (.string text)) ∧
        minItems ≤ texts.length := by
  have hRepeats := (Json.hasRepeats_strings texts).mpr hNodup
  rw [Accepts, Json.ofList]
  simp [hRepeats]

------------------------------------------------------------
-- Texts
------------------------------------------------------------

/- A code of an identifier. -/
def IsCode (text : String) : Prop :=
  text ≠ "" ∧ '/' ∉ text.toList

theorem accepts_text_iff
    {minLength : Nat}
    {pattern : Option Pattern}
    {text : String} :
    Accepts (.text minLength pattern) (.string text) ↔
      minLength ≤ text.length ∧
        ∀ p ∈ pattern, p.accepts text.toList = true := by
  rw [Accepts]
  simp

theorem one_le_length_iff {text : String} :
    1 ≤ text.length ↔ text ≠ "" := by
  rw [Nat.one_le_iff_ne_zero, ne_eq,
    String.length_eq_zero_iff]

theorem accepts_code_iff {text : String} :
    Accepts code (.string text) ↔ IsCode text := by
  have hEmpty : text.toList ≠ [] ↔ text ≠ "" := by
    simp
  rw [code, accepts_text_iff, one_le_length_iff, IsCode]
  simp [codePattern_accepts_iff, hEmpty]

theorem accepts_code_of_isPart
    {text : String}
    (hPart : IsPart text) :
    Accepts code (.string text) := by
  refine accepts_code_iff.mpr ⟨?_, hPart.2⟩
  rintro rfl
  exact absurd hPart.1 (by decide)

theorem accepts_name_iff {text : String} :
    Accepts name (.string text) ↔ text ≠ "" := by
  rw [name, accepts_text_iff, one_le_length_iff]
  simp

theorem accepts_anyText (text : String) :
    Accepts anyText (.string text) := by
  rw [anyText, accepts_text_iff]
  simp

theorem accepts_url_iff {text : String} :
    Accepts url (.string text) ↔
      urlPattern.accepts text.toList = true := by
  rw [url, accepts_text_iff]
  simp

theorem accepts_hash (message : Bytes) :
    Accepts hash (.string (Sha256.hexDigest message)) := by
  rw [hash, accepts_text_iff]
  simp [hashPattern_accepts_hexDigest]

theorem accepts_certificate_iff {c : CertificateBytes} :
    Accepts certificate c.toJson ↔ c.bytes ≠ [] := by
  rw [certificate, CertificateBytes.toJson, accepts_text_iff]
  constructor
  · rintro ⟨hLength, -⟩ hEmpty
    have hText : c.toBase64 = "" := by
      rw [CertificateBytes.toBase64, hEmpty]
      rfl
    rw [hText] at hLength
    exact absurd hLength (by decide)
  · intro hBytes
    refine ⟨CertificateBytes.toBase64_length hBytes, ?_⟩
    simp [certificatePattern_accepts_toBase64 hBytes]

end Schema

end Federation
