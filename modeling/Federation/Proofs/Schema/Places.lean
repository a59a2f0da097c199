import Federation.Proofs.Json.Normal
import Federation.Proofs.Pointer
import Federation.Proofs.Schema.Acceptance

/-
  The schema at a place: which one judges the part that a
  pointer leads to, and that every mismatch is told of the
  part that fails the schema of its own place.

  Main declarations:
    * `Schema.resolve?`
    * `Schema.Accepts.exists_of_resolve`
    * `Schema.exists_part_of_mismatch`
-/

namespace Federation

namespace Schema

------------------------------------------------------------
-- Steps into a Schema
------------------------------------------------------------

/- The schema of the parts that a step leads to. -/
def step? : PointerStep → Schema → Option Schema
| .key name, .record properties _ => properties.lookup name
| .index _, .list item _ _ => some item
| _, _ => none

/- The schema of the part that a pointer leads to. -/
def resolve?
    (p : Pointer)
    (schema : Schema) : Option Schema :=
  p.foldlM (fun part step => step? step part) schema

@[simp] theorem resolve?_root (schema : Schema) :
    resolve? [] schema = some schema :=
  rfl

theorem resolve?_cons
    (step : PointerStep)
    (p : Pointer)
    (schema : Schema) :
    resolve? (step :: p) schema =
      (step? step schema).bind (resolve? p) :=
  rfl

theorem resolve?_append
    (p q : Pointer)
    (schema : Schema) :
    resolve? (p ++ q) schema =
      (resolve? p schema).bind (resolve? q) :=
  List.foldlM_append

------------------------------------------------------------
-- Accepted Parts
------------------------------------------------------------

/- A part of an accepted value has a schema that accepts it. -/
theorem Accepts.exists_of_step
    {schema : Schema}
    {value part : Json}
    {step : PointerStep}
    (hAccepts : Accepts schema value)
    (hPart : Pointer.step? step value = some part) :
    ∃ sub, step? step schema = some sub ∧
      Accepts sub part := by
  cases step with
  | key name =>
      cases value with
      | object members =>
          have hMem : (name, part) ∈ members :=
            Table.mem_of_lookup hPart
          cases schema with
          | record properties required =>
              rw [Accepts] at hAccepts
              rcases hAccepts with ⟨_, hObject, hMembers, -⟩
              cases hObject
              exact acceptsProperty_iff.mp
                (hMembers (name, part) hMem)
          | text _ _ | flag | whole _ | constant _
          | list _ _ _ =>
              simp [Accepts, Json.isWhole, Json.sameValue,
                Json.sameNumber] at hAccepts
      | null | bool _ | integer _ | float _ | string _
      | array _ => simp [Pointer.step?, Json.get?] at hPart
  | index i =>
      cases value with
      | array items =>
          have hItem : items[i]? = some part := hPart
          cases schema with
          | list item minItems unique =>
              rw [Accepts] at hAccepts
              rcases hAccepts with ⟨_, hArray, hItems, -⟩
              cases hArray
              exact ⟨item, rfl, hItems part
                (List.mem_of_getElem? hItem)⟩
          | text _ _ | flag | whole _ | constant _
          | record _ _ =>
              simp [Accepts, Json.isWhole, Json.sameValue,
                Json.sameNumber] at hAccepts
      | null | bool _ | integer _ | float _ | string _
      | object _ =>
          simp [Pointer.step?, Json.asArray?] at hPart

/- By induction on the pointer, one step after the other. -/
theorem Accepts.exists_of_resolve
    {schema : Schema}
    {value part : Json}
    {p : Pointer}
    (hAccepts : Accepts schema value)
    (hPart : p.resolve? value = some part) :
    ∃ sub, resolve? p schema = some sub ∧
      Accepts sub part := by
  induction p generalizing schema value with
  | nil =>
      cases hPart
      exact ⟨schema, rfl, hAccepts⟩
  | cons step p ih =>
      rw [Pointer.resolve?_cons, Option.bind_eq_some_iff]
        at hPart
      rcases hPart with ⟨next, hStep, hRest⟩
      rcases hAccepts.exists_of_step hStep with
        ⟨sub, hSub, hNext⟩
      rcases ih hNext hRest with ⟨last, hLast, hPart⟩
      exact ⟨last,
        by rw [resolve?_cons, hSub, Option.bind_some, hLast],
        hPart⟩

/- A part at a place with a schema is accepted by it. -/
theorem Accepts.of_resolve
    {schema sub : Schema}
    {value part : Json}
    {p : Pointer}
    (hAccepts : Accepts schema value)
    (hSchema : resolve? p schema = some sub)
    (hPart : p.resolve? value = some part) :
    Accepts sub part := by
  rcases hAccepts.exists_of_resolve hPart with
    ⟨other, hOther, hAccepted⟩
  rw [hSchema] at hOther
  cases hOther
  exact hAccepted

/- A required member of an accepted record is there. -/
theorem Accepts.exists_required
    {properties : List (String × Schema)}
    {required : List String}
    {name : String}
    {sub : Schema}
    {value : Json}
    (hAccepts : Accepts (.record properties required) value)
    (hRequired : name ∈ required)
    (hProperty : properties.lookup name = some sub) :
    ∃ part, value.get? name = some part ∧
      Accepts sub part := by
  have hWhole := hAccepts
  rw [Accepts] at hAccepts
  rcases hAccepts with ⟨members, rfl, -, hAll⟩
  rcases Option.isSome_iff_exists.mp (hAll name hRequired) with
    ⟨part, hPart⟩
  rcases hWhole.exists_of_step
      (show Pointer.step? (.key name) (.object members) =
        some part from hPart) with
    ⟨other, hOther, hAccepted⟩
  refine ⟨part, hPart, ?_⟩
  rw [show step? (.key name) (.record properties required) =
    properties.lookup name from rfl, hProperty] at hOther
  cases hOther
  exact hAccepted

/- A required text of an accepted record. -/
theorem Accepts.exists_text
    {properties : List (String × Schema)}
    {required : List String}
    {name : String}
    {minLength : Nat}
    {pattern : Option Pattern}
    {value : Json}
    (hAccepts : Accepts (.record properties required) value)
    (hRequired : name ∈ required)
    (hProperty : properties.lookup name =
      some (.text minLength pattern)) :
    ∃ s, value.get? name = some (.string s) := by
  rcases hAccepts.exists_required hRequired hProperty with
    ⟨part, hPart, hText⟩
  rw [Accepts] at hText
  rcases hText with ⟨s, rfl, -⟩
  exact ⟨s, hPart⟩

------------------------------------------------------------
-- Places of Mismatches
------------------------------------------------------------

/- At a place, below another, is a part that its schema fails. -/
def FailsAt
    (schema : Schema)
    (place : Pointer)
    (value : Json)
    (found : Pointer) : Prop :=
  ∃ p sub part, found = place ++ p ∧
    resolve? p schema = some sub ∧
    p.resolve? value = some part ∧ ¬ Accepts sub part

theorem FailsAt.of_step
    {schema sub : Schema}
    {place found : Pointer}
    {value part : Json}
    {step : PointerStep}
    (hFails : FailsAt sub (place ++ [step]) part found)
    (hSchema : step? step schema = some sub)
    (hPart : Pointer.step? step value = some part) :
    FailsAt schema place value found := by
  rcases hFails with
    ⟨p, last, rest, rfl, hLast, hRest, hFails⟩
  refine ⟨step :: p, last, rest, by simp, ?_, ?_, hFails⟩
  · rw [resolve?_cons, hSchema, Option.bind_some, hLast]
  · rw [Pointer.resolve?_cons, hPart, Option.bind_some, hRest]

/- A mismatch at the place itself tells of the whole value. -/
theorem failsAt_of_place_eq
    {schema : Schema}
    {place : Pointer}
    {value : Json}
    {f : Finding}
    (hFound : f ∈ mismatches schema place value)
    (hHere : f.1 = place) :
    FailsAt schema place value f.1 := by
  refine ⟨[], schema, value, by simp [hHere], rfl, rfl, ?_⟩
  intro hAccepts
  rw [(mismatches_eq_nil_iff schema place value).mpr hAccepts]
    at hFound
  cases hFound

theorem mem_whenever_iff
    {f : Finding}
    {condition : Bool}
    {place : Pointer}
    {mismatch : Mismatch} :
    f ∈ whenever condition place mismatch ↔
      condition = true ∧ f = (place, mismatch) := by
  cases condition <;> simp [whenever]

theorem place_of_textMismatch
    {minLength : Nat}
    {pattern : Option Pattern}
    {place : Pointer}
    {value : Json}
    {f : Finding}
    (hFound : f ∈ textMismatches minLength pattern place value) :
    f.1 = place := by
  unfold textMismatches at hFound
  cases value with
  | string s =>
      cases pattern <;>
        simp only [List.mem_append, mem_whenever_iff,
          List.not_mem_nil, or_false] at hFound
      · rw [hFound.2]
      · rcases hFound with hFound | hFound <;> rw [hFound.2]
  | null | bool _ | integer _ | float _ | array _
  | object _ => rw [List.mem_singleton.mp hFound]

/- A mismatch of a list is its own or of one of its items. -/
theorem mismatch_of_list
    {item : Schema}
    {minItems : Nat}
    {unique : Bool}
    {place : Pointer}
    {value : Json}
    {f : Finding}
    (hFound :
      f ∈ mismatches (.list item minItems unique) place
        value) :
    f.1 = place ∨
      ∃ items i part, value = .array items ∧
        items[i]? = some part ∧
        f ∈ mismatches item (place.index i) part := by
  unfold mismatches at hFound
  cases value with
  | array items =>
      simp only [List.mem_append, List.mem_flatMap,
        mem_whenever_iff] at hFound
      rcases hFound with
        (⟨⟨part, i⟩, hPart, hFound⟩ | hFound) | hFound
      · exact Or.inr ⟨items, i, part, rfl,
          List.mem_zipIdx_iff_getElem?.mp hPart, hFound⟩
      · exact Or.inl (by rw [hFound.2])
      · exact Or.inl (by rw [hFound.2])
  | null | bool _ | integer _ | float _ | string _
  | object _ =>
      exact Or.inl (by rw [List.mem_singleton.mp hFound])

/- A mismatch of a record is its own or of one of its members. -/
theorem mismatch_of_record
    {properties : List (String × Schema)}
    {required : List String}
    {place : Pointer}
    {value : Json}
    {f : Finding}
    (hFound :
      f ∈ mismatches (.record properties required) place
        value) :
    f.1 = place ∨
      ∃ members name part, value = .object members ∧
        (name, part) ∈ members ∧
        f ∈ propertyMismatches properties name
          (place.key name) part := by
  unfold mismatches at hFound
  cases value with
  | object members =>
      simp only [List.mem_append, List.mem_flatMap] at hFound
      rcases hFound with
        (⟨⟨name, part⟩, hMem, hFound⟩ | hFound) | hFound
      · exact Or.inr ⟨members, name, part, rfl, hMem, hFound⟩
      · unfold extraMismatches at hFound
        split at hFound
        · cases hFound
        · exact Or.inl (by rw [List.mem_singleton.mp hFound])
      · rcases List.mem_map.mp hFound with ⟨name, -, rfl⟩
        exact Or.inl rfl
  | null | bool _ | integer _ | float _ | string _
  | array _ =>
      exact Or.inl (by rw [List.mem_singleton.mp hFound])

mutual

/-
  By recursion on the schema: a mismatch is told of the value
  as a whole, or found in a part of it.
-/
theorem failsAt_of_mismatch :
    (schema : Schema) → (place : Pointer) → (value : Json) →
      value.IsNormal → ∀ f ∈ mismatches schema place value,
        FailsAt schema place value f.1
| .text minLength pattern, place, value, _ => by
    intro f hFound
    refine failsAt_of_place_eq hFound ?_
    unfold mismatches at hFound
    exact place_of_textMismatch hFound
| .flag, place, value, _ => by
    intro f hFound
    refine failsAt_of_place_eq hFound ?_
    unfold mismatches at hFound
    split at hFound
    · cases hFound
    · rw [List.mem_singleton.mp hFound]
| .whole minimum, place, value, _ => by
    intro f hFound
    refine failsAt_of_place_eq hFound ?_
    unfold mismatches wholeMismatches at hFound
    simp only [List.mem_append, mem_whenever_iff] at hFound
    rcases hFound with hFound | hFound <;> rw [hFound.2]
| .constant expected, place, value, _ => by
    intro f hFound
    refine failsAt_of_place_eq hFound ?_
    unfold mismatches at hFound
    rw [(mem_whenever_iff.mp hFound).2]
| .list item minItems unique, place, value, hNormal => by
    intro f hFound
    rcases mismatch_of_list hFound with
      hHere | ⟨items, i, part, rfl, hItem, hPart⟩
    · exact failsAt_of_place_eq hFound hHere
    · have hNormalPart : part.IsNormal := by
        cases hNormal with
        | array hItems =>
            exact hItems part (List.mem_of_getElem? hItem)
      exact (failsAt_of_mismatch item (place.index i) part
        hNormalPart f hPart).of_step rfl hItem
| .record properties required, place, value, hNormal => by
    intro f hFound
    rcases mismatch_of_record hFound with
      hHere | ⟨members, name, part, rfl, hMem, hPart⟩
    · exact failsAt_of_place_eq hFound hHere
    · cases hNormal with
      | object hOrdered hMembers =>
          rcases failsAt_of_propertyMismatch properties name
              (place.key name) part (hMembers _ hMem) f
              hPart with ⟨sub, hSub, hFails⟩
          exact hFails.of_step hSub
            (Table.lookup_of_mem hOrdered.nodup_keys hMem)

/- A mismatch of a member is found by the schema of its name. -/
theorem failsAt_of_propertyMismatch :
    (properties : List (String × Schema)) →
      (name : String) → (place : Pointer) → (value : Json) →
      value.IsNormal →
      ∀ f ∈ propertyMismatches properties name place value,
        ∃ sub, properties.lookup name = some sub ∧
          FailsAt sub place value f.1
| [], name, place, value, _ => by
    intro f hFound
    rw [propertyMismatches] at hFound
    cases hFound
| (key, schema) :: rest, name, place, value, hNormal => by
    intro f hFound
    unfold propertyMismatches at hFound
    by_cases hKey : key = name
    · rw [if_pos hKey] at hFound
      exact ⟨schema, by simp [hKey],
        failsAt_of_mismatch schema place value hNormal f
          hFound⟩
    · rw [if_neg hKey] at hFound
      have hOther : (name == key) = false :=
        beq_eq_false_iff_ne.mpr (Ne.symm hKey)
      rw [List.lookup_cons, hOther]
      exact failsAt_of_propertyMismatch rest name place value
        hNormal f hFound

end

/- The part of a document that a mismatch tells of. -/
theorem exists_part_of_mismatch
    {schema : Schema}
    {document : Json}
    {f : Finding}
    (hNormal : document.IsNormal)
    (hFound : f ∈ mismatches schema [] document) :
    ∃ sub part, resolve? f.1 schema = some sub ∧
      f.1.resolve? document = some part ∧
      ¬ Accepts sub part := by
  rcases failsAt_of_mismatch schema [] document hNormal f
    hFound with ⟨p, sub, part, hPlace, hRest⟩
  rw [List.nil_append] at hPlace
  exact ⟨sub, part, hPlace ▸ hRest⟩

/- Below a part that its schema accepts there is no mismatch. -/
theorem not_prefix_of_mismatch
    {schema sub : Schema}
    {document : Json}
    {place : Pointer}
    {f : Finding}
    (hNormal : document.IsNormal)
    (hFound : f ∈ mismatches schema [] document)
    (hSchema : resolve? place schema = some sub)
    (hAccepts : ∀ part, place.resolve? document = some part →
      Accepts sub part) :
    ¬ place <+: f.1 := by
  rintro ⟨rest, hPlace⟩
  rcases exists_part_of_mismatch hNormal hFound with
    ⟨last, inner, hLast, hInner, hFails⟩
  rw [← hPlace, resolve?_append, hSchema, Option.bind_some]
    at hLast
  rw [← hPlace, Pointer.resolve?_append,
    Option.bind_eq_some_iff] at hInner
  rcases hInner with ⟨part, hPart, hInner⟩
  exact hFails ((hAccepts part hPart).of_resolve hLast hInner)

end Schema

------------------------------------------------------------
-- Schemas of Documents
------------------------------------------------------------

/- A schema that is found is one of all, and of the kind. -/
theorem ParameterSchema.mem_all_of_find
    {kind : DocumentKind}
    {version : Version}
    {schema : ParameterSchema}
    (hSchema : find? kind version = some schema) :
    schema ∈ all ∧ schema.kind = kind := by
  have hFound := List.find?_some hSchema
  simp only [decide_eq_true_eq] at hFound
  exact ⟨List.mem_of_find?_eq_some hSchema, hFound.1⟩

end Federation
