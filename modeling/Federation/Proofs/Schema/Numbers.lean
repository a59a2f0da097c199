import Federation.Proofs.Canonical
import Federation.Proofs.Schema.Places
import Federation.Schema.Parameters

/-
  The numbers of documents. Beside its version a document has
  one number, of seconds, so that the only float that its
  content can have is there.

  Main declarations:
    * `Canonical.firstFloatOfMembers?_eq`
    * `Schema.hasNoFloat_of_accepts`
    * `ParameterSchema.secondsPlace`
    * `ParameterSchema.firstFloat?_content`
-/

namespace Federation

------------------------------------------------------------
-- The First Float
------------------------------------------------------------

namespace Canonical

/-
  If no other member has a float, the first float of members
  is the one of a given member.
-/
theorem firstFloatOfMembers?_eq
    {members : List (String × Json)}
    {key : String}
    {part : Json}
    (hKeys : (members.map Prod.fst).Nodup)
    (hPart : members.lookup key = some part)
    (hOthers : ∀ m ∈ members, m.1 ≠ key →
      HasNoFloat m.2) :
    firstFloatOfMembers? members = firstFloat? part := by
  induction members with
  | nil => cases hPart
  | cons m rest ih =>
      rcases m with ⟨name, value⟩
      rw [List.map_cons, List.nodup_cons] at hKeys
      rw [List.forall_mem_cons] at hOthers
      unfold firstFloatOfMembers?
      by_cases hName : name = key
      · subst hName
        have hValue : value = part := by
          simpa using hPart
        have hRest : firstFloatOfMembers? rest = none :=
          firstFloatOfMembers?_eq_none_iff.mpr
            fun m hMem => hOthers.2 m hMem fun hSame =>
              hKeys.1 (List.mem_map.mpr ⟨m, hMem, hSame⟩)
        rw [hValue, hRest]
        cases firstFloat? part <;> rfl
      · have hFirst : firstFloat? value = none :=
          hOthers.1 hName
        have hOther : (key == name) = false :=
          beq_eq_false_iff_ne.mpr (Ne.symm hName)
        rw [List.lookup_cons, hOther] at hPart
        rw [hFirst]
        exact ih hKeys.2 hPart hOthers.2

end Canonical

------------------------------------------------------------
-- Schemas without Numbers
------------------------------------------------------------

namespace Schema

open Canonical (HasNoFloat)

mutual

/- No value of a schema has a number. -/
def isNumberless : Schema → Bool
| .text _ _ => true
| .flag => true
| .whole _ => false
| .constant _ => false
| .list item _ _ => item.isNumberless
| .record properties _ => propertiesNumberless properties

/- No value of any property has a number. -/
def propertiesNumberless : List (String × Schema) → Bool
| [] => true
| (_, schema) :: rest =>
    schema.isNumberless && propertiesNumberless rest

end

mutual

/- What has no number has no float. -/
theorem hasNoFloat_of_accepts :
    (schema : Schema) → (value : Json) →
      Accepts schema value → schema.isNumberless = true →
      HasNoFloat value
| .text minLength pattern, value, hAccepts, _ => by
    unfold Accepts at hAccepts
    rcases hAccepts with ⟨s, rfl, -⟩
    exact Canonical.hasNoFloat_string s
| .flag, value, hAccepts, _ => by
    unfold Accepts at hAccepts
    rcases hAccepts with ⟨b, rfl⟩
    exact Canonical.hasNoFloat_bool b
| .list item minItems unique, value, hAccepts, hNone => by
    unfold Accepts at hAccepts
    rcases hAccepts with ⟨items, rfl, hItems, -⟩
    rw [Canonical.hasNoFloat_array]
    rw [isNumberless] at hNone
    exact fun part hMem =>
      hasNoFloat_of_accepts item part (hItems part hMem) hNone
| .record properties required, value, hAccepts, hNone => by
    unfold Accepts at hAccepts
    rcases hAccepts with ⟨members, rfl, hMembers, -⟩
    rw [Canonical.hasNoFloat_object]
    rw [isNumberless] at hNone
    exact fun m hMem =>
      hasNoFloat_of_acceptsProperty properties m.1 m.2
        (hMembers m hMem) hNone
| .whole _, _, _, hNone => by
    rw [isNumberless] at hNone
    cases hNone
| .constant _, _, _, hNone => by
    rw [isNumberless] at hNone
    cases hNone

theorem hasNoFloat_of_acceptsProperty :
    (properties : List (String × Schema)) →
      (name : String) → (value : Json) →
      AcceptsProperty properties name value →
      propertiesNumberless properties = true →
      HasNoFloat value
| [], _, _, hAccepts, _ => by
    unfold AcceptsProperty at hAccepts
    exact hAccepts.elim
| (key, schema) :: rest, name, value, hAccepts, hNone => by
    unfold AcceptsProperty at hAccepts
    rw [propertiesNumberless, Bool.and_eq_true] at hNone
    split at hAccepts
    · exact hasNoFloat_of_accepts schema value hAccepts
        hNone.1
    · exact hasNoFloat_of_acceptsProperty rest name value
        hAccepts hNone.2

end

/-
  If no property but one has a number, the first float of
  members is the one of that property's member.
-/
theorem Accepts.firstFloatOfMembers?_eq
    {properties : List (String × Schema)}
    {required : List String}
    {members kept : List (String × Json)}
    {key : String}
    {part : Json}
    (hAccepts : Accepts (.record properties required)
      (.object members))
    (hKept : kept.Sublist members)
    (hKeys : (members.map Prod.fst).Nodup)
    (hPart : kept.lookup key = some part)
    (hNone : ∀ m ∈ kept, ∀ property ∈ properties,
      property.1 = m.1 → m.1 ≠ key →
        property.2.isNumberless = true) :
    Canonical.firstFloatOfMembers? kept =
      Canonical.firstFloat? part := by
  unfold Accepts at hAccepts
  rcases hAccepts with ⟨_, hObject, hMembers, -⟩
  cases hObject
  refine Canonical.firstFloatOfMembers?_eq
    ((hKept.map Prod.fst).nodup hKeys) hPart ?_
  intro m hMem hOther
  rcases acceptsProperty_iff.mp
      (hMembers m (hKept.subset hMem)) with
    ⟨sub, hSub, hAccepted⟩
  exact hasNoFloat_of_accepts sub m.2 hAccepted
    (hNone m hMem (m.1, sub) (Table.mem_of_lookup hSub) rfl
      hOther)

end Schema

------------------------------------------------------------
-- Schemas of Documents
------------------------------------------------------------

namespace ParameterSchema

variable {kind : DocumentKind} {version : Version}
variable {schema : ParameterSchema}

/- The way to the number of seconds in documents of a kind. -/
def secondsPlace : DocumentKind → Pointer
| .privateParameters => [.key "timeStampingIntervalSeconds"]
| .sharedParameters =>
    [.key "globalSettings", .key "ocspFreshnessSeconds"]

/- The member of documents of a kind that it is in. -/
def secondsKey : DocumentKind → String
| .privateParameters => "timeStampingIntervalSeconds"
| .sharedParameters => "globalSettings"

/- No other member has a number, beside the version. -/
theorem isNumberless_of_find
    (hSchema : find? kind version = some schema) :
    ∀ property ∈ schema.properties,
      property.1 ≠ "version" →
      property.1 ≠ secondsKey kind →
        property.2.isNumberless = true := by
  have hAll : ∀ s ∈ all, ∀ property ∈ s.properties,
      property.1 ≠ "version" →
      property.1 ≠ secondsKey s.kind →
        property.2.isNumberless = true := by
    decide
  rcases mem_all_of_find hSchema with ⟨hMem, rfl⟩
  exact hAll schema hMem

theorem resolve?_secondsPlace
    (hSchema : find? kind version = some schema) :
    Schema.resolve? (secondsPlace kind) schema.root =
      some (.whole 1) := by
  rcases mem_all_of_find hSchema with ⟨hMem, rfl⟩
  simp only [all, List.mem_cons, List.not_mem_nil, or_false]
    at hMem
  rcases hMem with rfl | rfl | rfl | rfl <;> rfl

/- The settings of shared parameters have no other number. -/
theorem exists_settings
    (hSchema : find? .sharedParameters version = some schema) :
    ∃ settings,
      Schema.resolve? [.key "globalSettings"] schema.root =
        some (Schema.recordOf settings) ∧
      settings.lookup "ocspFreshnessSeconds" =
        some (.whole 1) ∧
      ∀ property ∈ settings,
        property.1 ≠ "ocspFreshnessSeconds" →
          property.2.isNumberless = true := by
  rcases mem_all_of_find hSchema with ⟨hMem, hKind⟩
  simp only [all, List.mem_cons, List.not_mem_nil, or_false]
    at hMem
  rcases hMem with rfl | rfl | rfl | rfl
  · cases hKind
  · cases hKind
  · exact ⟨Schema.settingsV1, rfl, rfl, by decide⟩
  · exact ⟨Schema.settingsV2, rfl, rfl, by decide⟩

/- The seconds are the only number of the member they are in. -/
theorem exists_seconds
    {document part : Json}
    (hSchema : find? kind version = some schema)
    (hAccepts : Schema.Accepts schema.root document)
    (hNormal : part.IsNormal)
    (hPart : Pointer.resolve? [.key (secondsKey kind)]
      document = some part) :
    ∃ seconds,
      (secondsPlace kind).resolve? document = some seconds ∧
      Canonical.firstFloat? part =
        Canonical.firstFloat? seconds := by
  cases kind with
  | privateParameters => exact ⟨part, hPart, rfl⟩
  | sharedParameters =>
      rcases exists_settings hSchema with
        ⟨settings, hSettings, hWhole, hOthers⟩
      have hRecord := hAccepts.of_resolve hSettings hPart
      rcases hRecord.exists_required
          (List.mem_map_of_mem (Table.mem_of_lookup hWhole))
          hWhole with ⟨seconds, hSeconds, -⟩
      refine ⟨seconds, ?_, ?_⟩
      · have hWay : secondsPlace .sharedParameters =
            [.key (secondsKey .sharedParameters)] ++
              [.key "ocspFreshnessSeconds"] :=
          rfl
        rw [hWay, Pointer.resolve?_append, hPart,
          Option.bind_some, Pointer.resolve?_single]
        exact hSeconds
      · cases hNormal with
        | object hOrdered _ =>
            exact hRecord.firstFloatOfMembers?_eq
              (List.Sublist.refl _) hOrdered.nodup_keys
              hSeconds fun _ _ property hMem hSame hOther =>
                hOthers property hMem (hSame ▸ hOther)
        | _ => cases hSeconds

theorem exists_secondsPart
    {entries : Json.Members}
    (hSchema : find? kind version = some schema)
    (hAccepts :
      Schema.Accepts schema.root (.object entries)) :
    ∃ part, entries.lookup (secondsKey kind) = some part := by
  have hAll : ∀ s ∈ all,
      secondsKey s.kind ∈ s.properties.map Prod.fst := by
    decide
  rcases mem_all_of_find hSchema with ⟨hMem, rfl⟩
  rw [root, Schema.recordOf, Schema.Accepts] at hAccepts
  rcases hAccepts with ⟨_, hObject, -, hRequired⟩
  cases hObject
  exact Option.isSome_iff_exists.mp
    (hRequired _ (hAll schema hMem))

/-
  The content of an accepted document has a float exactly if
  its seconds are one, and then no other.
-/
theorem firstFloat?_content
    {entries : Json.Members}
    (hSchema : find? kind version = some schema)
    (hAccepts : Schema.Accepts schema.root (.object entries))
    (hNormal : (Json.object entries).IsNormal) :
    ∃ seconds,
      (secondsPlace kind).resolve? (.object entries) =
        some seconds ∧
      Schema.Accepts (.whole 1) seconds ∧
      Canonical.firstFloatOfMembers?
          (entries.filter fun m =>
            m.1 ∉ Document.envelopeKeys) =
        Canonical.firstFloat? seconds := by
  rcases exists_secondsPart hSchema hAccepts with
    ⟨part, hPart⟩
  rcases hNormal with _ | _ | _ | _ | _ | _ |
    ⟨hOrdered, hMembers⟩
  have hKeys := hOrdered.nodup_keys
  have hMem := Table.mem_of_lookup hPart
  have hPlace : Pointer.resolve? [.key (secondsKey kind)]
      (.object entries) = some part := by
    rw [Pointer.resolve?_single]
    exact hPart
  have hOutside :
      secondsKey kind ∉ Document.envelopeKeys := by
    cases kind <;> decide
  rcases exists_seconds hSchema hAccepts (hMembers _ hMem)
      hPlace with ⟨seconds, hSeconds, hFloat⟩
  refine ⟨seconds, hSeconds,
    hAccepts.of_resolve (resolve?_secondsPlace hSchema)
      hSeconds, ?_⟩
  have hKept := List.filter_sublist
    (p := fun m : String × Json =>
      m.1 ∉ Document.envelopeKeys) (l := entries)
  rw [← hFloat]
  refine hAccepts.firstFloatOfMembers?_eq hKept hKeys
    (Table.lookup_of_mem ((hKept.map Prod.fst).nodup hKeys)
      (List.mem_filter.mpr ⟨hMem, by simpa using hOutside⟩))
    ?_
  intro m hContent property hProperty hSame hOther
  have hInside : m.1 ∉ Document.envelopeKeys := by
    simpa using (List.mem_filter.mp hContent).2
  refine isNumberless_of_find hSchema property hProperty ?_
    (hSame ▸ hOther)
  intro hVersion
  rw [← hSame, hVersion] at hInside
  exact hInside (by decide)

end ParameterSchema

end Federation
