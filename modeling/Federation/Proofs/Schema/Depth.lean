import Federation.Proofs.Canonical
import Federation.Proofs.Json.Normal
import Federation.Proofs.Schema.Acceptance

/-
  The depth of schemas: a normal value without floats that a
  schema accepts is nested no more deeply than the schema, so
  that it can be printed and read back.

  Main declarations:
    * `Schema.depth`
    * `Schema.isPrintable_of_accepts`
    * `ParameterSchema.depth_root_lt`
-/

namespace Federation

namespace Schema

open Json (IsNormal IsPrintable)
open Canonical (HasNoFloat)

------------------------------------------------------------
-- Depth
------------------------------------------------------------

mutual

/- How deeply the values of a schema are nested at most. -/
def depth : Schema → Nat
| .text _ _ => 0
| .flag => 0
| .whole _ => 0
| .constant _ => 0
| .list item _ _ => item.depth + 1
| .record properties _ => propertiesDepth properties + 1

/- The greatest depth of properties. -/
def propertiesDepth : List (String × Schema) → Nat
| [] => 0
| (_, schema) :: rest => max schema.depth (propertiesDepth rest)

end

/- A value that is the same as an integer is a number. -/
theorem isPrintable_of_sameValue
    {value : Json}
    {n : Int}
    (hSame : value.sameValue false (.integer n) = true)
    (hNormal : IsNormal value)
    (hFloat : HasNoFloat value) :
    IsPrintable 0 value := by
  cases hNormal with
  | integer hRange => exact .integer hRange
  | float x => cases hFloat
  | null | bool b | string s | array _ | object _ _ =>
      simp [Json.sameValue, Json.sameNumber] at hSame

theorem isPrintable_of_isWhole
    {value : Json}
    (hWhole : value.isWhole = true)
    (hNormal : IsNormal value)
    (hFloat : HasNoFloat value) :
    IsPrintable 0 value := by
  cases hNormal with
  | integer hRange => exact .integer hRange
  | float x => cases hFloat
  | null | bool b | string s | array _ | object _ _ =>
      simp [Json.isWhole] at hWhole

mutual

/- A schema bounds the depth of the values that it accepts. -/
theorem isPrintable_of_accepts :
    (schema : Schema) → (value : Json) →
      Accepts schema value → IsNormal value →
      HasNoFloat value →
      IsPrintable schema.depth value
| .text minLength pattern, value, hAccepts, _, _ => by
    unfold Accepts at hAccepts
    rcases hAccepts with ⟨s, rfl, -⟩
    exact .string s
| .flag, value, hAccepts, _, _ => by
    unfold Accepts at hAccepts
    rcases hAccepts with ⟨b, rfl⟩
    exact .bool b
| .whole minimum, value, hAccepts, hNormal, hFloat => by
    unfold Accepts at hAccepts
    exact (isPrintable_of_isWhole hAccepts.2 hNormal
      hFloat).mono (Nat.zero_le _)
| .constant expected, value, hAccepts, hNormal, hFloat => by
    unfold Accepts at hAccepts
    exact (isPrintable_of_sameValue hAccepts hNormal
      hFloat).mono (Nat.zero_le _)
| .list item minItems unique, value, hAccepts, hNormal,
    hFloat => by
    unfold Accepts at hAccepts
    rcases hAccepts with ⟨items, rfl, hItems, -⟩
    rcases hNormal with _ | _ | _ | _ | _ | hParts | _
    rw [Canonical.hasNoFloat_array] at hFloat
    rw [depth]
    exact .array fun part hMem =>
      isPrintable_of_accepts item part (hItems part hMem)
        (hParts part hMem) (hFloat part hMem)
| .record properties required, value, hAccepts, hNormal,
    hFloat => by
    unfold Accepts at hAccepts
    rcases hAccepts with ⟨members, rfl, hMembers, -⟩
    rcases hNormal with _ | _ | _ | _ | _ | _ | ⟨-, hParts⟩
    rw [Canonical.hasNoFloat_object] at hFloat
    rw [depth]
    exact .object fun m hMem =>
      isPrintable_of_acceptsProperty properties m.1 m.2
        (hMembers m hMem) (hParts m hMem) (hFloat m hMem)

theorem isPrintable_of_acceptsProperty :
    (properties : List (String × Schema)) →
      (name : String) → (value : Json) →
      AcceptsProperty properties name value →
      IsNormal value → HasNoFloat value →
      IsPrintable (propertiesDepth properties) value
| [], _, _, hAccepts, _, _ => by
    unfold AcceptsProperty at hAccepts
    exact hAccepts.elim
| (key, schema) :: rest, name, value, hAccepts, hNormal,
    hFloat => by
    unfold AcceptsProperty at hAccepts
    rw [propertiesDepth]
    split at hAccepts
    · exact (isPrintable_of_accepts schema value hAccepts
        hNormal hFloat).mono (Nat.le_max_left _ _)
    · exact (isPrintable_of_acceptsProperty rest name value
        hAccepts hNormal hFloat).mono (Nat.le_max_right _ _)

end

end Schema

/- Every document of a schema is nested less than the limit. -/
theorem ParameterSchema.depth_root_lt
    {kind : DocumentKind}
    {version : Version}
    {schema : ParameterSchema}
    (hFound : find? kind version = some schema) :
    schema.root.depth < 128 := by
  have hAll : ∀ s ∈ all, s.root.depth < 128 := by
    decide
  exact hAll schema (List.mem_of_find?_eq_some hFound)

end Federation
