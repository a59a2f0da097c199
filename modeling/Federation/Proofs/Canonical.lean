import Federation.Document
import Federation.Proofs.Table

/-
  Canonical bytes: just the values without a float have them,
  however the members of their objects are ordered.

  Main declarations:
    * `Canonical.HasNoFloat`
    * `Canonical.encode_isOk`
    * `Document.digest_isOk`
-/

namespace Federation

namespace Canonical

------------------------------------------------------------
-- Floats
------------------------------------------------------------

/- Nothing in a value is a float. -/
def HasNoFloat (value : Json) : Prop :=
  firstFloat? value = none

theorem firstFloatOfItems?_eq_none_iff
    {items : List Json} :
    firstFloatOfItems? items = none ↔
      ∀ item ∈ items, HasNoFloat item := by
  induction items with
  | nil => simp [firstFloatOfItems?]
  | cons item rest ih =>
      unfold firstFloatOfItems?
      rw [List.forall_mem_cons, ← ih]
      unfold HasNoFloat
      cases firstFloat? item <;> simp

theorem firstFloatOfMembers?_eq_none_iff
    {members : List (String × Json)} :
    firstFloatOfMembers? members = none ↔
      ∀ member ∈ members, HasNoFloat member.2 := by
  induction members with
  | nil => simp [firstFloatOfMembers?]
  | cons member rest ih =>
      unfold firstFloatOfMembers?
      rw [List.forall_mem_cons, ← ih]
      unfold HasNoFloat
      cases firstFloat? member.2 <;> simp

@[simp] theorem hasNoFloat_string (text : String) :
    HasNoFloat (.string text) := by
  simp [HasNoFloat, firstFloat?]

@[simp] theorem hasNoFloat_bool (value : Bool) :
    HasNoFloat (.bool value) := by
  simp [HasNoFloat, firstFloat?]

@[simp] theorem hasNoFloat_integer (n : Int) :
    HasNoFloat (.integer n) := by
  simp [HasNoFloat, firstFloat?]

@[simp] theorem hasNoFloat_ofNat (n : Nat) :
    HasNoFloat (.ofNat n) :=
  hasNoFloat_integer n

@[simp] theorem hasNoFloat_null :
    HasNoFloat .null := by
  simp [HasNoFloat, firstFloat?]

@[simp] theorem hasNoFloat_array (items : List Json) :
    HasNoFloat (.array items) ↔
      ∀ item ∈ items, HasNoFloat item := by
  rw [HasNoFloat, firstFloat?]
  exact firstFloatOfItems?_eq_none_iff

@[simp] theorem hasNoFloat_object
    (members : List (String × Json)) :
    HasNoFloat (.object members) ↔
      ∀ member ∈ members, HasNoFloat member.2 := by
  rw [HasNoFloat, firstFloat?]
  exact firstFloatOfMembers?_eq_none_iff

theorem hasNoFloat_ofMembers
    {parts : List (String × Json)}
    (hParts : ∀ part ∈ parts, HasNoFloat part.2) :
    HasNoFloat (.ofMembers parts) := by
  rw [Json.ofMembers, hasNoFloat_object]
  exact fun part hMem =>
    hParts part (Table.mem_of_mem_ofList hMem)

theorem hasNoFloat_ofList
    {α : Type}
    {toJson : α → Json}
    {values : List α}
    (hValues : ∀ a ∈ values, HasNoFloat (toJson a)) :
    HasNoFloat (Json.ofList toJson values) := by
  rw [Json.ofList, hasNoFloat_array]
  exact List.forall_mem_map.mpr hValues

------------------------------------------------------------
-- Order of Members
------------------------------------------------------------

mutual

theorem hasNoFloat_normalize :
    (value : Json) → HasNoFloat value →
      HasNoFloat value.normalize
| .array items, hValue => by
    rw [Json.normalize, hasNoFloat_array]
    exact hasNoFloat_normalizeItems items
      ((hasNoFloat_array items).mp hValue)
| .object members, hValue => by
    rw [Json.normalize, hasNoFloat_object]
    intro member hMem
    exact hasNoFloat_normalizeMembers members
      ((hasNoFloat_object members).mp hValue) member
      (Table.mem_of_mem_ofList hMem)
| .null, _ => by rw [Json.normalize]; simp
| .bool _, _ => by rw [Json.normalize]; simp
| .integer _, _ => by rw [Json.normalize]; simp
| .float _, hValue => by rw [Json.normalize]; exact hValue
| .string _, _ => by rw [Json.normalize]; simp

theorem hasNoFloat_normalizeItems :
    (items : List Json) →
      (∀ item ∈ items, HasNoFloat item) →
      ∀ item ∈ Json.normalizeItems items, HasNoFloat item
| [], _ => by simp [Json.normalizeItems]
| item :: rest, hItems => by
    rw [Json.normalizeItems, List.forall_mem_cons]
    rw [List.forall_mem_cons] at hItems
    exact ⟨hasNoFloat_normalize item hItems.1,
      hasNoFloat_normalizeItems rest hItems.2⟩

theorem hasNoFloat_normalizeMembers :
    (members : List (String × Json)) →
      (∀ member ∈ members, HasNoFloat member.2) →
      ∀ member ∈ Json.normalizeMembers members,
        HasNoFloat member.2
| [], _ => by simp [Json.normalizeMembers]
| (key, value) :: rest, hMembers => by
    rw [Json.normalizeMembers, List.forall_mem_cons]
    rw [List.forall_mem_cons] at hMembers
    exact ⟨hasNoFloat_normalize value hMembers.1,
      hasNoFloat_normalizeMembers rest hMembers.2⟩

end

/- A value without a float has canonical bytes. -/
theorem encode_isOk
    {value : Json}
    (hValue : HasNoFloat value) :
    ∃ bytes, encode value = .ok bytes := by
  have hOrdered := hasNoFloat_normalize value hValue
  refine ⟨Text.toBytes value.normalize.compact, ?_⟩
  rw [HasNoFloat] at hOrdered
  simp [encode, text, hOrdered, Except.map]

/- Only a value without a float has canonical bytes. -/
theorem hasNoFloat_of_encode_eq_ok
    {value : Json}
    {bytes : Bytes}
    (hBytes : encode value = .ok bytes) :
    HasNoFloat value.normalize := by
  unfold encode text at hBytes
  unfold HasNoFloat
  cases hFloat : firstFloat? value.normalize with
  | none => rfl
  | some x => simp [hFloat, Except.map] at hBytes

end Canonical

/- A document whose content has no float has a digest. -/
theorem Document.digest_isOk
    {kind : DocumentKind}
    {d : Document kind}
    (hContent : ∀ member ∈ d.content,
      Canonical.HasNoFloat member.2) :
    ∃ digest, d.digest = .ok digest := by
  have hSubject : Canonical.HasNoFloat d.subject := by
    simpa [subject, DocumentKind.toJson, Version.toJson]
      using hContent
  rcases Canonical.encode_isOk hSubject with ⟨bytes, hBytes⟩
  exact ⟨Digest.of bytes, by simp [digest, hBytes, Except.map]⟩

end Federation
