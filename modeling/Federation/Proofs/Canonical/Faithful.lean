import Federation.Proofs.Canonical.Floats
import Federation.Proofs.Json.Compact
import Federation.Proofs.Reading.Digest

/-
  Canonical bytes are a faithful encoding of the values that
  have no float: different values have different bytes, and a
  value is read back from its bytes unless it is nested too
  deeply for the reader. Any other value is refused for the
  float that comes first in it.

  Main declarations:
    * `Canonical.isPrintable_depth`
    * `Canonical.encode_inj`
    * `Canonical.encode_faithful`
-/

namespace Federation

namespace Canonical

open Json (IsNormal IsPrintable)

------------------------------------------------------------
-- Printing
------------------------------------------------------------

/- Without a float a normal value can be printed. -/
theorem isPrintable_depth
    {value : Json}
    (hNormal : value.IsNormal)
    (hFloat : HasNoFloat value) :
    IsPrintable value.depth value := by
  induction hNormal with
  | null => exact .null
  | bool b => exact .bool b
  | integer hRange => exact .integer hRange
  | float x => cases hFloat
  | string s => exact .string s
  | @array items hItems ih =>
      rw [hasNoFloat_array] at hFloat
      rw [Json.depth]
      exact .array fun item hMem =>
        (ih item hMem (hFloat item hMem)).mono
          (Json.depth_le_itemsDepth hMem)
  | @object members hOrdered hMembers ih =>
      rw [hasNoFloat_object] at hFloat
      rw [Json.depth]
      exact .object fun member hMem =>
        (ih member hMem (hFloat member hMem)).mono
          (Json.depth_le_membersDepth hMem)

/- A normal value's bytes are those of its compact text. -/
theorem encode_eq_ok_iff
    {value : Json}
    {bytes : Bytes}
    (hNormal : value.IsNormal) :
    encode value = .ok bytes ↔
      HasNoFloat value ∧ bytes = Text.toBytes value.compact := by
  rw [encode_eq_of_normal hNormal, HasNoFloat]
  cases firstFloat? value with
  | none => simp [eq_comm]
  | some x => simp

/- The float that a normal value is refused for. -/
theorem encode_eq_error_iff
    {value : Json}
    {x : Binary64}
    (hNormal : value.IsNormal) :
    encode value = .error (.float x) ↔
      firstFloat? value = some x := by
  rw [encode_eq_of_normal hNormal]
  cases firstFloat? value with
  | none => simp
  | some y => simp

------------------------------------------------------------
-- Faithfulness
------------------------------------------------------------

/- Bytes belong to one value only, however deep it is. -/
theorem encode_inj
    {value other : Json}
    {bytes : Bytes}
    (hNormal : value.IsNormal)
    (hOther : other.IsNormal)
    (hBytes : encode value = .ok bytes)
    (hOtherBytes : encode other = .ok bytes) :
    value = other := by
  rcases (encode_eq_ok_iff hNormal).mp hBytes with
    ⟨hFloat, hText⟩
  rcases (encode_eq_ok_iff hOther).mp hOtherBytes with
    ⟨hOtherFloat, hOtherText⟩
  exact Json.compact_inj (isPrintable_depth hNormal hFloat)
    (isPrintable_depth hOther hOtherFloat)
    (Text.toBytes_inj (hText.symm.trans hOtherText))

/- A value is read back from its bytes. -/
theorem read?_of_encode
    {value : Json}
    {bytes : Bytes}
    (hNormal : value.IsNormal)
    (hBytes : encode value = .ok bytes)
    (hDepth : value.depth < Json.Builder.depthLimit) :
    (Text.ofBytes? bytes).bind Json.read? = some value := by
  rcases (encode_eq_ok_iff hNormal).mp hBytes with
    ⟨hFloat, rfl⟩
  rw [Text.ofBytes?_toBytes, Option.bind_some,
    Json.read?_compact (isPrintable_depth hNormal hFloat)
      hDepth,
    Json.normalize_eq_self value hNormal]

/-
  A value as it is held in memory, normal, has canonical bytes
  exactly if no pointer leads to a float in it. If one does,
  the fault tells of the float that comes first, depth first
  with keys in ascending order of their bytes. The bytes of
  two values are equal exactly if the values are, and bytes of
  a value that is nested below the limit are read back as it.
-/
theorem encode_faithful
    {value : Json}
    (hNormal : value.IsNormal) :
    ((∃ bytes, encode value = .ok bytes) ↔
        ¬∃ p x, FloatAt value p x) ∧
      (∀ x, encode value = .error (.float x) ↔
        IsFirstFloat value x) ∧
      (∀ (other : Json) (bytes otherBytes : Bytes),
        other.IsNormal →
        encode value = .ok bytes →
        encode other = .ok otherBytes →
        (bytes = otherBytes ↔ value = other)) ∧
      (∀ bytes, encode value = .ok bytes →
        value.depth < 128 →
        (Text.ofBytes? bytes).bind Json.read? =
          some value) := by
  refine ⟨?_, ?_, ?_, ?_⟩
  · rw [← hasNoFloat_iff hNormal]
    constructor
    · rintro ⟨bytes, hBytes⟩
      exact ((encode_eq_ok_iff hNormal).mp hBytes).1
    · exact encode_isOk
  · intro x
    rw [encode_eq_error_iff hNormal,
      firstFloat?_eq_some_iff hNormal]
  · intro other bytes otherBytes hOther hBytes hOtherBytes
    constructor
    · rintro rfl
      exact encode_inj hNormal hOther hBytes hOtherBytes
    · rintro rfl
      rw [hBytes] at hOtherBytes
      exact Except.ok.inj hOtherBytes
  · intro bytes hBytes hDepth
    exact read?_of_encode hNormal hBytes hDepth

/- The least and the greatest integer, under an escaped key. -/
def extremes : Json :=
  .object
    [ ("\"",
        .array
          [.integer (-0x8000000000000000),
            .integer 0xffffffffffffffff]),
      ("é", .null) ]

/- They have bytes from which they are read back. -/
theorem encode_faithful_extremes :
    extremes.IsNormal ∧ extremes.depth < 128 ∧
      ∃ bytes, encode extremes = .ok bytes ∧
        (Text.ofBytes? bytes).bind Json.read? =
          some extremes := by
  have hItems : ∀ item ∈
      [Json.integer (-0x8000000000000000),
        Json.integer 0xffffffffffffffff], item.IsNormal :=
    List.forall_mem_cons.mpr
      ⟨.integer (by decide), List.forall_mem_cons.mpr
        ⟨.integer (by decide), List.forall_mem_nil _⟩⟩
  have hNormal : extremes.IsNormal :=
    .object (Table.isOrdered_of_keys (by decide))
      (List.forall_mem_cons.mpr
        ⟨.array hItems, List.forall_mem_cons.mpr
          ⟨.null, List.forall_mem_nil _⟩⟩)
  have hNone : ¬∃ p x, FloatAt extremes p x :=
    (hasNoFloat_iff hNormal).mp rfl
  have hDepth : extremes.depth < 128 := by decide
  rcases encode_faithful hNormal with ⟨hOk, -, -, hRead⟩
  rcases hOk.mpr hNone with ⟨bytes, hBytes⟩
  exact ⟨hNormal, hDepth, bytes, hBytes,
    hRead bytes hBytes hDepth⟩

end Canonical

end Federation
