import Federation.Proofs.Json.Scanner
import Federation.Proofs.Table

/-
  Normal values, as they are held in memory: integers have 64
  bits and members stand in order.

  Main declarations:
    * `Json.IsNormal`
    * `Json.normalize_eq_self`
    * `Json.IsPrintable.mono`
-/

namespace Federation

namespace Json

------------------------------------------------------------
-- Normal Values
------------------------------------------------------------

/- Integers have 64 bits and members ascend, at every depth. -/
inductive IsNormal : Json → Prop where
| null : IsNormal .null
| bool (b : Bool) : IsNormal (.bool b)
| integer {n : Int} :
    integerInRange n = true → IsNormal (.integer n)
| float (x : Binary64) : IsNormal (.float x)
| string (s : String) : IsNormal (.string s)
| array {items : List Json} :
    (∀ item ∈ items, IsNormal item) → IsNormal (.array items)
| object {members : Members} :
    Table.IsOrdered members →
    (∀ m ∈ members, IsNormal m.2) →
    IsNormal (.object members)

mutual

/- A normal value is in order already. -/
theorem normalize_eq_self :
    (value : Json) → IsNormal value → value.normalize = value
| .array items, .array hItems => by
    rw [normalize, normalizeItems_eq_self items hItems]
| .object members, .object hOrdered hMembers => by
    rw [normalize, normalizeMembers_eq_self members hMembers,
      Table.ofList_eq_self hOrdered]
| .null, _ => by rw [normalize]
| .bool _, _ => by rw [normalize]
| .integer _, _ => by rw [normalize]
| .float _, _ => by rw [normalize]
| .string _, _ => by rw [normalize]

theorem normalizeItems_eq_self :
    (items : List Json) →
      (∀ item ∈ items, IsNormal item) →
      normalizeItems items = items
| [], _ => rfl
| item :: rest, hItems => by
    rw [List.forall_mem_cons] at hItems
    rw [normalizeItems, normalize_eq_self item hItems.1,
      normalizeItems_eq_self rest hItems.2]

theorem normalizeMembers_eq_self :
    (members : List (String × Json)) →
      (∀ m ∈ members, IsNormal m.2) →
      normalizeMembers members = members
| [], _ => rfl
| (key, value) :: rest, hMembers => by
    rw [List.forall_mem_cons] at hMembers
    rw [normalizeMembers, normalize_eq_self value hMembers.1,
      normalizeMembers_eq_self rest hMembers.2]

end

------------------------------------------------------------
-- Printable Values
------------------------------------------------------------

theorem IsPrintable.mono
    {depth more : Nat}
    {value : Json}
    (hValue : IsPrintable depth value)
    (hMore : depth ≤ more) :
    IsPrintable more value := by
  induction hValue generalizing more with
  | null => exact .null
  | bool b => exact .bool b
  | integer hRange => exact .integer hRange
  | string s => exact .string s
  | @array depth items _ ih =>
      cases more with
      | zero => omega
      | succ more =>
          exact .array fun item hMem =>
            ih item hMem (by omega)
  | @object depth members _ ih =>
      cases more with
      | zero => omega
      | succ more =>
          exact .object fun m hMem => ih m hMem (by omega)

end Json

end Federation
