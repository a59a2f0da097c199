import Federation.Proofs.Json.Normal
import Federation.Proofs.Json.RoundTrip
import Federation.Proofs.Table
import Federation.Proofs.Text
import Federation.Registry.File

/-
  The text of a registry is scanned without loss. A registry
  has no floats, its integers have 64 bits, and nothing in it
  is nested more deeply than the responders of intermediate
  authorities.

  Main declarations:
    * `Json.isPrintable_ofMembers`
    * `Registry.isPrintable_toJson`
    * `Registry.ofText?_indented`, `Registry.ofFile_indented`
-/

namespace Federation

open Json (IsPrintable)

------------------------------------------------------------
-- Objects and Arrays
------------------------------------------------------------

namespace Json

variable {depth : Nat}

theorem isPrintable_ofMembers
    {members : List (String × Json)}
    (hMembers : ∀ m ∈ members, IsPrintable depth m.2) :
    IsPrintable (depth + 1) (.ofMembers members) :=
  .object fun m hMem =>
    hMembers m (Table.mem_of_mem_ofList hMem)

theorem isPrintable_ofList
    {α : Type}
    {toJson : α → Json}
    (hItem : ∀ item, IsPrintable depth (toJson item))
    (items : List α) :
    IsPrintable (depth + 1) (.ofList toJson items) :=
  .array (List.forall_mem_map.mpr fun item _ => hItem item)

theorem isPrintable_ofUInt64 (n : UInt64) :
    IsPrintable depth (.ofNat n.toNat) := by
  have hBound := n.toNat_lt
  refine .integer ?_
  simp only [integerInRange, Bool.and_eq_true,
    decide_eq_true_eq]
  omega

end Json

open Json (isPrintable_ofMembers isPrintable_ofList)

------------------------------------------------------------
-- Parts of a Registry
------------------------------------------------------------

variable {depth : Nat}

theorem CertificateBytes.isPrintable_toJson
    (c : CertificateBytes) :
    IsPrintable depth c.toJson :=
  .string _

theorem MemberClass.isPrintable_toJson (c : MemberClass) :
    IsPrintable (depth + 1) c.toJson :=
  isPrintable_ofMembers (by simp [IsPrintable.string])

theorem MemberId.isPrintable_toJson (m : MemberId) :
    IsPrintable (depth + 1) m.toJson :=
  .object (by simp [members, IsPrintable.string])

theorem ClientId.isPrintable_toJson (c : ClientId) :
    IsPrintable (depth + 1) c.toJson := by
  rw [toJson]
  split
  · exact c.member.isPrintable_toJson
  · exact .object
      (by simp [MemberId.members, IsPrintable.string])

theorem Member.isPrintable_toJson (m : Member) :
    IsPrintable (depth + 2) m.toJson :=
  isPrintable_ofMembers (by
    simp [MemberId.members, IsPrintable.string,
      isPrintable_ofList])

theorem SecurityServer.isPrintable_toJson
    (s : SecurityServer) :
    IsPrintable (depth + 3) s.toJson :=
  isPrintable_ofMembers (by
    simp [IsPrintable.string, isPrintable_ofList,
      MemberId.isPrintable_toJson,
      ClientId.isPrintable_toJson,
      CertificateBytes.isPrintable_toJson])

theorem OcspResponder.isPrintable_toJson
    (r : OcspResponder) :
    IsPrintable (depth + 1) r.toJson :=
  isPrintable_ofMembers (by
    simp [IsPrintable.string,
      CertificateBytes.isPrintable_toJson])

theorem CaInfo.isPrintable_toJson (c : CaInfo) :
    IsPrintable (depth + 3) c.toJson :=
  isPrintable_ofMembers (by
    simp [isPrintable_ofList,
      OcspResponder.isPrintable_toJson,
      CertificateBytes.isPrintable_toJson])

theorem CertificationAuthority.isPrintable_toJson
    (a : CertificationAuthority) :
    IsPrintable (depth + 5) a.toJson :=
  isPrintable_ofMembers (by
    simp [IsPrintable.string, IsPrintable.bool,
      isPrintable_ofList, CaInfo.isPrintable_toJson])

theorem TimestampingAuthority.isPrintable_toJson
    (a : TimestampingAuthority) :
    IsPrintable (depth + 1) a.toJson :=
  isPrintable_ofMembers (by
    simp [IsPrintable.string,
      CertificateBytes.isPrintable_toJson])

theorem GlobalGroup.isPrintable_toJson (g : GlobalGroup) :
    IsPrintable (depth + 3) g.toJson :=
  isPrintable_ofMembers (by
    simp [IsPrintable.string, isPrintable_ofList,
      ClientId.isPrintable_toJson])

theorem ConfigurationSource.isPrintable_toJson
    (s : ConfigurationSource) :
    IsPrintable (depth + 2) s.toJson :=
  isPrintable_ofMembers (by
    simp [IsPrintable.string, isPrintable_ofList,
      CertificateBytes.isPrintable_toJson])

theorem ManagementService.isPrintable_toJson
    (m : ManagementService) :
    IsPrintable (depth + 2) m.toJson :=
  isPrintable_ofMembers (by
    simp [IsPrintable.string, ClientId.isPrintable_toJson,
      CertificateBytes.isPrintable_toJson])

theorem GlobalSettings.isPrintable_toJson
    (s : GlobalSettings) :
    IsPrintable (depth + 1) s.toJson :=
  isPrintable_ofMembers (by
    simp [Json.isPrintable_ofUInt64])

------------------------------------------------------------
-- Registries
------------------------------------------------------------

namespace Registry

theorem isPrintable_toJson (r : Registry) :
    IsPrintable 7 r.toJson :=
  isPrintable_ofMembers (by
    simp [IsPrintable.string, isPrintable_ofList,
      MemberClass.isPrintable_toJson,
      Member.isPrintable_toJson,
      SecurityServer.isPrintable_toJson,
      CertificationAuthority.isPrintable_toJson,
      TimestampingAuthority.isPrintable_toJson,
      GlobalGroup.isPrintable_toJson,
      ConfigurationSource.isPrintable_toJson,
      ManagementService.isPrintable_toJson,
      GlobalSettings.isPrintable_toJson])

/- What is scanned of a registry's text is the registry's. -/
theorem ofText?_indented (r : Registry) :
    Json.Draft.ofText? (Json.indented r.toJson) =
      some (Json.draft r.toJson) :=
  Json.ofText?_indented r.isPrintable_toJson (by decide)

/-
  A file of a registry's text has the registry that is read of
  its JSON form, if its certificates pass the gate.
-/
theorem ofFile_indented
    {path : Path}
    {r found : Registry}
    (hJson : isJsonFile path = true)
    (hRead : read (Json.draft r.toJson) = .ok found)
    (hVerify : found.verify = .ok ()) :
    ofFile path (Text.toBytes (Json.indented r.toJson)) =
      .ok found := by
  have hText : ofJsonText? (Json.indented r.toJson) =
      some found := by
    rw [ofJsonText?, ofText?_indented]
    dsimp only [bind, Option.bind]
    rw [hRead]
    rfl
  rw [ofFile, Text.ofBytes?_toBytes]
  dsimp only
  rw [if_pos hJson, hText]
  dsimp only
  rw [hVerify]

end Registry

end Federation
