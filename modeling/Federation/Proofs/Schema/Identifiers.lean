import Federation.Proofs.Document
import Federation.Proofs.Rules.Broken

/-
  The identifiers of valid documents. A schema asks of the
  parts of an identifier that they are not empty and have no
  slash; an identifier asks that they are not blank. The
  objects that name members and clients give identifiers
  unless a part of theirs is all blanks.

  Main declarations:
    * `MemberId.exists_new_iff`
    * `ClientId.exists_subsystem_iff`
    * `Validation.IsIdentifierPlace`
    * `Validation.hasCodes_of_accepts`
    * `Validation.identifier_of_valid`
-/

namespace Federation

------------------------------------------------------------
-- Construction
------------------------------------------------------------

theorem checkPart_eq_ok
    {part : IdentifierPart}
    {text : String}
    (hPart : IsPart text) :
    checkPart part text = .ok ⟨hPart⟩ :=
  dif_pos hPart

theorem checkPart_eq_error
    {part : IdentifierPart}
    {text : String}
    (hPart : ¬ IsPart text) :
    checkPart part text = .error (.identifier part text) :=
  dif_neg hPart

/- A member has a class and a code that are parts. -/
theorem MemberId.exists_new_iff
    {memberClass memberCode : String} :
    (∃ m, new memberClass memberCode = .ok m) ↔
      IsPart memberClass ∧ IsPart memberCode := by
  constructor
  · rintro ⟨m, hNew⟩
    by_cases hClass : IsPart memberClass
    · refine ⟨hClass, ?_⟩
      by_contra hCode
      rw [new, checkPart_eq_ok hClass,
        checkPart_eq_error hCode] at hNew
      cases hNew
    · rw [new, checkPart_eq_error hClass] at hNew
      cases hNew
  · rintro ⟨hClass, hCode⟩
    rw [new, checkPart_eq_ok hClass, checkPart_eq_ok hCode]
    exact ⟨_, rfl⟩

/- A subsystem of any member has a code that is a part. -/
theorem ClientId.exists_subsystem_iff
    {member : MemberId}
    {code : String} :
    (∃ c, subsystem member code = .ok c) ↔ IsPart code := by
  constructor
  · rintro ⟨c, hSubsystem⟩
    by_contra hCode
    rw [subsystem, checkPart_eq_error hCode] at hSubsystem
    cases hSubsystem
  · intro hCode
    rw [subsystem, checkPart_eq_ok hCode]
    exact ⟨_, rfl⟩

/- All characters of a text are blanks. -/
def Text.IsBlank (text : String) : Prop :=
  isAllBlank text.toList = true

instance (text : String) : Decidable (Text.IsBlank text) := by
  unfold Text.IsBlank
  infer_instance

/- Codes are parts of identifiers unless they are blank. -/
theorem Schema.IsCode.isPart_iff
    {text : String}
    (hCode : IsCode text) :
    IsPart text ↔ ¬ Text.IsBlank text := by
  simp [IsPart, Text.IsBlank, hCode.2]

------------------------------------------------------------
-- Codes
------------------------------------------------------------

namespace Validation

open Rules (memberAt serverAt IsClientPlace)

/- The places of objects that name a member or a client. -/
inductive IsIdentifierPlace : DocumentKind → Pointer → Prop where
| member (i : Nat) :
    IsIdentifierPlace .sharedParameters (memberAt i)
| client {p : Pointer} :
    IsClientPlace p → IsIdentifierPlace .sharedParameters p
| owner (kind : DocumentKind) (i : Nat) :
    IsIdentifierPlace kind ((serverAt i).key "owner")
| operator :
    IsIdentifierPlace .privateParameters [.key "operator"]
| provider :
    IsIdentifierPlace .privateParameters
      [ .key "managementService",
        .key "managementRequestServiceProviderId" ]

/- The parts of an identifier in a value are codes. -/
structure HasCodes (v : Json) : Prop where
  memberClass : ∃ s,
    v.get? "memberClass" = some (.string s) ∧ Schema.IsCode s
  memberCode : ∃ s,
    v.get? "memberCode" = some (.string s) ∧ Schema.IsCode s
  subsystemCode : ∀ part,
    v.get? "subsystemCode" = some part →
      ∃ s, part = .string s ∧ Schema.IsCode s

theorem exists_code_of_accepts
    {v : Json}
    (hAccepts : Schema.Accepts Schema.code v) :
    ∃ s, v = .string s ∧ Schema.IsCode s := by
  have hText := hAccepts
  rw [Schema.code, Schema.Accepts] at hText
  rcases hText with ⟨s, rfl, -⟩
  exact ⟨s, rfl, Schema.accepts_code_iff.mp hAccepts⟩

/-
  Schemas of members, their identifiers and those of clients
  begin with the same properties, and if they have another
  one for a subsystem, it is a code as well.
-/
theorem hasCodes_of_record
    {properties : List (String × Schema)}
    {required : List String}
    {v : Json}
    (hAccepts :
      Schema.Accepts
        (.record (Schema.memberParts ++ properties)
          (["memberClass", "memberCode"] ++ required)) v)
    (hSubsystem : ∀ sub ∈ properties.lookup "subsystemCode",
      sub = Schema.code) :
    HasCodes v := by
  have hRequired : ∀ name ∈ ["memberClass", "memberCode"],
      (Schema.memberParts ++ properties).lookup name =
        some Schema.code →
      ∃ s, v.get? name = some (.string s) ∧
        Schema.IsCode s := by
    intro name hMem hProperty
    rcases hAccepts.exists_required
        (List.mem_append_left _ hMem) hProperty with
      ⟨part, hPart, hText⟩
    rcases exists_code_of_accepts hText with ⟨s, rfl, hCode⟩
    exact ⟨s, hPart, hCode⟩
  refine ⟨hRequired "memberClass" (by simp) rfl,
    hRequired "memberCode" (by simp) rfl, ?_⟩
  intro part hPart
  rcases hAccepts.exists_of_step
      (show Pointer.step? (.key "subsystemCode") v =
        some part from hPart) with ⟨sub, hSub, hAccepted⟩
  cases hSubsystem sub hSub
  exact exists_code_of_accepts hAccepted

theorem privateSchema_cases
    {version : Version}
    {schema : ParameterSchema}
    (hSchema : ParameterSchema.find? .privateParameters
      version = some schema) :
    schema.properties = Schema.privateV1 ∨
      schema.properties = Schema.privateV2 := by
  rcases ParameterSchema.mem_all_of_find hSchema with
    ⟨hMem, hKind⟩
  simp only [ParameterSchema.all, List.mem_cons,
    List.not_mem_nil, or_false] at hMem
  rcases hMem with rfl | rfl | rfl | rfl
  · exact .inl rfl
  · exact .inr rfl
  · cases hKind
  · cases hKind

/-
  At each of the places, in documents of each version, is
  the schema of a member, or of an identifier.
-/
theorem hasCodes_of_accepts
    {kind : DocumentKind}
    {version : Version}
    {schema : ParameterSchema}
    {document part : Json}
    {place : Pointer}
    (hSchema : ParameterSchema.find? kind version = some schema)
    (hAccepts : Schema.Accepts schema.root document)
    (hPlace : IsIdentifierPlace kind place)
    (hPart : place.resolve? document = some part) :
    HasCodes part := by
  have hMember : Schema.Accepts Schema.member part →
      HasCodes part := fun h => hasCodes_of_record h nofun
  have hId : Schema.Accepts Schema.memberId part →
      HasCodes part := fun h => hasCodes_of_record h nofun
  have hClient : Schema.Accepts Schema.clientId part →
      HasCodes part := fun h => by
    refine hasCodes_of_record h ?_
    rintro sub ⟨⟩
    rfl
  cases kind with
  | sharedParameters =>
      have hAt : ∀ {sub : Schema},
          Schema.resolve? place
            (Schema.recordOf Schema.sharedV1) = some sub →
          Schema.resolve? place
            (Schema.recordOf Schema.sharedV2) = some sub →
          Schema.Accepts sub part := fun hFirst hSecond =>
        Rules.accepts_at hSchema hAccepts hFirst hSecond hPart
      cases hPlace with
      | member i => exact hMember (hAt rfl rfl)
      | owner i => exact hId (hAt rfl rfl)
      | client hPlace =>
          cases hPlace with
          | ofServer i j => exact hClient (hAt rfl rfl)
          | ofGroup i j => exact hClient (hAt rfl rfl)
  | privateParameters =>
      rw [ParameterSchema.root] at hAccepts
      rcases hAccepts.exists_of_resolve hPart with
        ⟨sub, hSub, hAccepted⟩
      rcases privateSchema_cases hSchema with
        hProperties | hProperties
      · rw [hProperties] at hSub
        cases hPlace with
        | owner i => cases hSub
        | operator => cases hSub
        | provider =>
            cases hSub
            exact hClient hAccepted
      · rw [hProperties] at hSub
        cases hPlace with
        | owner i =>
            cases hSub
            exact hId hAccepted
        | operator =>
            cases hSub
            exact hId hAccepted
        | provider =>
            cases hSub
            exact hClient hAccepted

------------------------------------------------------------
-- Identifiers
------------------------------------------------------------

/-
  In a valid document an object that names a member or a
  client has the parts of an identifier, and they make one
  exactly if none of them is blank.
-/
theorem identifier_of_valid
    {kind : DocumentKind}
    {version : Version}
    {document part : Json}
    {place : Pointer}
    (hValid : validate kind version document = .ok ())
    (hPlace : IsIdentifierPlace kind place)
    (hPart : place.resolve? document = some part) :
    ∃ memberClass memberCode,
      part.get? "memberClass" = some (.string memberClass) ∧
      part.get? "memberCode" = some (.string memberCode) ∧
      ((∃ m, MemberId.new memberClass memberCode = .ok m) ↔
        ¬ Text.IsBlank memberClass ∧
          ¬ Text.IsBlank memberCode) ∧
      ∀ v, part.get? "subsystemCode" = some v →
        ∃ code, v = .string code ∧ ∀ member,
          (∃ c, ClientId.subsystem member code = .ok c) ↔
            ¬ Text.IsBlank code := by
  rcases validate_eq_ok_iff.mp hValid with
    ⟨schema, hSchema, -, hAccepts, -⟩
  have hCodes :=
    hasCodes_of_accepts hSchema hAccepts hPlace hPart
  rcases hCodes.memberClass with
    ⟨memberClass, hClass, hIsClass⟩
  rcases hCodes.memberCode with ⟨memberCode, hCode, hIsCode⟩
  refine ⟨memberClass, memberCode, hClass, hCode, ?_, ?_⟩
  · rw [MemberId.exists_new_iff, hIsClass.isPart_iff,
      hIsCode.isPart_iff]
  · intro v hFound
    rcases hCodes.subsystemCode v hFound with
      ⟨code, rfl, hIsSubsystem⟩
    refine ⟨code, rfl, fun member => ?_⟩
    rw [ClientId.exists_subsystem_iff, hIsSubsystem.isPart_iff]

/- The entry of a member of some class without subsystems. -/
def memberEntry (memberClass : String) : Json :=
  .object
    [ ("memberClass", .string memberClass),
      ("memberCode", .string "1"),
      ("name", .string "One"),
      ("subsystems", .array []) ]

/- The small document with a member of a class. -/
theorem identifier_of_valid_small :
    validate .sharedParameters .v1
        (.smallShared "2025-01-01T00:00:00Z" (.integer 600)
          [memberEntry "GOV"]) = .ok () ∧
      (memberAt 0).resolve?
          (.smallShared "2025-01-01T00:00:00Z" (.integer 600)
            [memberEntry "GOV"]) =
        some (memberEntry "GOV") ∧
      ∃ m, MemberId.new "GOV" "1" = .ok m := by
  have hValid : validate .sharedParameters .v1
      (.smallShared "2025-01-01T00:00:00Z" (.integer 600)
        [memberEntry "GOV"]) = .ok () := by
    decide +kernel
  have hPart : (memberAt 0).resolve?
      (.smallShared "2025-01-01T00:00:00Z" (.integer 600)
        [memberEntry "GOV"]) =
      some (memberEntry "GOV") :=
    rfl
  refine ⟨hValid, hPart, ?_⟩
  rcases identifier_of_valid hValid (.member 0) hPart with
    ⟨memberClass, memberCode, hClass, hCode, hNew, -⟩
  cases hClass
  cases hCode
  exact hNew.mpr ⟨by decide, by decide⟩

/- With a class that is blank it is valid, but no identifier. -/
theorem identifier_of_blank_small :
    validate .sharedParameters .v1
        (.smallShared "2025-01-01T00:00:00Z" (.integer 600)
          [memberEntry " "]) = .ok () ∧
      (memberAt 0).resolve?
          (.smallShared "2025-01-01T00:00:00Z" (.integer 600)
            [memberEntry " "]) =
        some (memberEntry " ") ∧
      (memberEntry " ").get? "memberClass" =
        some (.string " ") ∧
      MemberId.new " " "1" =
        .error (.identifier .memberClass " ") := by
  decide +kernel

end Validation

end Federation
