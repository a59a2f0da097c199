import Federation.Proofs.Generation.Documents
import Federation.Proofs.Schema.Acceptance
import Federation.Proofs.Version

/-
  When a document is valid for a version: the version has a
  schema and is the one that the document declares, and the
  document keeps to schema and rules.

  Main declarations:
    * `Validation.validate_eq_ok_iff`
    * `Validation.validateDocument_new_eq_ok_iff`
-/

namespace Federation

@[simp] theorem Json.asNat?_natCast (n : Nat) :
    (Json.integer n).asNat? = some n :=
  rfl

namespace Validation

/- A document is valid if nothing speaks against it. -/
theorem validate_eq_ok_iff
    {kind : DocumentKind}
    {version : Version}
    {document : Json} :
    validate kind version document = .ok () ↔
      ∃ schema, ParameterSchema.find? kind version =
          some schema ∧
        declaredVersion? document = some version ∧
        Schema.Accepts schema.root document ∧
        Rules.findings kind version document = [] := by
  unfold validate
  cases hSchema : ParameterSchema.find? kind version with
  | none => simp
  | some schema =>
      by_cases hDeclared :
          declaredVersion? document = some version
      · simp only [hDeclared, ne_eq, not_true_eq_false,
          if_false, Option.some.injEq, exists_eq_left',
          true_and]
        rw [← Schema.violations_eq_nil_iff]
        cases schema.root.violations document with
        | cons v rest => simp
        | nil =>
            have hRules :
                Rules.violations kind version document = [] ↔
                  Rules.findings kind version document =
                    [] := by
              simp [Rules.violations]
            rw [← hRules]
            cases Rules.violations kind version document <;>
              simp
      · simp [hDeclared]

/- A document of the right form is told what breaks the rules. -/
theorem validate_eq_semantic
    {kind : DocumentKind}
    {version : Version}
    {schema : ParameterSchema}
    {document : Json}
    (hSchema : ParameterSchema.find? kind version = some schema)
    (hDeclared : declaredVersion? document = some version)
    (hForm : Schema.Accepts schema.root document)
    (hRules : Rules.findings kind version document ≠ []) :
    validate kind version document =
      .error (.semantic kind version
        (Rules.violations kind version document)) := by
  have hViolations :
      Rules.violations kind version document ≠ [] := by
    simpa [Rules.violations] using hRules
  rw [← Schema.violations_eq_nil_iff] at hForm
  unfold validate
  simp only [hSchema, hDeclared, hForm, ne_eq,
    not_true_eq_false, if_false]
  cases hFound : Rules.violations kind version document with
  | nil => exact absurd hFound hViolations
  | cons v rest => rfl

section New

variable {kind : DocumentKind} {version : Version}
variable {now : Instant} {parts : List (String × Json)}
variable
  (hKeys : (Document.envelopeKeys ++ parts.map Prod.fst).Nodup)

include hKeys

theorem declaredVersion?_new :
    declaredVersion?
        (Document.new kind version now
          (Table.ofList parts)).toJson =
      some version := by
  rw [declaredVersion?,
    Document.get?_toJson_new kind version now hKeys]
  simp [Document.envelopeMembers, Version.toJson]

/- A new document has a form if its parts have, in order. -/
theorem accepts_new_iff
    {properties : List (String × Schema)}
    (hSame : properties.map Prod.fst =
      Document.envelopeKeys ++ parts.map Prod.fst) :
    Schema.Accepts (Schema.recordOf properties)
        (Document.new kind version now
          (Table.ofList parts)).toJson ↔
      ∀ p ∈ properties.zip
          (Document.envelopeMembers version now ++ parts),
        Schema.Accepts p.1.2 p.2.2 := by
  rcases Document.toJson_new_perm kind version now hKeys with
    ⟨members, hObject, hPerm, hNodup⟩
  have hParts :
      (Document.envelopeMembers version now ++ parts).map
          Prod.fst =
        Document.envelopeKeys ++ parts.map Prod.fst := by
    simp [Document.envelopeMembers, Document.envelopeKeys]
  rw [hObject]
  exact Schema.accepts_recordOf_iff_of_perm hPerm
    (hSame.trans hParts.symm) (hParts ▸ hKeys)

end New

/-
  For a new document of some parts, in the order of their
  schema, each part is judged by the schema of its place, and
  the whole by the rules.
-/
theorem validateDocument_new_eq_ok_iff
    {kind : DocumentKind}
    {version : Version}
    {now : Instant}
    {properties : List (String × Schema)}
    {parts : List (String × Json)}
    (hSchema : ParameterSchema.find? kind version =
      some ⟨kind, version, properties⟩)
    (hSame : properties.map Prod.fst =
      Document.envelopeKeys ++ parts.map Prod.fst)
    (hKeys :
      (Document.envelopeKeys ++ parts.map Prod.fst).Nodup) :
    validateDocument version
        (Document.new kind version now
          (Table.ofList parts)) = .ok () ↔
      (∀ p ∈ properties.zip
          (Document.envelopeMembers version now ++ parts),
        Schema.Accepts p.1.2 p.2.2) ∧
      Rules.findings kind version
        (Document.new kind version now
          (Table.ofList parts)).toJson = [] := by
  rw [validateDocument, validate_eq_ok_iff]
  simp only [hSchema, Option.some.injEq, exists_eq_left',
    declaredVersion?_new hKeys, ParameterSchema.root,
    accepts_new_iff hKeys hSame, true_and]

end Validation

end Federation
