import Federation.Proofs.Certificate.Material
import Federation.Rules.Basic

/-
  What it is for the rules over a list of items to find
  nothing: every item is in order by itself, and with each of
  the items before it.

  Main declarations:
    * `Rules.overItems_eq_nil_iff`
    * `Rules.certificate_eq_nil_iff`
-/

namespace Federation

/- The bytes of certificate material are a certificate. -/
def CertificateBytes.IsDer (c : CertificateBytes) : Prop :=
  (Certificate.ofDer? c.bytes).isSome = true

theorem CertificateBytes.bytes_ne_nil_of_isDer
    {c : CertificateBytes}
    (hDer : c.IsDer) :
    c.bytes ≠ [] := by
  intro hNone
  rw [IsDer, hNone] at hDer
  exact absurd hDer (by decide)

namespace Rules

theorem whenever_eq_nil_iff
    {condition : Bool}
    {place : Pointer}
    {fault : RuleFault} :
    whenever condition place fault = [] ↔
      condition = false := by
  cases condition <;> simp [whenever]

------------------------------------------------------------
-- Rules for Every Item
------------------------------------------------------------

section Items

variable {α β : Type} {rule : List α → Nat → α → List β}

/-
  By induction on the items; what is found in one depends on
  all the items before it, so these are carried along.
-/
theorem overItemsFrom_eq_nil_iff
    (P : α → Prop)
    (R : α → α → Prop)
    (hRule : ∀ earlier i x,
      rule earlier i x = [] ↔ P x ∧ ∀ y ∈ earlier, R y x)
    (earlier : List α)
    (i : Nat)
    (xs : List α) :
    overItemsFrom rule earlier i xs = [] ↔
      (∀ x ∈ xs, P x) ∧ xs.Pairwise R ∧
        ∀ y ∈ earlier, ∀ x ∈ xs, R y x := by
  induction xs generalizing earlier i with
  | nil => simp [overItemsFrom]
  | cons x rest ih =>
      rw [overItemsFrom, List.append_eq_nil_iff, hRule, ih]
      simp only [List.mem_cons, forall_eq_or_imp,
        List.pairwise_cons]
      constructor
      · rintro ⟨⟨hHead, hBefore⟩, hRest, hPairs, hNext, hAll⟩
        exact ⟨⟨hHead, hRest⟩, ⟨hNext, hPairs⟩,
          fun y hy => ⟨hBefore y hy, hAll y hy⟩⟩
      · rintro ⟨⟨hHead, hRest⟩, ⟨hNext, hPairs⟩, hAll⟩
        exact ⟨⟨hHead, fun y hy => (hAll y hy).1⟩, hRest,
          hPairs, hNext, fun y hy => (hAll y hy).2⟩

theorem overItems_eq_nil_iff
    (P : α → Prop)
    (R : α → α → Prop)
    (hRule : ∀ earlier i x,
      rule earlier i x = [] ↔ P x ∧ ∀ y ∈ earlier, R y x)
    (xs : List α) :
    overItems rule xs = [] ↔
      (∀ x ∈ xs, P x) ∧ xs.Pairwise R := by
  rw [overItems, overItemsFrom_eq_nil_iff P R hRule]
  simp

/- A rule that looks at one item at a time. -/
theorem overItems_eq_nil_iff_forall
    (P : α → Prop)
    (hRule : ∀ earlier i x, rule earlier i x = [] ↔ P x)
    (xs : List α) :
    overItems rule xs = [] ↔ ∀ x ∈ xs, P x := by
  rw [overItems_eq_nil_iff P (fun _ _ => True)
    (by simp [hRule])]
  exact and_iff_left (List.pairwise_of_forall fun _ _ => trivial)

end Items

------------------------------------------------------------
-- Certificates
------------------------------------------------------------

/- A text is the base64 of a certificate. -/
def IsCertificateText (value : Json) : Prop :=
  ∀ text, value = .string text →
    ∃ c, CertificateBytes.ofBase64 text = .ok c ∧ c.IsDer

theorem certificate_eq_nil_iff
    (place : Pointer)
    (value : Option Json) :
    certificate place value = [] ↔
      ∀ v ∈ value, IsCertificateText v := by
  unfold certificate IsCertificateText
  split
  · rename_i text
    cases hRead : CertificateBytes.ofBase64 text with
    | error fault => simp [hRead]
    | ok c =>
        simp [whenever_eq_nil_iff, CertificateBytes.IsDer,
          hRead]
  · rename_i hNoText
    simp only [Option.mem_def, true_iff]
    rintro v rfl text rfl
    exact absurd rfl (hNoText text)

theorem certificates_eq_nil_iff
    (place : Pointer)
    (values : List Json) :
    certificates place values = [] ↔
      ∀ v ∈ values, IsCertificateText v :=
  overItems_eq_nil_iff_forall IsCertificateText
    (fun _ _ v => by simp [certificate_eq_nil_iff]) values

@[simp] theorem isCertificateText_toJson_iff
    (c : CertificateBytes) :
    IsCertificateText c.toJson ↔ c.IsDer := by
  simp [IsCertificateText, CertificateBytes.toJson]

end Rules

end Federation
