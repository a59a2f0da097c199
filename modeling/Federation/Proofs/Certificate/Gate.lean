import Federation.Certificate.Gate
import Federation.Registry.Certificates

/-
  The gate for certificates: what it accepts, what it keeps
  of the bytes, and that no bytes have both of their forms.

  Main declarations:
    * `Certificate.accept_general_iff`
    * `Certificate.exists_elements_of_signedPart?`
    * `Certificate.der_of_ofDer?`
    * `Certificate.not_looksLike_of_ofDer?`
    * `Registry.verify_eq_ok_iff`
-/

namespace Federation

namespace Certificate

------------------------------------------------------------
-- Acceptance
------------------------------------------------------------

/- A file's name is of no account for what is accepted. -/
theorem accept_iff
    {check : Check}
    {filename : String}
    {bytes : Bytes}
    {cert : Certificate} :
    accept check filename bytes = .ok cert ↔
      bytes.length ≤ CertificateBytes.greatestSize ∧
        ofBytes? bytes = some cert ∧ check cert = .ok () := by
  unfold accept judge
  by_cases hLarge :
      CertificateBytes.greatestSize < bytes.length
  · simp [hLarge, Nat.not_le.mpr hLarge]
  · have hSmall := Nat.not_lt.mp hLarge
    cases hRead : ofBytes? bytes with
    | none => simp [hLarge]
    | some c =>
        cases hCheck : check c with
        | error fault =>
            have hApart : c = cert → check cert ≠ .ok () := by
              rintro rfl hOk
              rw [hCheck] at hOk
              cases hOk
            simpa [hLarge, hSmall, hCheck] using hApart
        | ok =>
            have hSame : c = cert → check cert = .ok () := by
              rintro rfl
              exact hCheck
            simpa [hLarge, hSmall, hCheck] using hSame

theorem accept_general_iff
    {filename : String}
    {bytes : Bytes}
    {cert : Certificate} :
    accept Check.general filename bytes = .ok cert ↔
      bytes.length ≤ CertificateBytes.greatestSize ∧
        ofBytes? bytes = some cert := by
  rw [accept_iff]
  exact and_congr_right fun _ => and_iff_left rfl

------------------------------------------------------------
-- Binary Form
------------------------------------------------------------

/- A certificate is made of the signed part of its bytes. -/
theorem exists_signedPart_of_ofDer?
    {der : Bytes}
    {cert : Certificate}
    (hRead : ofDer? der = some cert) :
    ∃ part usage, signedPart? der = some part ∧
      Extension.keyUsage? part.extensions = some usage ∧
      cert =
        { der := ⟨der⟩
          subject := part.subject
          issuer := part.issuer
          serial := part.serial
          validity := part.validity
          isAuthority := Extension.isAuthority part.extensions
          keyUsage := usage } := by
  unfold ofDer? at hRead
  simp only [Option.bind_eq_bind, Option.bind_eq_some_iff,
    Option.some.injEq] at hRead
  rcases hRead with ⟨part, hPart, usage, hUsage, rfl⟩
  exact ⟨part, usage, hPart, hUsage, rfl⟩

/-
  A signed part is the first element in a sequence. After it
  come an algorithm, a string of bits and any other bytes, and
  after the sequence there is nothing.
-/
theorem exists_elements_of_signedPart?
    {der : Bytes}
    {part : SignedPart}
    (hPart : signedPart? der = some part) :
    ∃ outer signed afterSigned afterAlgorithm surplus,
      (Element.read? der = some (outer, []) ∧
        outer.HasNumber Tag.sequence = true) ∧
      (Element.read? outer.content =
          some (signed, afterSigned) ∧
        signed.HasNumber Tag.sequence = true) ∧
      SignedPart.expect? SignedPart.isAlgorithm afterSigned =
        some afterAlgorithm ∧
      SignedPart.expect? SignedPart.isBitString
        afterAlgorithm = some surplus ∧
      SignedPart.ofContent? signed.content = some part := by
  unfold signedPart? at hPart
  simp only [Option.bind_eq_bind, Option.bind_eq_some_iff,
    Prod.exists] at hPart
  rcases hPart with ⟨outer, after, hOuter, hInner⟩
  split at hInner
  · rename_i hAlone
    rw [Bool.and_eq_true, List.isEmpty_iff] at hAlone
    rw [hAlone.2] at hOuter
    simp only [Option.bind_eq_some_iff, Prod.exists] at hInner
    rcases hInner with ⟨signed, afterSigned, hSigned,
      afterAlgorithm, hAlgorithm, surplus, hSignature, hLast⟩
    split at hLast
    · rename_i hSequence
      exact ⟨outer, signed, afterSigned, afterAlgorithm,
        surplus, ⟨hOuter, hAlone.1⟩, ⟨hSigned, hSequence⟩,
        hAlgorithm, hSignature, hLast⟩
    · cases hLast
  · cases hInner

/- A certificate keeps the bytes that it is read from. -/
theorem der_of_ofDer?
    {bytes : Bytes}
    {cert : Certificate}
    (hRead : ofDer? bytes = some cert) :
    cert.der.bytes = bytes := by
  rcases exists_signedPart_of_ofDer? hRead with
    ⟨part, usage, -, -, rfl⟩
  rfl

/- A certificate is a single element, which is a sequence. -/
theorem exists_read?_of_ofDer?
    {der : Bytes}
    {cert : Certificate}
    (hRead : ofDer? der = some cert) :
    ∃ outer, Element.read? der = some (outer, []) ∧
      outer.HasNumber Tag.sequence = true := by
  rcases exists_signedPart_of_ofDer? hRead with
    ⟨part, usage, hPart, -, -⟩
  rcases exists_elements_of_signedPart? hPart with
    ⟨outer, _, _, _, _, hOuter, -⟩
  exact ⟨outer, hOuter⟩

/-
  The first byte of a sequence names the number 16, or tells
  that the number is in the bytes that follow.
-/
theorem first_of_sequence
    {bytes rest : Bytes}
    {e : Element}
    (hRead : Element.read? bytes = some (e, rest))
    (hSequence : e.HasNumber Tag.sequence = true) :
    ∃ b more, bytes = b :: more ∧
      (b.toNat % 32 = 16 ∨ b.toNat % 32 = 31) := by
  cases bytes with
  | nil =>
      simp [Element.read?, Element.readHeader?,
        Tag.read?] at hRead
  | cons b more =>
      refine ⟨b, more, rfl, ?_⟩
      by_cases hLong : b.toNat % 32 = 31
      · exact Or.inr hLong
      · left
        unfold Element.read? Element.readHeader? at hRead
        simp only [Tag.read?, if_neg hLong] at hRead
        cases hLength : Element.readLength? more with
        | none => simp [hLength] at hRead
        | some found =>
            simp only [hLength, Option.map_some,
              Option.map_eq_some_iff, Prod.mk.injEq,
              Prod.exists] at hRead
            rcases hRead with ⟨_, _, _, hElement, _⟩
            rw [← hElement] at hSequence
            simpa [Element.HasNumber, Tag.sequence]
              using hSequence

theorem first_of_ofDer?
    {bytes : Bytes}
    {cert : Certificate}
    (hRead : ofDer? bytes = some cert) :
    ∃ b more, bytes = b :: more ∧
      (b.toNat % 32 = 16 ∨ b.toNat % 32 = 31) := by
  rcases exists_read?_of_ofDer? hRead with
    ⟨outer, hOuter, hSequence⟩
  exact first_of_sequence hOuter hSequence

------------------------------------------------------------
-- Textual Form
------------------------------------------------------------

/- The textual form begins with a blank or with a hyphen. -/
theorem first_of_looksLike
    {bytes : Bytes}
    (hText : Pem.looksLike bytes = true) :
    ∃ b more, bytes = b :: more ∧
      (Text.isAsciiBlank b = true ∨ b = 0x2D) := by
  have hMarker :
      Text.toBytes "-----BEGIN" =
        0x2D :: Text.toBytes "----BEGIN" := by
    decide
  unfold Pem.looksLike at hText
  cases bytes with
  | nil => simp [hMarker] at hText
  | cons b more =>
      refine ⟨b, more, rfl, ?_⟩
      by_cases hBlank : Text.isAsciiBlank b = true
      · exact Or.inl hBlank
      · rw [List.dropWhile_cons_of_neg hBlank, hMarker,
          List.isPrefixOf_cons_cons, Bool.and_eq_true] at hText
        exact Or.inr (beq_iff_eq.mp hText.1).symm

/- What begins like a sequence is not in textual form. -/
theorem not_looksLike_of_first
    {b : UInt8}
    (more : Bytes)
    (hFirst : b.toNat % 32 = 16 ∨ b.toNat % 32 = 31) :
    Pem.looksLike (b :: more) = false := by
  apply Bool.eq_false_iff.mpr
  intro hText
  rcases first_of_looksLike hText with ⟨b', _, hBytes, hMark⟩
  rcases List.cons.inj hBytes with ⟨rfl, -⟩
  simp only [Text.isAsciiBlank, Bool.or_eq_true,
    beq_iff_eq] at hMark
  rcases hMark with ((((rfl | rfl) | rfl) | rfl) | rfl) | rfl
    <;> simp at hFirst

/- No bytes are a certificate in both forms. -/
theorem not_looksLike_of_ofDer?
    {bytes : Bytes}
    {cert : Certificate}
    (hRead : ofDer? bytes = some cert) :
    Pem.looksLike bytes = false := by
  rcases first_of_ofDer? hRead with ⟨b, more, rfl, hFirst⟩
  exact not_looksLike_of_first more hFirst

theorem ofBytes?_eq_ofDer?
    {bytes : Bytes}
    (hBinary : Pem.looksLike bytes = false) :
    ofBytes? bytes = ofDer? bytes := by
  simp [ofBytes?, hBinary]

end Certificate

------------------------------------------------------------
-- Accepted Certificates
------------------------------------------------------------

/- The gate of a registry accepts a certificate. -/
def CertificateBytes.IsAccepted (c : CertificateBytes) : Prop :=
  ∃ cert, ∀ filename,
    Certificate.accept Check.general filename c.bytes = .ok cert

/- What is accepted under one name is so under any. -/
theorem CertificateBytes.isAccepted_of_accept
    {c : CertificateBytes}
    {filename : String}
    {cert : Certificate}
    (hAccept : Certificate.accept Check.general filename
      c.bytes = .ok cert) :
    c.IsAccepted := by
  have hForm := Certificate.accept_general_iff.mp hAccept
  exact ⟨cert, fun _ =>
    Certificate.accept_general_iff.mpr hForm⟩

------------------------------------------------------------
-- Registries
------------------------------------------------------------

namespace Registry

theorem verifyAll_eq_ok_iff (found : List Occurrence) :
    verifyAll found = .ok () ↔
      ∀ occurrence ∈ found, ∃ cert,
        ∀ filename,
          Certificate.accept Check.general filename
            occurrence.2.bytes = .ok cert := by
  induction found with
  | nil => simp [verifyAll]
  | cons occurrence rest ih =>
      rcases occurrence with ⟨place, c⟩
      unfold verifyAll
      cases hGate :
          Certificate.accept Check.general place.label
            c.bytes with
      | error fault =>
          have hNot : ¬ ∃ cert, ∀ filename,
              Certificate.accept Check.general filename
                c.bytes = .ok cert := by
            rintro ⟨cert, hAll⟩
            rw [hAll] at hGate
            cases hGate
          simp only [List.mem_cons, forall_eq_or_imp, hNot,
            false_and, reduceCtorEq]
      | ok cert =>
          have hAll : ∃ cert, ∀ filename,
              Certificate.accept Check.general filename
                c.bytes = .ok cert :=
            CertificateBytes.isAccepted_of_accept hGate
          simp only [ih, List.mem_cons, forall_eq_or_imp,
            hAll, true_and]

theorem verify_eq_ok_iff (r : Registry) :
    r.verify = .ok () ↔
      ∀ occurrence ∈ r.certificates, ∃ cert,
        ∀ filename,
          Certificate.accept Check.general filename
            occurrence.2.bytes = .ok cert :=
  verifyAll_eq_ok_iff r.certificates

end Registry

------------------------------------------------------------
-- Occurrences
------------------------------------------------------------

theorem Occurrence.mem_inItems
    {α : Type}
    (place : Pointer)
    (occurrences : Pointer → α → List Occurrence)
    {items : List α}
    {item : α}
    {i : Nat}
    {occurrence : Occurrence}
    (hItem : items[i]? = some item)
    (hMem : occurrence ∈ occurrences (place.index i) item) :
    occurrence ∈ inItems place occurrences items :=
  List.mem_flatMap.mpr
    ⟨(item, i), List.mem_zipIdx_iff_getElem?.mpr hItem, hMem⟩

/- Every certificate of a server is among those of a registry. -/
theorem Registry.mem_certificates_of_authCert
    {r : Registry}
    {s : SecurityServer}
    {c : CertificateBytes}
    (hServer : s ∈ r.securityServers)
    (hCert : c ∈ s.authCerts) :
    ∃ place : Pointer, (place, c) ∈ r.certificates := by
  rcases List.mem_iff_getElem?.mp hServer with ⟨i, hi⟩
  rcases List.mem_iff_getElem?.mp hCert with ⟨j, hj⟩
  have hInner := Occurrence.mem_inItems
    ((Pointer.index [.key "securityServers"] i).key
      "authCerts")
    Occurrence.single hj (List.mem_singleton.mpr rfl)
  have hOuter := Occurrence.mem_inItems
    [.key "securityServers"]
    (fun place (server : SecurityServer) =>
      Occurrence.inCerts place "authCerts" server.authCerts)
    hi hInner
  exact ⟨_, List.mem_append_left _
    (List.mem_append_left _
      (List.mem_append_right _ hOuter))⟩

end Federation
