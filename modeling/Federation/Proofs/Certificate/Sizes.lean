import Federation.Proofs.Certificate.PrefixFree
import Federation.Proofs.Generation.CertificateFields

/-
  The sizes of the certificates that valid documents show.
  The rules of documents read each of them, and none of them
  asks for its size: a certificate that the gate has too large
  is taken in a document.

  Main declarations:
    * `Element.read?_of_length`
    * `Certificate.accept_eq_of_ofDer?`
    * `Validation.accept_of_valid`
    * `CertificateBytes.withSignature`
-/

namespace Federation

------------------------------------------------------------
-- The Gate for Certificates in Documents
------------------------------------------------------------

/- What is read in binary form passes unless it is too large. -/
theorem Certificate.accept_eq_of_ofDer?
    {bytes : Bytes}
    {cert : Certificate}
    (hRead : ofDer? bytes = some cert)
    (filename : String) :
    accept Check.general filename bytes =
      if CertificateBytes.greatestSize < bytes.length then
        .error (.tooLarge filename bytes.length)
      else .ok cert := by
  have hForm := ofBytes?_eq_ofDer? (not_looksLike_of_ofDer? hRead)
  unfold accept judge
  rw [hForm, hRead]
  rfl

/- A text that does not fail is the base64 of a certificate. -/
theorem Rules.exists_ofDer?_of_not_failing
    {encoded : String}
    (hNone : ∀ fault, ¬IsFailing encoded fault) :
    ∃ c cert, CertificateBytes.ofBase64 encoded = .ok c ∧
      Certificate.ofDer? c.bytes = some cert := by
  cases hRead : CertificateBytes.ofBase64 encoded with
  | error refusal =>
      exact absurd (.notBase64 hRead) (hNone .notBase64)
  | ok c =>
      by_cases hDer : c.IsDer
      · rcases Option.isSome_iff_exists.mp hDer with
          ⟨cert, hCert⟩
        exact ⟨c, cert, rfl, hCert⟩
      · exact absurd (.notCertificate hRead hDer)
          (hNone .notCertificate)

/-
  Wherever a valid document has a certificate, in any kind and
  version, there is the base64 of one in binary form. Its size
  is not judged: the gate for certificates accepts it exactly
  if it is not too large, and it may be.
-/
theorem Validation.accept_of_valid
    {kind : DocumentKind}
    {version : Version}
    {document part : Json}
    {p : Pointer}
    (hValid : validate kind version document = .ok ())
    (hField : Rules.IsCertificateField kind version p)
    (hPart : p.resolve? document = some part) :
    ∃ encoded c cert, part = .string encoded ∧
      CertificateBytes.ofBase64 encoded = .ok c ∧
      Certificate.ofDer? c.bytes = some cert ∧
      ∀ filename,
        Certificate.accept Check.general filename c.bytes =
          if CertificateBytes.greatestSize < c.bytes.length
          then .error (.tooLarge filename c.bytes.length)
          else .ok cert := by
  rcases validate_eq_ok_iff.mp hValid with
    ⟨schema, hSchema, -, hAccepts, hFindings⟩
  have hCertificate := hAccepts.of_resolve
    (Schema.resolve?_of_isCertificateField hSchema hField)
    hPart
  unfold Schema.certificate Schema.Accepts at hCertificate
  rcases hCertificate with ⟨encoded, rfl, -⟩
  have hNone : ∀ fault,
      ¬Rules.IsFailing encoded fault := by
    intro fault hFailing
    have hFound := (Rules.mem_findings_iff_of_certificate
      hFailing.isOfCertificate).mpr
        ⟨hField, encoded, hPart, hFailing⟩
    rw [hFindings] at hFound
    cases hFound
  rcases Rules.exists_ofDer?_of_not_failing hNone with
    ⟨c, cert, hRead, hDer⟩
  exact ⟨encoded, c, cert, rfl, hRead, hDer,
    Certificate.accept_eq_of_ofDer? hDer⟩

------------------------------------------------------------
-- Elements of a Length
------------------------------------------------------------

namespace Element

/- A length in three bytes, the highest first. -/
theorem readLength?_three
    (x y z : UInt8)
    (rest : Bytes) :
    readLength? (131 :: x :: y :: z :: rest) =
      some ((x.toNat * 256 + y.toNat) * 256 + z.toNat,
        rest) := by
  have hSplit : Bytes.split? 3 (x :: y :: z :: rest) =
      some ([x, y, z], rest) :=
    Bytes.split?_append [x, y, z] rest
  have hNumber : Bytes.toNat [x, y, z] =
      (x.toNat * 256 + y.toNat) * 256 + z.toNat := by
    simp [Bytes.toNat]
  have hSmall : (x.toNat * 256 + y.toNat) * 256 + z.toNat <
      0x10000000000000000 := by
    have hx := x.toNat_lt
    have hy := y.toNat_lt
    have hz := z.toNat_lt
    omega
  simp [readLength?, hSplit, hNumber, hSmall]

/- An element is read up to the end of its content. -/
theorem read?_of_length
    {b : UInt8}
    {lengths content rest : Bytes}
    (hShort : b.toNat % 32 ≠ 31)
    (hLength : readLength? lengths =
      some (content.length, content ++ rest)) :
    read? (b :: lengths) =
      some (⟨⟨Tag.familyOf b.toNat, b.toNat / 32 % 2 == 1,
        b.toNat % 32⟩, content⟩, rest) := by
  unfold read? readHeader? Tag.read?
  simp only [if_neg hShort, hLength, Option.map_some,
    Bytes.split?_append]

end Element

------------------------------------------------------------
-- A Large Certificate
------------------------------------------------------------

namespace CertificateBytes

/- The content of the signed part of the small certificate. -/
def signedContent : Bytes :=
  (small.bytes.drop 4).take 90

/- An algorithm, and a million bytes of a signature. -/
def signatureContent (bits : Bytes) : Bytes :=
  48 :: 5 :: ([6, 3, 43, 101, 112] ++
    (3 :: 131 :: 15 :: 66 :: 65 :: 0 :: bits))

/-
  The small certificate with another signature, a million
  bytes long.
-/
def withSignature (bits : Bytes) : CertificateBytes :=
  ⟨48 :: 131 :: 15 :: 66 :: 169 :: 48 :: 90 ::
    (signedContent ++ signatureContent bits)⟩

theorem signedContent_length : signedContent.length = 90 := by
  decide

theorem withSignature_length (bits : Bytes) :
    (withSignature bits).bytes.length = bits.length + 110 := by
  simp only [withSignature, signatureContent,
    List.length_cons, List.length_append, signedContent_length,
    List.length_nil]
  omega

/- All bits of the last byte belong to the signature. -/
theorem isBitString_of_content
    {bits : Bytes}
    (hSome : bits ≠ []) :
    SignedPart.isBitString
      ⟨⟨.universal, false, 3⟩, 0 :: bits⟩ = true := by
  rcases List.exists_cons_of_ne_nil hSome with
    ⟨first, rest, rfl⟩
  have hBits :
      (Element.bits? (0 :: first :: rest)).isSome = true := by
    simp [Element.bits?, Element.lowBitsClear,
      List.getLast?_cons, Nat.mod_one]
  simp [SignedPart.isBitString, Element.HasNumber,
    Tag.bitString, hBits]

/- The length of the whole is the one that is told of it. -/
theorem read?_withSignature
    {bits : Bytes}
    (hLength : bits.length = 1000000) :
    Element.read? (withSignature bits).bytes =
      some (⟨⟨.universal, true, 16⟩, 48 :: 90 ::
        (signedContent ++ signatureContent bits)⟩, []) := by
  refine Element.read?_of_length (by decide) ?_
  have hSize : (48 :: 90 ::
      (signedContent ++ signatureContent bits)).length =
        1000105 := by
    simp only [signatureContent, List.length_cons,
      List.length_append, signedContent_length,
      List.length_nil, hLength]
  rw [hSize, List.append_nil, Element.readLength?_three]
  rfl

/- So is that of the signature. -/
theorem read?_signature
    {bits : Bytes}
    (hLength : bits.length = 1000000) :
    Element.read? (3 :: 131 :: 15 :: 66 :: 65 :: 0 :: bits) =
      some (⟨⟨.universal, false, 3⟩, 0 :: bits⟩, []) := by
  refine Element.read?_of_length (by decide) ?_
  rw [List.length_cons, hLength, List.append_nil,
    Element.readLength?_three]
  rfl

/- The signed part is that of the small certificate. -/
theorem signedPart?_withSignature
    {bits : Bytes}
    (hLength : bits.length = 1000000) :
    Certificate.signedPart? (withSignature bits).bytes =
      SignedPart.ofContent? signedContent := by
  have hSigned : Element.read? (48 :: 90 ::
      (signedContent ++ signatureContent bits)) =
        some (⟨⟨.universal, true, 16⟩, signedContent⟩,
          signatureContent bits) := by
    refine Element.read?_of_length (by decide) ?_
    rw [signedContent_length]
    rfl
  have hAlgorithm : Element.read? (signatureContent bits) =
      some (⟨⟨.universal, true, 16⟩, [6, 3, 43, 101, 112]⟩,
        3 :: 131 :: 15 :: 66 :: 65 :: 0 :: bits) :=
    Element.read?_of_length (by decide) rfl
  have hIsAlgorithm : SignedPart.isAlgorithm
      ⟨⟨.universal, true, 16⟩, [6, 3, 43, 101, 112]⟩ =
        true := by
    decide
  have hIsSignature := isBitString_of_content
    (List.ne_nil_of_length_eq_add_one hLength)
  unfold Certificate.signedPart?
  rw [read?_withSignature hLength]
  simp [hSigned, SignedPart.expect?, hAlgorithm,
    read?_signature hLength, hIsAlgorithm, hIsSignature,
    Element.HasNumber, Tag.sequence]

theorem isDer_withSignature
    {bits : Bytes}
    (hLength : bits.length = 1000000) :
    (withSignature bits).IsDer := by
  have hContent : ((SignedPart.ofContent? signedContent).bind
      fun signed =>
        Extension.keyUsage? signed.extensions).isSome =
          true := by
    decide +kernel
  rcases Option.isSome_iff_exists.mp hContent with
    ⟨usage, hUsage⟩
  rcases Option.bind_eq_some_iff.mp hUsage with
    ⟨signed, hRead, hKeys⟩
  rw [IsDer, Certificate.ofDer?,
    signedPart?_withSignature hLength, hRead]
  simp [hKeys]

/- A certificate with a signature of zeros. -/
def large : CertificateBytes :=
  withSignature (List.replicate 1000000 0)

theorem large_isDer : large.IsDer :=
  isDer_withSignature List.length_replicate

theorem greatestSize_lt_large :
    greatestSize < large.bytes.length := by
  have hLength : large.bytes.length = 1000000 + 110 := by
    rw [large, withSignature_length, List.length_replicate]
  rw [hLength]
  decide

end CertificateBytes

------------------------------------------------------------
-- Valid Documents with Certificates
------------------------------------------------------------

/- Any certificate of the service in binary form is taken. -/
theorem Registry.validate_managementDocument
    {cert : CertificateBytes}
    (hDer : cert.IsDer) :
    Validation.validate .privateParameters .v1
        (managementDocument cert ⟨1735689600, 0⟩).toJson =
      .ok () := by
  have hNow : Instant.IsPlain ⟨1735689600, 0⟩ :=
    ⟨by decide, by decide⟩
  have hInstance : Schema.IsCode "EE" :=
    ⟨by decide, by decide⟩
  have hSource : Schema.IsUrl "http://c" := by
    unfold Schema.IsUrl
    decide
  have hAddress : Schema.IsUrl "http://m" := by
    unfold Schema.IsUrl
    decide
  exact (Content.validateDocument_privateV1_iff hNow
    (hasPrivateParts_withManagement cert)).mpr
      ⟨hInstance, List.forall_mem_singleton.mpr hSource,
        List.forall_mem_singleton.mpr
          (List.forall_mem_singleton.mpr
            CertificateBytes.isSome_ofDer?_small),
        hAddress, hDer⟩

/- The small certificate passes the gate as well. -/
theorem Validation.accept_of_valid_small :
    validate .privateParameters .v1
        (Registry.managementDocument .small
          ⟨1735689600, 0⟩).toJson = .ok () ∧
      ∃ cert, ∀ filename,
        Certificate.accept Check.general filename
          CertificateBytes.small.bytes = .ok cert := by
  have hValid := Registry.validate_managementDocument
    CertificateBytes.isSome_ofDer?_small
  rcases accept_of_valid hValid .management
      (Registry.resolve?_managementDocument .small _) with
    ⟨encoded, c, cert, hShown, hRead, -, hAccept⟩
  have hText : CertificateBytes.small.toBase64 = encoded :=
    Json.string.inj hShown
  have hSame : c = .small := by
    rw [← hText, CertificateBytes.ofBase64_toBase64] at hRead
    exact (Except.ok.inj hRead).symm
  have hSize : ¬CertificateBytes.greatestSize <
      CertificateBytes.small.bytes.length := by
    decide
  refine ⟨hValid, cert, fun filename => ?_⟩
  rw [← hSame, hAccept, hSame, if_neg hSize]

/-
  A document with a certificate that is too large for the gate
  is valid.
-/
theorem Validation.valid_of_large_certificate :
    validate .privateParameters .v1
        (Registry.managementDocument .large
          ⟨1735689600, 0⟩).toJson = .ok () ∧
      Pointer.resolve?
          [ .key "managementService",
            .key "authCertRegServiceCert" ]
          (Registry.managementDocument .large
            ⟨1735689600, 0⟩).toJson =
        some (.string CertificateBytes.large.toBase64) ∧
      CertificateBytes.ofBase64
          CertificateBytes.large.toBase64 =
        .ok .large ∧
      CertificateBytes.greatestSize <
        CertificateBytes.large.bytes.length :=
  ⟨Registry.validate_managementDocument
      CertificateBytes.large_isDer,
    Registry.resolve?_managementDocument .large _,
    CertificateBytes.ofBase64_toBase64 .large,
    CertificateBytes.greatestSize_lt_large⟩

end Federation
