import Federation.Proofs.Certificate.Layout
import Federation.Proofs.Certificate.SelfIssued

/-
  Certificates of authorities: the gate for them accepts what
  the general gate does, if among the extensions exactly one
  says that the subject is an authority, and none or exactly
  one that the key signs certificates. Extensions that are
  repeated, unreadable or at odds with that are refused.

  Main declarations:
    * `Extension.IsOnly`
    * `Extension.MaySign`
    * `Extension.IsDefective`
    * `Extension.maySign_iff`
    * `Certificate.accept_eq_ok_iff`
    * `Certificate.refusals_of_authority`
    * `Certificate.accept_authority_exact`
-/

namespace Federation

------------------------------------------------------------
-- Single Extensions
------------------------------------------------------------

namespace Extension

variable {kind : ObjectId}
variable {extensions : List Extension}
variable {e f : Extension}

/- An extension is the only one with its identifier. -/
structure IsOnly
    (kind : ObjectId)
    (extensions : List Extension)
    (e : Extension) : Prop where
  id : e.id = kind
  others : ∃ before after,
    extensions = before ++ e :: after ∧
      ∀ other ∈ before ++ after, other.id ≠ kind

/- No extension has an identifier. -/
def IsAbsent
    (kind : ObjectId)
    (extensions : List Extension) : Prop :=
  ∀ e ∈ extensions, e.id ≠ kind

/- Two extensions at different places have an identifier. -/
def IsRepeated
    (kind : ObjectId)
    (extensions : List Extension) : Prop :=
  ∃ e f, [e, f].Sublist extensions ∧ e.id = kind ∧ f.id = kind

theorem withId_eq_nil_iff :
    withId kind extensions = [] ↔ IsAbsent kind extensions := by
  simp [withId, IsAbsent, List.filter_eq_nil_iff]

theorem withId_eq_singleton_iff :
    withId kind extensions = [e] ↔ IsOnly kind extensions e := by
  unfold withId
  constructor
  · intro hOne
    rcases List.filter_eq_cons_iff.mp hOne with
      ⟨before, after, hList, hBefore, hId, hAfter⟩
    rw [List.filter_eq_nil_iff] at hAfter
    refine ⟨of_decide_eq_true hId, before, after, hList, ?_⟩
    intro other hOther hSame
    rcases List.mem_append.mp hOther with hFirst | hLater
    · exact hBefore other hFirst (decide_eq_true hSame)
    · exact hAfter other hLater (decide_eq_true hSame)
  · rintro ⟨hId, before, after, hList, hOthers⟩
    rw [List.forall_mem_append] at hOthers
    refine List.filter_eq_cons_iff.mpr
      ⟨before, after, hList, ?_, decide_eq_true hId, ?_⟩
    · intro other hOther hSame
      exact hOthers.1 other hOther (of_decide_eq_true hSame)
    · apply List.filter_eq_nil_iff.mpr
      intro other hOther hSame
      exact hOthers.2 other hOther (of_decide_eq_true hSame)

theorem two_le_withId_iff :
    2 ≤ (withId kind extensions).length ↔
      IsRepeated kind extensions := by
  constructor
  · intro hTwo
    match hList : withId kind extensions with
    | [] => simp [hList] at hTwo
    | [e] => simp [hList] at hTwo
    | e :: f :: rest =>
        have hMem : ∀ g ∈ withId kind extensions,
            g.id = kind := by
          intro g hg
          exact of_decide_eq_true (List.mem_filter.mp hg).2
        have hFront : [e, f].Sublist (e :: f :: rest) :=
          (List.prefix_append [e, f] rest).sublist
        rw [← hList] at hFront
        refine ⟨e, f, hFront.trans List.filter_sublist,
          hMem e ?_, hMem f ?_⟩
        · exact hFront.subset List.mem_cons_self
        · exact hFront.subset
            (List.mem_cons_of_mem _ List.mem_cons_self)
  · rintro ⟨e, f, hTwice, he, hf⟩
    have hKept := hTwice.filter fun g => g.id = kind
    simp only [List.filter_cons, List.filter_nil, he, hf,
      decide_true, if_true] at hKept
    exact hKept.length_le

/- An identifier is absent, of one extension, or repeated. -/
theorem absent_or_only_or_repeated
    (kind : ObjectId)
    (extensions : List Extension) :
    IsAbsent kind extensions ∨
      (∃ e, IsOnly kind extensions e) ∨
      IsRepeated kind extensions := by
  match hList : withId kind extensions with
  | [] => exact Or.inl (withId_eq_nil_iff.mp hList)
  | [e] =>
      exact Or.inr (Or.inl
        ⟨e, withId_eq_singleton_iff.mp hList⟩)
  | e :: f :: rest =>
      refine Or.inr (Or.inr (two_le_withId_iff.mp ?_))
      simp [hList]

theorem IsOnly.eq_of_mem
    (hOnly : IsOnly kind extensions e)
    (hMem : f ∈ extensions)
    (hId : f.id = kind) :
    f = e := by
  have hFound : f ∈ withId kind extensions :=
    List.mem_filter.mpr ⟨hMem, decide_eq_true hId⟩
  rw [withId_eq_singleton_iff.mpr hOnly] at hFound
  exact List.mem_singleton.mp hFound

theorem IsOnly.mem
    (hOnly : IsOnly kind extensions e) :
    e ∈ extensions := by
  rcases hOnly.others with ⟨before, after, rfl, -⟩
  exact List.mem_append_right _ List.mem_cons_self

theorem IsOnly.not_isRepeated
    (hOnly : IsOnly kind extensions e) :
    ¬ IsRepeated kind extensions := by
  rw [← two_le_withId_iff,
    withId_eq_singleton_iff.mpr hOnly, List.length_singleton]
  decide

theorem IsAbsent.not_isRepeated
    (hAbsent : IsAbsent kind extensions) :
    ¬ IsRepeated kind extensions := by
  rw [← two_le_withId_iff, withId_eq_nil_iff.mpr hAbsent,
    List.length_nil]
  decide

------------------------------------------------------------
-- Trust
------------------------------------------------------------

/- The only extension for constraints is an authority's. -/
def IsAuthorized (extensions : List Extension) : Prop :=
  ∃ e pathLength,
    IsOnly ObjectId.basicConstraints extensions e ∧
      BasicConstraints.ofContent? e.content =
        some ⟨true, pathLength⟩

/- The only extension for uses names some. -/
def HasUsage
    (extensions : List Extension)
    (usage : KeyUsage) : Prop :=
  ∃ e, IsOnly ObjectId.keyUsage extensions e ∧
    KeyUsage.ofContent? e.content = some usage

/- The uses are named twice, or once and not readably. -/
def HasBrokenUsage (extensions : List Extension) : Prop :=
  IsRepeated ObjectId.keyUsage extensions ∨
    ∃ e, IsOnly ObjectId.keyUsage extensions e ∧
      KeyUsage.ofContent? e.content = none

/-
  The subject is an authority, and the uses of its key are
  not named or signing certificates is one of them.
-/
structure MaySign (extensions : List Extension) : Prop where
  authorized : IsAuthorized extensions
  usage : IsAbsent ObjectId.keyUsage extensions ∨
    ∃ usage, HasUsage extensions usage ∧
      usage.keyCertSign = true

/- What speaks against the signing of certificates. -/
inductive IsDefective (extensions : List Extension) : Prop
| unconstrained
    (hAbsent : IsAbsent ObjectId.basicConstraints extensions)
| repeatedConstraints
    (hTwice :
      IsRepeated ObjectId.basicConstraints extensions)
| unreadableConstraints
    {e : Extension}
    (hMem : e ∈ extensions)
    (hId : e.id = ObjectId.basicConstraints)
    (hNone : BasicConstraints.ofContent? e.content = none)
| denied
    {e : Extension}
    {pathLength : Option Nat}
    (hMem : e ∈ extensions)
    (hId : e.id = ObjectId.basicConstraints)
    (hDenied : BasicConstraints.ofContent? e.content =
      some ⟨false, pathLength⟩)
| repeatedUsage
    (hTwice : IsRepeated ObjectId.keyUsage extensions)
| unreadableUsage
    {e : Extension}
    (hMem : e ∈ extensions)
    (hId : e.id = ObjectId.keyUsage)
    (hNone : KeyUsage.ofContent? e.content = none)
| otherUsage
    {e : Extension}
    {usage : KeyUsage}
    (hMem : e ∈ extensions)
    (hId : e.id = ObjectId.keyUsage)
    (hUsage : KeyUsage.ofContent? e.content = some usage)
    (hOther : usage.keyCertSign = false)

theorem isAuthority_iff :
    isAuthority extensions = true ↔
      IsAuthorized extensions := by
  unfold isAuthority IsAuthorized
  simp only [← withId_eq_singleton_iff]
  match withId ObjectId.basicConstraints extensions with
  | [] => simp
  | _ :: _ :: _ => simp
  | [e] =>
      cases hRead : BasicConstraints.ofContent? e.content with
      | none => simp [hRead]
      | some constraints =>
          rcases constraints with ⟨isAuthority, pathLength⟩
          simp [hRead]

theorem keyUsage?_eq_absent_iff :
    keyUsage? extensions = some none ↔
      IsAbsent ObjectId.keyUsage extensions := by
  unfold keyUsage?
  rw [← withId_eq_nil_iff]
  match withId ObjectId.keyUsage extensions with
  | [] => simp
  | [e] => simp
  | _ :: _ :: _ => simp

theorem keyUsage?_eq_usage_iff
    {usage : KeyUsage} :
    keyUsage? extensions = some (some usage) ↔
      HasUsage extensions usage := by
  unfold keyUsage? HasUsage
  simp only [← withId_eq_singleton_iff]
  match withId ObjectId.keyUsage extensions with
  | [] => simp
  | [e] => simp
  | _ :: _ :: _ => simp

theorem keyUsage?_eq_none_iff :
    keyUsage? extensions = none ↔
      HasBrokenUsage extensions := by
  unfold keyUsage? HasBrokenUsage
  rw [← two_le_withId_iff]
  simp only [← withId_eq_singleton_iff]
  match withId ObjectId.keyUsage extensions with
  | [] => simp
  | [e] => simp
  | _ :: _ :: _ => simp

/- An authority's extensions have no defect. -/
theorem MaySign.not_isDefective
    (hSign : MaySign extensions) :
    ¬ IsDefective extensions := by
  rcases hSign.authorized with
    ⟨c, pathLength, hConstraints, hRead⟩
  have hUsage : ∀ f ∈ extensions, f.id = ObjectId.keyUsage →
      ∃ usage, KeyUsage.ofContent? f.content = some usage ∧
        usage.keyCertSign = true := by
    intro f hMem hId
    rcases hSign.usage with
      hAbsent | ⟨usage, ⟨e, hOnly, hNamed⟩, hCertSign⟩
    · exact absurd hId (hAbsent f hMem)
    · rw [hOnly.eq_of_mem hMem hId]
      exact ⟨usage, hNamed, hCertSign⟩
  intro hDefective
  cases hDefective with
  | unconstrained hAbsent =>
      exact hAbsent c hConstraints.mem hConstraints.id
  | repeatedConstraints hTwice =>
      exact hConstraints.not_isRepeated hTwice
  | unreadableConstraints hMem hId hNone =>
      rw [hConstraints.eq_of_mem hMem hId, hRead] at hNone
      cases hNone
  | denied hMem hId hDenied =>
      rw [hConstraints.eq_of_mem hMem hId, hRead] at hDenied
      cases hDenied
  | repeatedUsage hTwice =>
      rcases hSign.usage with hAbsent | ⟨_, ⟨e, hOnly, -⟩, -⟩
      · exact hAbsent.not_isRepeated hTwice
      · exact hOnly.not_isRepeated hTwice
  | unreadableUsage hMem hId hNone =>
      rcases hUsage _ hMem hId with ⟨usage, hNamed, -⟩
      rw [hNamed] at hNone
      cases hNone
  | otherUsage hMem hId hNamed hOther =>
      rcases hUsage _ hMem hId with ⟨usage, hSame, hCertSign⟩
      rw [hNamed, Option.some.injEq] at hSame
      rw [hSame, hCertSign] at hOther
      cases hOther

theorem isAuthorized_of_not_isDefective
    (hSound : ¬ IsDefective extensions) :
    IsAuthorized extensions := by
  rcases absent_or_only_or_repeated
      ObjectId.basicConstraints extensions with
    hAbsent | ⟨e, hOnly⟩ | hTwice
  · exact absurd (.unconstrained hAbsent) hSound
  · cases hRead : BasicConstraints.ofContent? e.content with
    | none =>
        exact absurd
          (.unreadableConstraints hOnly.mem hOnly.id hRead)
          hSound
    | some constraints =>
        rcases constraints with ⟨isAuthority, pathLength⟩
        cases isAuthority with
        | false =>
            exact absurd (.denied hOnly.mem hOnly.id hRead)
              hSound
        | true => exact ⟨e, pathLength, hOnly, hRead⟩
  · exact absurd (.repeatedConstraints hTwice) hSound

/- Extensions without a defect are an authority's. -/
theorem maySign_iff :
    MaySign extensions ↔ ¬ IsDefective extensions := by
  refine ⟨MaySign.not_isDefective, fun hSound =>
    ⟨isAuthorized_of_not_isDefective hSound, ?_⟩⟩
  rcases absent_or_only_or_repeated
      ObjectId.keyUsage extensions with
    hAbsent | ⟨e, hOnly⟩ | hTwice
  · exact Or.inl hAbsent
  · cases hRead : KeyUsage.ofContent? e.content with
    | none =>
        exact absurd
          (.unreadableUsage hOnly.mem hOnly.id hRead) hSound
    | some usage =>
        refine Or.inr ⟨usage, ⟨e, hOnly, hRead⟩, ?_⟩
        by_contra hOther
        exact hSound (.otherUsage hOnly.mem hOnly.id hRead
          (Bool.eq_false_iff.mpr hOther))
  · exact absurd (.repeatedUsage hTwice) hSound

end Extension

------------------------------------------------------------
-- Checks
------------------------------------------------------------

namespace Check

theorem authority_eq_ok_iff
    (cert : Certificate) :
    authority cert = .ok () ↔
      cert.isAuthority = true ∧
        ∀ usage, cert.keyUsage = some usage →
          usage.keyCertSign = true := by
  unfold authority
  by_cases hAuthority : cert.isAuthority = true
  · cases hUsage : cert.keyUsage with
    | none => simp [hAuthority]
    | some usage =>
        by_cases hSign : usage.keyCertSign = true
        · simp [hAuthority, hSign]
        · simp [hAuthority, hSign]
  · simp [hAuthority]

end Check

------------------------------------------------------------
-- The Gate
------------------------------------------------------------

namespace Certificate

/- A gate accepts what the general gate does and its check. -/
theorem accept_eq_ok_iff
    {check : Check}
    {filename : String}
    {bytes : Bytes}
    {cert : Certificate} :
    accept check filename bytes = .ok cert ↔
      accept Check.general filename bytes = .ok cert ∧
        check cert = .ok () := by
  rw [accept_iff, accept_general_iff, and_assoc]

/- The binary form of bytes in either form. -/
def binary? (bytes : Bytes) : Option Bytes :=
  if Pem.looksLike bytes then Pem.certificate? bytes
  else some bytes

theorem ofBytes?_eq_bind (bytes : Bytes) :
    ofBytes? bytes = (binary? bytes).bind ofDer? := by
  unfold ofBytes? binary?
  by_cases hText : Pem.looksLike bytes = true
  · rw [if_pos hText, if_pos hText]
  · rw [if_neg hText, if_neg hText, Option.bind_some]

/- The extensions in the signed part of bytes in either form. -/
def extensions? (bytes : Bytes) : Option (List Extension) :=
  ((binary? bytes).bind signedPart?).map (·.extensions)

/- What a certificate says of trust is in its extensions. -/
theorem exists_extensions_of_ofBytes?
    {bytes : Bytes}
    {cert : Certificate}
    (hRead : ofBytes? bytes = some cert) :
    ∃ extensions, extensions? bytes = some extensions ∧
      cert.isAuthority = Extension.isAuthority extensions ∧
      Extension.keyUsage? extensions =
        some cert.keyUsage := by
  rw [ofBytes?_eq_bind] at hRead
  rcases Option.bind_eq_some_iff.mp hRead with
    ⟨der, hBinary, hDer⟩
  rcases exists_signedPart_of_ofDer? hDer with
    ⟨part, usage, hPart, hUsage, rfl⟩
  refine ⟨part.extensions, ?_, rfl, hUsage⟩
  rw [extensions?, hBinary, Option.bind_some, hPart,
    Option.map_some]

/- The check for authorities looks for what its name says. -/
theorem authority_eq_ok_iff_maySign
    {cert : Certificate}
    {extensions : List Extension}
    (hAuthority :
      cert.isAuthority = Extension.isAuthority extensions)
    (hUsage : Extension.keyUsage? extensions =
      some cert.keyUsage) :
    Check.authority cert = .ok () ↔
      Extension.MaySign extensions := by
  rw [Check.authority_eq_ok_iff, hAuthority,
    Extension.isAuthority_iff]
  cases hNamed : cert.keyUsage with
  | none =>
      rw [hNamed, Extension.keyUsage?_eq_absent_iff] at hUsage
      constructor
      · rintro ⟨hAuthorized, -⟩
        exact ⟨hAuthorized, Or.inl hUsage⟩
      · intro hSign
        exact ⟨hSign.authorized, fun _ hSome => by
          cases hSome⟩
  | some usage =>
      rw [hNamed] at hUsage
      have hHas := Extension.keyUsage?_eq_usage_iff.mp hUsage
      constructor
      · rintro ⟨hAuthorized, hCertSign⟩
        exact ⟨hAuthorized,
          Or.inr ⟨usage, hHas, hCertSign usage rfl⟩⟩
      · intro hSign
        refine ⟨hSign.authorized, ?_⟩
        rintro _ ⟨⟩
        rcases hSign.usage with
          hAbsent | ⟨other, hOther, hCertSign⟩
        · rw [Extension.keyUsage?_eq_absent_iff.mpr hAbsent]
            at hUsage
          cases hUsage
        · rw [Extension.keyUsage?_eq_usage_iff.mpr hOther]
            at hUsage
          cases hUsage
          exact hCertSign

/- Uses that are not broken make a certificate of bytes. -/
theorem exists_ofBytes?_of_extensions
    {bytes : Bytes}
    {extensions : List Extension}
    {usage : Option KeyUsage}
    (hExtensions : extensions? bytes = some extensions)
    (hUsage : Extension.keyUsage? extensions = some usage) :
    ∃ cert, ofBytes? bytes = some cert ∧
      cert.isAuthority = Extension.isAuthority extensions ∧
      cert.keyUsage = usage := by
  rcases Option.map_eq_some_iff.mp hExtensions with
    ⟨part, hFound, rfl⟩
  rcases Option.bind_eq_some_iff.mp hFound with
    ⟨der, hBinary, hPart⟩
  simp only [ofBytes?_eq_bind, hBinary, ofDer?, hPart, hUsage,
    Option.bind_eq_bind, Option.bind_some, Option.some.injEq]
  exact ⟨_, rfl, rfl, rfl⟩

theorem ofBytes?_eq_none_of_hasBrokenUsage
    {bytes : Bytes}
    {extensions : List Extension}
    (hExtensions : extensions? bytes = some extensions)
    (hBroken : Extension.HasBrokenUsage extensions) :
    ofBytes? bytes = none := by
  apply Option.eq_none_iff_forall_ne_some.mpr
  intro cert hRead
  rcases exists_extensions_of_ofBytes? hRead with
    ⟨others, hOthers, -, hUsage⟩
  rw [hExtensions, Option.some.injEq] at hOthers
  rw [← hOthers, Extension.keyUsage?_eq_none_iff.mpr hBroken]
    at hUsage
  cases hUsage

/-
  How bytes are refused that are not too large. Broken uses
  make them malformed, whatever is checked. Otherwise they
  are a certificate, which is not one of an authority, or one
  of an authority whose key does not sign certificates.
-/
theorem refusals_of_authority
    (filename : String)
    {bytes : Bytes}
    {extensions : List Extension}
    (hSize : bytes.length ≤ CertificateBytes.greatestSize)
    (hExtensions : extensions? bytes = some extensions) :
    (Extension.HasBrokenUsage extensions →
      ∀ check, accept check filename bytes =
        .error (.invalid filename .malformed)) ∧
    (¬ Extension.HasBrokenUsage extensions →
      ∃ cert, accept Check.general filename bytes = .ok cert ∧
        (¬ Extension.IsAuthorized extensions →
          accept Check.authority filename bytes =
            .error (.invalid filename
              (.check (.notAuthority
                cert.subject.display)))) ∧
        (Extension.IsAuthorized extensions →
          ∀ usage, Extension.HasUsage extensions usage →
            usage.keyCertSign = false →
              accept Check.authority filename bytes =
                .error (.invalid filename
                  (.check (.noCertSign
                    cert.subject.display))))) := by
  have hGate : ∀ check, accept check filename bytes =
      judge check filename bytes :=
    fun check => if_neg (Nat.not_lt.mpr hSize)
  constructor
  · intro hBroken check
    rw [hGate, judge,
      ofBytes?_eq_none_of_hasBrokenUsage hExtensions hBroken]
  · intro hWhole
    rw [← Extension.keyUsage?_eq_none_iff] at hWhole
    rcases Option.ne_none_iff_exists'.mp hWhole with
      ⟨usage, hUsage⟩
    rcases exists_ofBytes?_of_extensions hExtensions hUsage with
      ⟨cert, hRead, hAuthority, hNamed⟩
    refine ⟨cert, accept_general_iff.mpr ⟨hSize, hRead⟩,
      ?_, ?_⟩
    · intro hNot
      rw [← Extension.isAuthority_iff, ← hAuthority] at hNot
      simp [hGate, judge, hRead, Check.authority, hNot]
    · intro hAuthorized named hHas hOther
      rw [← Extension.isAuthority_iff, ← hAuthority]
        at hAuthorized
      have hSame :=
        Extension.keyUsage?_eq_usage_iff.mpr hHas
      rw [hUsage, ← hNamed, Option.some.injEq] at hSame
      simp [hGate, judge, hRead, Check.authority,
        hAuthorized, hSame, hOther]

/-
  The gate for authorities accepts exactly what the general
  gate does with extensions by which certificates may be
  signed, and refuses whatever has extensions with a defect.
-/
theorem accept_authority_exact
    (filename : String)
    (bytes : Bytes) :
    (∀ cert,
      accept Check.authority filename bytes = .ok cert ↔
        accept Check.general filename bytes = .ok cert ∧
          ∃ extensions,
            extensions? bytes = some extensions ∧
              Extension.MaySign extensions) ∧
    ∀ extensions, extensions? bytes = some extensions →
      Extension.IsDefective extensions →
        ∃ fault, accept Check.authority filename bytes =
          .error fault := by
  have hExact : ∀ cert,
      accept Check.authority filename bytes = .ok cert ↔
        accept Check.general filename bytes = .ok cert ∧
          ∃ extensions,
            extensions? bytes = some extensions ∧
              Extension.MaySign extensions := by
    intro cert
    rw [accept_eq_ok_iff]
    refine and_congr_right fun hGeneral => ?_
    rcases exists_extensions_of_ofBytes?
        (accept_general_iff.mp hGeneral).2 with
      ⟨extensions, hExtensions, hAuthority, hUsage⟩
    simp only [authority_eq_ok_iff_maySign hAuthority hUsage,
      hExtensions, Option.some.injEq, exists_eq_left']
  refine ⟨hExact, fun extensions hExtensions hDefective => ?_⟩
  cases hAccept : accept Check.authority filename bytes with
  | error fault => exact ⟨fault, rfl⟩
  | ok cert =>
      rcases ((hExact cert).mp hAccept).2 with
        ⟨others, hOthers, hSign⟩
      rw [hExtensions, Option.some.injEq] at hOthers
      rw [hOthers] at hDefective
      exact absurd hDefective hSign.not_isDefective

------------------------------------------------------------
-- Small Authorities
------------------------------------------------------------

/- An extension that says that the subject is an authority. -/
def authorizing : Extension where
  id := ObjectId.basicConstraints
  isCritical := false
  content := element 48 (element 1 [255])

/- An extension by which the key signs certificates. -/
def signing : Extension where
  id := ObjectId.keyUsage
  isCritical := false
  content := element 3 [2, 4]

/- The small certificate with extensions in its signed part. -/
def bytesExtended (extensions : List Extension) : Bytes :=
  let listed := extensions.flatMap fun e =>
    element 48 (element 6 e.id.content ++ element 4 e.content)
  let content := Layout.small.signed.drop 2 ++
    element 163 (element 48 listed)
  let signed := Element.sequenceHeader content.length ++ content
  ({ Layout.small with signed }.withSurplus []).bytes

theorem maySign_small :
    Extension.MaySign [authorizing, signing] where
  authorized :=
    ⟨authorizing, none,
      ⟨rfl, [], [signing], rfl, by decide +kernel⟩,
      by decide +kernel⟩
  usage := Or.inr
    ⟨⟨false, true, false⟩,
      ⟨signing,
        ⟨rfl, [authorizing], [], rfl, by decide +kernel⟩,
        by decide +kernel⟩,
      rfl⟩

/-
  With both extensions a certificate is an authority's, and
  with one of them repeated it is a certificate that is not.
-/
theorem accept_authority_small :
    (∃ cert, accept Check.authority "ca.der"
      (bytesExtended [authorizing, signing]) = .ok cert) ∧
    (∃ cert, accept Check.general "ca.der"
      (bytesExtended [authorizing, signing, authorizing]) =
        .ok cert) ∧
    ∃ fault, accept Check.authority "ca.der"
      (bytesExtended [authorizing, signing, authorizing]) =
        .error fault := by
  have hGeneral : ∀ bytes : Bytes,
      bytes.length ≤ CertificateBytes.greatestSize →
      (ofBytes? bytes).isSome →
      ∃ cert, accept Check.general "ca.der" bytes =
        .ok cert := by
    intro bytes hSize hSome
    rcases Option.isSome_iff_exists.mp hSome with
      ⟨cert, hCert⟩
    exact ⟨cert, accept_general_iff.mpr ⟨hSize, hCert⟩⟩
  have hTwice : Extension.IsDefective
      [authorizing, signing, authorizing] :=
    .repeatedConstraints
      ⟨authorizing, authorizing,
        .cons_cons _ (.cons _ (.cons_cons _ .slnil)), rfl, rfl⟩
  refine ⟨?_, ?_, ?_⟩
  · rcases hGeneral (bytesExtended [authorizing, signing])
        (by decide +kernel) (by decide +kernel) with
      ⟨cert, hCert⟩
    exact ⟨cert, ((accept_authority_exact _ _).1 cert).mpr
      ⟨hCert, _, by decide +kernel, maySign_small⟩⟩
  · exact hGeneral _ (by decide +kernel) (by decide +kernel)
  · exact (accept_authority_exact _ _).2 _
      (by decide +kernel) hTwice

end Certificate

end Federation
