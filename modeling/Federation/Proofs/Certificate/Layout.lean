import Federation.Proofs.Certificate.PrefixFree
import Mathlib.Data.Nat.Digits.Lemmas

/-
  What a certificate in binary form consists of: the header of
  a sequence, the signed part, the algorithm, the signature,
  and surplus bytes that nothing reads. Any surplus may stand
  there, and it changes nothing but the bytes that are kept.

  Main declarations:
    * `Element.lengthBytes`
    * `Certificate.Layout`
    * `Certificate.Layout.IsSound`
    * `Certificate.signedPart?_of_isSound`
    * `Certificate.exists_layout`
    * `Certificate.fingerprint_ne_of_surplus`
-/

namespace Federation

------------------------------------------------------------
-- Lengths
------------------------------------------------------------

namespace Bytes

/- The bytes of a number, the highest first. -/
def ofNat (n : Nat) : Bytes :=
  ((Nat.digits 256 n).map UInt8.ofNat).reverse

theorem toNat_append
    (bytes : Bytes)
    (b : UInt8) :
    toNat (bytes ++ [b]) = toNat bytes * 256 + b.toNat := by
  simp [toNat]

theorem toNat_ofNat (n : Nat) : toNat (ofNat n) = n := by
  have hDigits : ∀ digits : List Nat,
      (∀ d ∈ digits, d < 256) →
      toNat ((digits.map UInt8.ofNat).reverse) =
        Nat.ofDigits 256 digits := by
    intro digits hSmall
    induction digits with
    | nil => rfl
    | cons d rest ih =>
        rw [List.forall_mem_cons] at hSmall
        rw [List.map_cons, List.reverse_cons, toNat_append,
          ih hSmall.2, Nat.ofDigits_cons,
          UInt8.toNat_ofNat_of_lt' hSmall.1, Nat.mul_comm,
          Nat.add_comm]
  rw [ofNat, hDigits _ fun d hd =>
    Nat.digits_lt_base (by decide) hd, Nat.ofDigits_digits]

theorem length_ofNat_le
    {n : Nat}
    (hSmall : n < 2 ^ 64) :
    (ofNat n).length ≤ 8 := by
  rw [ofNat, List.length_reverse, List.length_map]
  exact (Nat.digits_length_le_iff (by decide) n).mpr hSmall

theorem ofNat_ne_nil
    {n : Nat}
    (hSome : n ≠ 0) :
    ofNat n ≠ [] := by
  intro hNil
  have hZero := toNat_ofNat n
  rw [hNil] at hZero
  exact hSome hZero.symm

end Bytes

namespace Element

/-
  The shortest form of a length: a byte, or the number of its
  bytes and then these.
-/
def lengthBytes (n : Nat) : Bytes :=
  if n < 128 then [UInt8.ofNat n]
  else
    UInt8.ofNat (128 + (Bytes.ofNat n).length) :: Bytes.ofNat n

theorem readLength?_lengthBytes
    {n : Nat}
    (hSmall : n < 2 ^ 64)
    (rest : Bytes) :
    readLength? (lengthBytes n ++ rest) = some (n, rest) := by
  unfold lengthBytes
  by_cases hShort : n < 128
  · have hByte : (UInt8.ofNat n).toNat = n :=
      UInt8.toNat_ofNat_of_lt' (hShort.trans (by decide))
    rw [if_pos hShort, List.singleton_append,
      readLength?_cons, hByte, if_pos hShort]
  · have hFew := Bytes.length_ofNat_le hSmall
    have hSome : 0 < (Bytes.ofNat n).length :=
      List.length_pos_of_ne_nil
        (Bytes.ofNat_ne_nil (by omega))
    have hByte :
        (UInt8.ofNat (128 + (Bytes.ofNat n).length)).toNat =
          128 + (Bytes.ofNat n).length :=
      UInt8.toNat_ofNat_of_lt'
        ((by omega : _ < 256).trans_le (by decide))
    have hCount : 128 + (Bytes.ofNat n).length - 128 =
        (Bytes.ofNat n).length := by
      omega
    rw [if_neg hShort, List.cons_append, readLength?_cons,
      hByte, if_neg (by omega), if_neg (by omega), hCount,
      Bytes.split?_append, Option.bind_some,
      Bytes.toNat_ofNat]
    exact if_pos hSmall

/- The header of a sequence whose content has a length. -/
def sequenceHeader (length : Nat) : Bytes :=
  0x30 :: lengthBytes length

theorem readHeader?_sequenceHeader
    {length : Nat}
    (hSmall : length < 2 ^ 64)
    (rest : Bytes) :
    readHeader? (sequenceHeader length ++ rest) =
      some (⟨.universal, true, Tag.sequence⟩, length,
        rest) := by
  have hTag : Tag.read?
      (sequenceHeader length ++ rest) =
        some (⟨.universal, true, Tag.sequence⟩,
          lengthBytes length ++ rest) :=
    rfl
  rw [readHeader?, hTag]
  simp [readLength?_lengthBytes hSmall]

/- A header goes before as many bytes as it announces. -/
theorem read?_of_header
    {header content : Bytes}
    {tag : Tag}
    (hHeader : readHeader? header =
      some (tag, content.length, []))
    (rest : Bytes) :
    read? (header ++ (content ++ rest)) =
      some (⟨tag, content⟩, rest) := by
  have hKind := takesFront_readKind?.append
    (readKind?_eq_some_iff.mpr hHeader) (content ++ rest)
  rw [List.nil_append] at hKind
  rw [read?_eq_bind, hKind, Option.bind_some,
    Bytes.split?_append]
  rfl

end Element

------------------------------------------------------------
-- Expected Elements
------------------------------------------------------------

namespace SignedPart

theorem expect?_eq_some_iff
    {isGood : Element → Bool}
    {bytes rest : Bytes} :
    expect? isGood bytes = some rest ↔
      ∃ e, Element.read? bytes = some (e, rest) ∧
        isGood e = true := by
  unfold expect?
  cases Element.read? bytes with
  | none => simp
  | some found =>
      rcases found with ⟨e, after⟩
      by_cases hGood : isGood e = true
      · simp [hGood]
      · simp [hGood]

/- A good element and nothing else may have bytes behind it. -/
theorem expect?_append
    {isGood : Element → Bool}
    {bytes rest : Bytes}
    (hExpect : expect? isGood bytes = some rest)
    (more : Bytes) :
    expect? isGood (bytes ++ more) = some (rest ++ more) := by
  rcases expect?_eq_some_iff.mp hExpect with ⟨e, hRead, hGood⟩
  exact expect?_eq_some_iff.mpr
    ⟨e, Element.takesFront_read?.append hRead more, hGood⟩

theorem exists_front_of_expect?
    {isGood : Element → Bool}
    {bytes rest : Bytes}
    (hExpect : expect? isGood bytes = some rest) :
    ∃ front, bytes = front ++ rest ∧
      expect? isGood front = some [] := by
  rcases expect?_eq_some_iff.mp hExpect with ⟨e, hRead, hGood⟩
  rcases Element.takesFront_read? _ _ _ hRead with
    ⟨front, hBytes, hFront⟩
  have hAlone := hFront []
  rw [List.append_nil] at hAlone
  exact ⟨front, hBytes,
    expect?_eq_some_iff.mpr ⟨e, hAlone, hGood⟩⟩

/- The same bytes do not begin with two good elements. -/
theorem front_inj
    {isGood isFine : Element → Bool}
    {a b rest more : Bytes}
    (hFirst : expect? isGood a = some [])
    (hSecond : expect? isFine b = some [])
    (hEqual : a ++ rest = b ++ more) :
    a = b ∧ rest = more := by
  rcases expect?_eq_some_iff.mp hFirst with ⟨e, hReadA, -⟩
  rcases expect?_eq_some_iff.mp hSecond with ⟨f, hReadB, -⟩
  have hA := Element.takesFront_read?.append hReadA rest
  have hB := Element.takesFront_read?.append hReadB more
  rw [hEqual, hB] at hA
  have hRest : rest = more := by
    simpa using (Prod.mk.inj (Option.some.inj hA)).2.symm
  rw [hRest] at hEqual
  exact ⟨List.append_cancel_right hEqual, hRest⟩

/- The signed part that the content of a sequence is. -/
def ofBytes? (bytes : Bytes) : Option SignedPart :=
  (Element.read? bytes).bind fun found =>
    ofContent? found.1.content

end SignedPart

------------------------------------------------------------
-- Layouts
------------------------------------------------------------

namespace Certificate

/- The bytes of a certificate, part by part. -/
structure Layout where
  header : Bytes
  signed : Bytes
  algorithm : Bytes
  signature : Bytes
  surplus : Bytes
deriving DecidableEq, Repr

namespace Layout

/- What the header announces. -/
def content (l : Layout) : Bytes :=
  l.signed ++ (l.algorithm ++ (l.signature ++ l.surplus))

/- All bytes. -/
def bytes (l : Layout) : Bytes :=
  l.header ++ l.content

/-
  The header is that of a sequence with just this content, and
  each of the three parts is one element of the right kind.
-/
structure IsSound (l : Layout) : Prop where
  header : ∃ tag,
    Element.readHeader? l.header =
      some (tag, l.content.length, []) ∧
    tag.number = Tag.sequence
  signed :
    SignedPart.expect? (·.HasNumber Tag.sequence) l.signed =
      some []
  algorithm :
    SignedPart.expect? SignedPart.isAlgorithm l.algorithm =
      some []
  signature :
    SignedPart.expect? SignedPart.isBitString l.signature =
      some []

/- The same three parts with other bytes behind them. -/
def withSurplus
    (l : Layout)
    (surplus : Bytes) : Layout :=
  { l with
    header := Element.sequenceHeader
      (l.signed ++ (l.algorithm ++
        (l.signature ++ surplus))).length
    surplus }

theorem IsSound.withSurplus
    {l : Layout}
    (hSound : l.IsSound)
    {surplus : Bytes}
    (hSmall : (l.withSurplus surplus).content.length <
      2 ^ 64) :
    (l.withSurplus surplus).IsSound := by
  have hHeader := Element.readHeader?_sequenceHeader hSmall []
  rw [List.append_nil] at hHeader
  exact ⟨⟨_, hHeader, rfl⟩, hSound.signed, hSound.algorithm,
    hSound.signature⟩

/- Bytes can be taken apart in one way only. -/
theorem IsSound.eq_of_bytes_eq
    {l m : Layout}
    (hFirst : l.IsSound)
    (hSecond : m.IsSound)
    (hEqual : l.bytes = m.bytes) :
    l = m := by
  rcases hFirst.header with ⟨tag, hTag, -⟩
  rcases hSecond.header with ⟨other, hOther, -⟩
  have hRead := Element.read?_of_header hTag []
  have hAgain := Element.read?_of_header hOther []
  rw [List.append_nil] at hRead hAgain
  have hWhole : l.header ++ l.content =
      m.header ++ m.content := hEqual
  rw [hWhole, hAgain, Option.some.injEq, Prod.mk.injEq,
    Element.mk.injEq] at hRead
  have hContent : l.content = m.content := hRead.1.2.symm
  have hHeader : l.header = m.header := by
    rw [hContent] at hWhole
    exact List.append_cancel_right hWhole
  rcases SignedPart.front_inj hFirst.signed hSecond.signed
    hContent with ⟨hSigned, hAfter⟩
  rcases SignedPart.front_inj hFirst.algorithm
    hSecond.algorithm hAfter with ⟨hAlgorithm, hLater⟩
  rcases SignedPart.front_inj hFirst.signature
    hSecond.signature hLater with ⟨hSignature, hSurplus⟩
  cases l
  cases m
  rw [mk.injEq]
  exact ⟨hHeader, hSigned, hAlgorithm, hSignature, hSurplus⟩

end Layout

------------------------------------------------------------
-- Reading a Layout
------------------------------------------------------------

/- Of sound parts only the signed one is looked into. -/
theorem signedPart?_of_isSound
    {l : Layout}
    (hSound : l.IsSound) :
    signedPart? l.bytes = SignedPart.ofBytes? l.signed := by
  rcases hSound.header with ⟨tag, hTag, hNumber⟩
  have hOuter := Element.read?_of_header hTag []
  rw [List.append_nil] at hOuter
  have hWhole : Element.read? l.bytes =
      some (⟨tag, l.content⟩, []) := hOuter
  rcases SignedPart.expect?_eq_some_iff.mp hSound.signed with
    ⟨e, hRead, hSequence⟩
  have hSigned := Element.takesFront_read?.append hRead
    (l.algorithm ++ (l.signature ++ l.surplus))
  have hAlgorithm := SignedPart.expect?_append
    hSound.algorithm (l.signature ++ l.surplus)
  have hSignature :=
    SignedPart.expect?_append hSound.signature l.surplus
  rw [List.nil_append] at hSigned hAlgorithm hSignature
  have hContent : Element.read? l.content =
      some (e, l.algorithm ++ (l.signature ++ l.surplus)) :=
    hSigned
  have hTagged :
      Element.HasNumber ⟨tag, l.content⟩ Tag.sequence =
        true :=
    beq_iff_eq.mpr hNumber
  simp only [signedPart?, SignedPart.ofBytes?, hWhole, hTagged,
    hContent, hAlgorithm, hSignature, hRead, hSequence,
    List.isEmpty_nil, Bool.and_self, if_true,
    Option.bind_eq_bind, Option.bind_some]

theorem exists_layout_of_signedPart?
    {der : Bytes}
    {part : SignedPart}
    (hPart : signedPart? der = some part) :
    ∃ l : Layout, l.IsSound ∧ l.bytes = der := by
  rcases exists_elements_of_signedPart? hPart with
    ⟨outer, e, afterSigned, afterAlgorithm, surplus,
      ⟨hOuter, hNumber⟩, ⟨hSigned, hSequence⟩, hAlgorithm,
      hSignature, -⟩
  have hExpect :
      SignedPart.expect? (·.HasNumber Tag.sequence)
        outer.content = some afterSigned :=
    SignedPart.expect?_eq_some_iff.mpr ⟨e, hSigned, hSequence⟩
  rcases Element.exists_header_of_read? hOuter with
    ⟨header, hDer, hHeader⟩
  rcases SignedPart.exists_front_of_expect? hExpect with
    ⟨signed, hContent, hFirst⟩
  rcases SignedPart.exists_front_of_expect? hAlgorithm with
    ⟨algorithm, hRest, hSecond⟩
  rcases SignedPart.exists_front_of_expect? hSignature with
    ⟨signature, hLater, hThird⟩
  rw [hLater] at hRest
  rw [hRest] at hContent
  have hEnd := hHeader []
  rw [List.append_nil] at hEnd hDer
  refine ⟨⟨header, signed, algorithm, signature, surplus⟩,
    ⟨⟨outer.tag, ?_, beq_iff_eq.mp hNumber⟩, hFirst, hSecond,
      hThird⟩, ?_⟩
  · rw [hEnd, hContent]
    rfl
  · rw [hDer, hContent]
    rfl

/- With the same signed part the same is read off. -/
theorem ofDer?_of_signedPart?_eq
    {der other : Bytes}
    {cert : Certificate}
    (hPart : signedPart? other = signedPart? der)
    (hRead : ofDer? der = some cert) :
    ofDer? other = some { cert with der := ⟨other⟩ } := by
  rcases exists_signedPart_of_ofDer? hRead with
    ⟨part, usage, hFound, hUsage, rfl⟩
  simp [ofDer?, hPart, hFound, hUsage]

theorem ofDer?_of_isSound
    {l m : Layout}
    (hFirst : l.IsSound)
    (hSecond : m.IsSound)
    (hSigned : m.signed = l.signed)
    {cert : Certificate}
    (hRead : ofDer? l.bytes = some cert) :
    ofDer? m.bytes = some { cert with der := ⟨m.bytes⟩ } := by
  apply ofDer?_of_signedPart?_eq _ hRead
  rw [signedPart?_of_isSound hFirst,
    signedPart?_of_isSound hSecond, hSigned]

/-
  A certificate in binary form has one layout: a header, the
  signed part, the algorithm, the signature, and what else
  the header announces. Only the signed part tells what is
  read. The surplus can be any bytes at all, and other ones
  change what the certificate keeps.
-/
theorem exists_layout
    {der : Bytes}
    {cert : Certificate}
    (hRead : ofDer? der = some cert) :
    ∃ l : Layout,
      (l.IsSound ∧ l.bytes = der ∧
        ∀ m : Layout, m.IsSound → m.bytes = der → m = l) ∧
      (∀ m : Layout, m.IsSound → m.signed = l.signed →
        ofDer? m.bytes = some { cert with der := ⟨m.bytes⟩ }) ∧
      ∀ surplus,
        (l.withSurplus surplus).content.length < 2 ^ 64 →
        (l.withSurplus surplus).IsSound ∧
          (surplus ≠ l.surplus →
            (l.withSurplus surplus).bytes ≠ der) := by
  rcases exists_signedPart_of_ofDer? hRead with
    ⟨part, usage, hPart, -, -⟩
  rcases exists_layout_of_signedPart? hPart with
    ⟨l, hSound, rfl⟩
  have hOnly : ∀ m : Layout, m.IsSound →
      m.bytes = l.bytes → m = l :=
    fun m hm hEqual => hm.eq_of_bytes_eq hSound hEqual
  refine ⟨l, ⟨hSound, rfl, hOnly⟩, ?_, ?_⟩
  · intro m hm hSigned
    exact ofDer?_of_isSound hSound hm hSigned hRead
  · intro surplus hSmall
    have hOther := hSound.withSurplus hSmall
    refine ⟨hOther, fun hApart hEqual => hApart ?_⟩
    have hSame := congrArg Layout.surplus
      (hOnly _ hOther hEqual)
    exact hSame

/- The small certificate has a layout. -/
theorem exists_layout_small :
    ∃ cert, ofDer? CertificateBytes.small.bytes = some cert ∧
      ∃ l : Layout, l.IsSound ∧
        l.bytes = CertificateBytes.small.bytes := by
  rcases Option.isSome_iff_exists.mp
    CertificateBytes.isSome_ofDer?_small with ⟨cert, hCert⟩
  rcases exists_layout hCert with ⟨l, ⟨hSound, hBytes, -⟩, -⟩
  exact ⟨cert, hCert, l, hSound, hBytes⟩

/- The small certificate, part by part. -/
def Layout.small : Layout :=
  let bytes := CertificateBytes.small.bytes
  { header := bytes.take 2
    signed := (bytes.drop 2).take 92
    algorithm := (bytes.drop 94).take 7
    signature := bytes.drop 101
    surplus := [] }

theorem Layout.isSound_small : Layout.small.IsSound :=
  ⟨⟨⟨.universal, true, Tag.sequence⟩, by decide +kernel,
      rfl⟩,
    by decide +kernel, by decide +kernel, by decide +kernel⟩

/-
  With an integer behind its signature the small certificate
  is one without a layout that has no surplus, and it differs
  in its fingerprint and in nothing else that is read.
-/
theorem fingerprint_ne_of_surplus :
    ∃ c d : Certificate,
      ofDer? Layout.small.bytes = some c ∧
      ofDer? (Layout.small.withSurplus [2, 1, 1]).bytes =
        some d ∧
      (∀ m : Layout, m.IsSound →
        m.bytes = (Layout.small.withSurplus [2, 1, 1]).bytes →
        m.surplus ≠ []) ∧
      d = { c with der := d.der } ∧
      c.fingerprint ≠ d.fingerprint := by
  have hSome : (ofDer? Layout.small.bytes).isSome := by
    decide +kernel
  have hHashes :
      Sha256.hexDigest Layout.small.bytes ≠
        Sha256.hexDigest
          (Layout.small.withSurplus [2, 1, 1]).bytes := by
    decide +kernel
  have hSound :
      (Layout.small.withSurplus [2, 1, 1]).IsSound :=
    Layout.isSound_small.withSurplus (by decide +kernel)
  rcases Option.isSome_iff_exists.mp hSome with ⟨c, hc⟩
  refine ⟨c, _, hc,
    ofDer?_of_isSound Layout.isSound_small hSound rfl hc,
    ?_, rfl, ?_⟩
  · intro m hm hEqual
    rw [hm.eq_of_bytes_eq hSound hEqual]
    exact List.cons_ne_nil _ _
  · have hKept := der_of_ofDer? hc
    rw [fingerprint, CertificateBytes.fingerprint, hKept]
    exact hHashes

end Certificate

end Federation
