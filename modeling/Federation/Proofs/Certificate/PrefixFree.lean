import Federation.Proofs.Certificate.Gate
import Federation.Proofs.Generation.Documents

/-
  Accepted certificates in binary form are prefix-free. What
  is read off the start of bytes is read in the same way with
  any other bytes behind it, so that a certificate that is
  cut short or goes on is never a certificate.

  Main declarations:
    * `Bytes.TakesFront`
    * `Element.takesFront_read?`
    * `Certificate.isPrefixFree`
-/

namespace Federation

------------------------------------------------------------
-- Fronts
------------------------------------------------------------

namespace Bytes

/-
  A reader takes a front off bytes and leaves the rest. Of
  other bytes behind that front it takes the same front.
-/
def TakesFront
    {α : Type}
    (read : Bytes → Option (α × Bytes)) : Prop :=
  ∀ bytes x rest, read bytes = some (x, rest) →
    ∃ front, bytes = front ++ rest ∧
      ∀ more, read (front ++ more) = some (x, more)

section Readers

variable {α β : Type}
variable {f : Bytes → Option (α × Bytes)}

theorem takesFront_none :
    TakesFront fun _ => (none : Option (α × Bytes)) :=
  fun _ _ _ hRead => by cases hRead

theorem takesFront_some (x : α) :
    TakesFront fun bytes => some (x, bytes) := by
  intro bytes y rest hRead
  simp only [Option.some.injEq, Prod.mk.injEq] at hRead
  rcases hRead with ⟨rfl, rfl⟩
  exact ⟨[], rfl, fun _ => rfl⟩

theorem TakesFront.bind
    {g : α → Bytes → Option (β × Bytes)}
    (hFirst : TakesFront f)
    (hThen : ∀ x, TakesFront (g x)) :
    TakesFront fun bytes =>
      (f bytes).bind fun found => g found.1 found.2 := by
  intro bytes y rest hRead
  rcases Option.bind_eq_some_iff.mp hRead with
    ⟨⟨x, middle⟩, hx, hy⟩
  rcases hFirst _ _ _ hx with ⟨front, rfl, hFront⟩
  rcases hThen x _ _ _ hy with ⟨next, rfl, hNext⟩
  refine ⟨front ++ next, (List.append_assoc ..).symm, ?_⟩
  intro more
  rw [List.append_assoc]
  simp only [hFront, Option.bind_some]
  exact hNext more

theorem TakesFront.map
    (hFront : TakesFront f)
    (g : α → β) :
    TakesFront fun bytes =>
      (f bytes).map fun found => (g found.1, found.2) := by
  intro bytes y rest hRead
  rcases Option.map_eq_some_iff.mp hRead with
    ⟨⟨x, after⟩, hx, hy⟩
  rcases Prod.mk.inj hy with ⟨rfl, rfl⟩
  rcases hFront _ _ _ hx with ⟨front, hBytes, hMore⟩
  exact ⟨front, hBytes, fun more => by simp [hMore more]⟩

/- A reader of a byte, and then of what that byte announces. -/
theorem TakesFront.of_cons
    {g : UInt8 → Bytes → Option (α × Bytes)}
    (hNil : f [] = none)
    (hCons : ∀ b rest, f (b :: rest) = g b rest)
    (hThen : ∀ b, TakesFront (g b)) :
    TakesFront f := by
  intro bytes x rest hRead
  cases bytes with
  | nil =>
      rw [hNil] at hRead
      cases hRead
  | cons b tail =>
      rw [hCons] at hRead
      rcases hThen b _ _ _ hRead with ⟨front, rfl, hFront⟩
      refine ⟨b :: front, rfl, fun more => ?_⟩
      rw [List.cons_append, hCons]
      exact hFront more

/- More bytes behind what is read stay behind it. -/
theorem TakesFront.append
    (hFront : TakesFront f)
    {bytes rest : Bytes}
    {x : α}
    (hRead : f bytes = some (x, rest))
    (more : Bytes) :
    f (bytes ++ more) = some (x, rest ++ more) := by
  rcases hFront _ _ _ hRead with ⟨front, rfl, hMore⟩
  rw [List.append_assoc]
  exact hMore (rest ++ more)

end Readers

theorem split?_append
    (first rest : Bytes) :
    split? first.length (first ++ rest) =
      some (first, rest) := by
  simp [split?]

theorem eq_append_of_split?
    {n : Nat}
    {bytes first rest : Bytes}
    (hSplit : split? n bytes = some (first, rest)) :
    bytes = first ++ rest ∧ first.length = n := by
  unfold split? at hSplit
  simp only [List.splitAt_eq] at hSplit
  split at hSplit
  · rename_i hLength
    simp only [Option.some.injEq, Prod.mk.injEq] at hSplit
    rcases hSplit with ⟨rfl, rfl⟩
    exact ⟨(List.take_append_drop n bytes).symm, hLength⟩
  · cases hSplit

theorem takesFront_split? (n : Nat) :
    TakesFront (split? n) := by
  intro bytes first rest hSplit
  rcases eq_append_of_split? hSplit with ⟨rfl, rfl⟩
  exact ⟨first, rfl, split?_append first⟩

end Bytes

------------------------------------------------------------
-- Tags and Lengths
------------------------------------------------------------

open Bytes (TakesFront)

namespace Tag

theorem readGroups_succ
    (allowed value : Nat)
    (b : UInt8)
    (rest : Bytes) :
    readGroups (allowed + 1) value (b :: rest) =
      if b.toNat < 128 then
        some ((value * 128 + b.toNat % 128) % 0x100000000,
          rest)
      else
        readGroups allowed
          ((value * 128 + b.toNat % 128) % 0x100000000) rest :=
  rfl

theorem takesFront_readGroups (allowed value : Nat) :
    TakesFront (readGroups allowed value) := by
  induction allowed generalizing value with
  | zero =>
      exact .of_cons rfl (fun _ _ => rfl)
        (fun _ => Bytes.takesFront_none)
  | succ allowed ih =>
      refine .of_cons rfl (readGroups_succ allowed value)
        fun b => ?_
      by_cases hLast : b.toNat < 128
      · simp only [hLast, if_true]
        exact Bytes.takesFront_some _
      · simp only [hLast, if_false]
        exact ih _

theorem read?_cons
    (b : UInt8)
    (rest : Bytes) :
    read? (b :: rest) =
      if b.toNat % 32 = 31 then
        (readGroups 5 0 rest).map fun found =>
          (⟨familyOf b.toNat, b.toNat / 32 % 2 == 1,
            found.1⟩, found.2)
      else
        some (⟨familyOf b.toNat, b.toNat / 32 % 2 == 1,
          b.toNat % 32⟩, rest) :=
  rfl

theorem takesFront_read? : TakesFront read? := by
  refine .of_cons rfl read?_cons fun b => ?_
  by_cases hLong : b.toNat % 32 = 31
  · simp only [hLong, if_true]
    exact (takesFront_readGroups 5 0).map fun number =>
      (⟨familyOf b.toNat, b.toNat / 32 % 2 == 1, number⟩ :
        Tag)
  · simp only [hLong, if_false]
    exact Bytes.takesFront_some _

end Tag

namespace Element

/- A long length is the number of its bytes and then these. -/
theorem readLength?_cons
    (b : UInt8)
    (rest : Bytes) :
    readLength? (b :: rest) =
      if b.toNat < 128 then some (b.toNat, rest)
      else if b.toNat = 128 ∨ b.toNat = 255 then none
      else
        (Bytes.split? (b.toNat - 128) rest).bind fun found =>
          if Bytes.toNat found.1 < 0x10000000000000000 then
            some (Bytes.toNat found.1, found.2)
          else none := by
  rw [readLength?]
  cases Bytes.split? (b.toNat - 128) rest <;> rfl

theorem takesFront_readLength? : TakesFront readLength? := by
  refine .of_cons rfl readLength?_cons fun b => ?_
  by_cases hShort : b.toNat < 128
  · simp only [hShort, if_true]
    exact Bytes.takesFront_some _
  · by_cases hNone : b.toNat = 128 ∨ b.toNat = 255
    · simp only [hShort, hNone, if_true, if_false]
      exact Bytes.takesFront_none
    · simp only [hShort, hNone, if_false]
      refine (Bytes.takesFront_split? _).bind
        (g := fun digits rest =>
          if Bytes.toNat digits < 0x10000000000000000 then
            some (Bytes.toNat digits, rest)
          else none) fun digits => ?_
      by_cases hSize :
          Bytes.toNat digits < 0x10000000000000000
      · simp only [hSize, if_true]
        exact Bytes.takesFront_some _
      · simp only [hSize, if_false]
        exact Bytes.takesFront_none

/- The tag and the length at the start of bytes, as one. -/
def readKind?
    (bytes : Bytes) : Option ((Tag × Nat) × Bytes) :=
  (readHeader? bytes).map fun found =>
    ((found.1, found.2.1), found.2.2)

theorem readKind?_eq_some_iff
    {bytes rest : Bytes}
    {tag : Tag}
    {length : Nat} :
    readKind? bytes = some ((tag, length), rest) ↔
      readHeader? bytes = some (tag, length, rest) := by
  simp [readKind?, Option.map_eq_some_iff]

theorem takesFront_readKind? : TakesFront readKind? := by
  have hSteps : readKind? = fun bytes =>
      (Tag.read? bytes).bind fun found =>
        (readLength? found.2).map fun sized =>
          ((found.1, sized.1), sized.2) := by
    funext bytes
    unfold readKind? readHeader?
    cases Tag.read? bytes with
    | none => rfl
    | some found => simp [Function.comp_def]
  rw [hSteps]
  exact Tag.takesFront_read?.bind
    (g := fun tag rest =>
      (readLength? rest).map fun sized =>
        ((tag, sized.1), sized.2))
    fun tag => takesFront_readLength?.map fun length =>
      (tag, length)

/- An element is as much content as its header tells. -/
theorem read?_eq_bind (bytes : Bytes) :
    read? bytes =
      (readKind? bytes).bind fun found =>
        (Bytes.split? found.1.2 found.2).map fun parts =>
          (⟨found.1.1, parts.1⟩, parts.2) := by
  unfold read? readKind?
  cases readHeader? bytes <;> rfl

theorem takesFront_read? : TakesFront read? := by
  have hSteps := funext read?_eq_bind
  rw [hSteps]
  exact takesFront_readKind?.bind
    (g := fun kind rest =>
      (Bytes.split? kind.2 rest).map fun parts =>
        ((⟨kind.1, parts.1⟩ : Element), parts.2))
    fun kind => (Bytes.takesFront_split? kind.2).map
      fun content => (⟨kind.1, content⟩ : Element)

/-
  Whatever is behind it, the header of an element announces
  the element's tag and the length of its content.
-/
theorem exists_header_of_read?
    {bytes rest : Bytes}
    {e : Element}
    (hRead : read? bytes = some (e, rest)) :
    ∃ header, bytes = header ++ (e.content ++ rest) ∧
      ∀ more, readHeader? (header ++ more) =
        some (e.tag, e.content.length, more) := by
  rw [read?_eq_bind] at hRead
  rcases Option.bind_eq_some_iff.mp hRead with
    ⟨⟨⟨tag, length⟩, after⟩, hKind, hContent⟩
  rcases Option.map_eq_some_iff.mp hContent with
    ⟨⟨content, last⟩, hSplit, hElement⟩
  rcases Prod.mk.inj hElement with ⟨rfl, rfl⟩
  rcases Bytes.eq_append_of_split? hSplit with ⟨rfl, rfl⟩
  rcases takesFront_readKind? _ _ _ hKind with
    ⟨header, hBytes, hHeader⟩
  exact ⟨header, hBytes, fun more =>
    readKind?_eq_some_iff.mp (hHeader more)⟩

end Element

------------------------------------------------------------
-- Certificates
------------------------------------------------------------

namespace Certificate

theorem ofDer?_append_eq_none
    {der more : Bytes}
    {cert : Certificate}
    (hRead : ofDer? der = some cert)
    (hMore : more ≠ []) :
    ofDer? (der ++ more) = none := by
  rcases exists_read?_of_ofDer? hRead with ⟨outer, hOuter, -⟩
  have hLonger :
      Element.read? (der ++ more) = some (outer, more) :=
    Element.takesFront_read?.append hOuter more
  apply Option.eq_none_iff_forall_ne_some.mpr
  intro other hOther
  rcases exists_read?_of_ofDer? hOther with
    ⟨whole, hWhole, -⟩
  rw [hLonger, Option.some.injEq, Prod.mk.injEq] at hWhole
  exact hMore hWhole.2

theorem ofDer?_eq_none_of_prefix
    {der front : Bytes}
    {cert : Certificate}
    (hRead : ofDer? der = some cert)
    (hFront : front <+: der)
    (hShorter : front ≠ der) :
    ofDer? front = none := by
  rcases hFront with ⟨more, rfl⟩
  have hMore : more ≠ [] := by
    rintro rfl
    exact hShorter (List.append_nil front).symm
  apply Option.eq_none_iff_forall_ne_some.mpr
  intro other hOther
  rw [ofDer?_append_eq_none hOther hMore] at hRead
  cases hRead

/- The gate has one answer for all that is no certificate. -/
theorem judge_eq_malformed
    {bytes : Bytes}
    (hBinary : Pem.looksLike bytes = false)
    (hNone : ofDer? bytes = none)
    (check : Check)
    (filename : String) :
    judge check filename bytes =
      .error (.invalid filename .malformed) := by
  rw [judge, ofBytes?_eq_ofDer? hBinary, hNone]

/-
  A certificate in binary form that is cut short, wherever it
  is cut, or that has any bytes behind it is malformed.
-/
theorem isPrefixFree
    {der : Bytes}
    {cert : Certificate}
    (hRead : ofDer? der = some cert) :
    (∀ front, front <+: der → front ≠ der →
      ofDer? front = none ∧
        ∀ check filename, judge check filename front =
          .error (.invalid filename .malformed)) ∧
    (∀ more, more ≠ [] →
      ofDer? (der ++ more) = none ∧
        ∀ check filename, judge check filename (der ++ more) =
          .error (.invalid filename .malformed)) := by
  rcases first_of_ofDer? hRead with ⟨b, tail, hBytes, hFirst⟩
  constructor
  · intro front hFront hShorter
    have hNone :=
      ofDer?_eq_none_of_prefix hRead hFront hShorter
    refine ⟨hNone, judge_eq_malformed ?_ hNone⟩
    cases front with
    | nil => rfl
    | cons c rest =>
        rw [hBytes, List.cons_prefix_cons] at hFront
        rw [hFront.1]
        exact not_looksLike_of_first rest hFirst
  · intro more hMore
    have hNone := ofDer?_append_eq_none hRead hMore
    refine ⟨hNone, judge_eq_malformed ?_ hNone⟩
    rw [hBytes, List.cons_append]
    exact not_looksLike_of_first _ hFirst

/- The small certificate, cut short and with bytes behind it. -/
theorem isPrefixFree_small :
    (ofDer? CertificateBytes.small.bytes).isSome ∧
      (∀ n, n < CertificateBytes.small.bytes.length →
        ofDer? (CertificateBytes.small.bytes.take n) =
          none) ∧
      ∀ more, more ≠ [] →
        ofDer? (CertificateBytes.small.bytes ++ more) =
          none := by
  have hSome := CertificateBytes.isSome_ofDer?_small
  rcases Option.isSome_iff_exists.mp hSome with ⟨cert, hCert⟩
  refine ⟨hSome, ?_, fun more hMore =>
    ((isPrefixFree hCert).2 more hMore).1⟩
  intro n hn
  refine ((isPrefixFree hCert).1 _ (List.take_prefix n _)
    ?_).1
  intro hSame
  have hLength := congrArg List.length hSame
  rw [List.length_take] at hLength
  omega

end Certificate

end Federation
