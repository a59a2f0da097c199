import Federation.Proofs.Certificate.PrefixFree
import Federation.Proofs.Certificate.TextualForm

/-
  The blocks of texts that are accepted as certificates. What
  is counted is complete blocks: a text has exactly one, and
  what stands around it, the beginning of another block among
  that, is not looked at.

  Main declarations:
    * `Bytes.TakesFront.isSome_take_iff`
    * `Bytes.occurrences_append`
    * `Pem.takesFront_readBlock?`
    * `Pem.certificate?_of_some`
    * `Certificate.exists_only_block`
-/

namespace Federation

open Bytes (TakesFront)

------------------------------------------------------------
-- Fronts That Are Taken
------------------------------------------------------------

section Readers

variable {α : Type}
variable {read : Bytes → Option (α × Bytes)}

/- What is before the rest is the front, whatever follows. -/
theorem Bytes.TakesFront.of_append
    (hFront : TakesFront read)
    {front rest : Bytes}
    {x : α}
    (hRead : read (front ++ rest) = some (x, rest))
    (more : Bytes) :
    read (front ++ more) = some (x, more) := by
  rcases hFront _ _ _ hRead with ⟨other, hWhole, hMore⟩
  rw [List.append_cancel_right hWhole]
  exact hMore more

/- Cut bytes are read if they have all of the front. -/
theorem Bytes.TakesFront.isSome_take_iff
    (hFront : TakesFront read)
    {bytes rest : Bytes}
    {x : α}
    (hRead : read bytes = some (x, rest))
    (n : Nat) :
    (read (bytes.take n)).isSome = true ↔
      bytes.length - rest.length ≤ n := by
  rcases hFront _ _ _ hRead with ⟨front, hBytes, hMore⟩
  have hLength : bytes.length - rest.length = front.length := by
    rw [hBytes, List.length_append]
    omega
  rw [hLength]
  constructor
  · intro hSome
    rcases Option.isSome_iff_exists.mp hSome with
      ⟨⟨y, left⟩, hCut⟩
    -- What is taken of the cut bytes is taken of all of them.
    have hWhole := hFront.append hCut (bytes.drop n)
    rw [List.take_append_drop, hRead] at hWhole
    rcases Prod.mk.inj (Option.some.inj hWhole) with
      ⟨-, hRest⟩
    have hSizes := congrArg List.length hRest
    have hAll := congrArg List.length hBytes
    rw [List.length_append] at hSizes hAll
    rw [List.length_drop] at hSizes
    omega
  · intro hEnough
    have hCut : bytes.take n =
        front ++ rest.take (n - front.length) := by
      rw [hBytes, List.take_append,
        List.take_of_length_le hEnough]
    rw [hCut, hMore]
    rfl

end Readers

------------------------------------------------------------
-- Occurrences
------------------------------------------------------------

namespace Bytes

/- How often a marker occurs in bytes. -/
def occurrences (marker : Bytes) : Bytes → Nat
| [] => 0
| b :: rest =>
    if marker.isPrefixOf (b :: rest) then
      occurrences marker rest + 1
    else occurrences marker rest

/-
  Occurrences are in the one part or in the other, unless a
  front of the marker ends the first part and what is left of
  the marker begins the second.
-/
theorem occurrences_append
    {marker first second : Bytes}
    (hApart : ∀ k, 0 < k → k < marker.length →
      marker.take k <:+ first →
      ¬ marker.drop k <+: second) :
    occurrences marker (first ++ second) =
      occurrences marker first +
        occurrences marker second := by
  induction first with
  | nil => simp [occurrences]
  | cons b rest ih =>
      have hRest := ih fun k hSome hLess hEnds =>
        hApart k hSome hLess
          (hEnds.trans (List.suffix_cons b rest))
      have hHere : marker <+: (b :: rest) ++ second ↔
          marker <+: b :: rest := by
        constructor
        · intro hBegins
          by_contra hNot
          have hShort : (b :: rest).length < marker.length := by
            by_contra hLong
            exact hNot (List.prefix_of_prefix_length_le hBegins
              (List.prefix_append _ _) (Nat.not_lt.mp hLong))
          -- The match goes over from the first to the second.
          have hHead : b :: rest <+: marker :=
            List.prefix_of_prefix_length_le
              (List.prefix_append _ second) hBegins hShort.le
          rcases hHead with ⟨tail, rfl⟩
          rw [List.prefix_append_right_inj] at hBegins
          refine hApart (b :: rest).length (by simp) hShort
            ?_ ?_
          · exact ⟨[], List.take_left⟩
          · rw [List.drop_left]
            exact hBegins
        · intro hBegins
          exact hBegins.trans (List.prefix_append _ _)
      by_cases hMatch : marker <+: b :: rest
      · have hWhole := hHere.mpr hMatch
        rw [List.cons_append] at hWhole ⊢
        simp only [occurrences,
          List.isPrefixOf_iff_prefix, hMatch, hWhole, if_true,
          hRest]
        omega
      · have hWhole := mt hHere.mp hMatch
        rw [List.cons_append] at hWhole ⊢
        simp only [occurrences,
          List.isPrefixOf_iff_prefix, hMatch, hWhole, if_false,
          hRest]

/- Before a front that no rest of the marker begins. -/
theorem occurrences_append_front
    {marker front : Bytes}
    (hLong : marker.length ≤ front.length + 1)
    (hNone : ∀ k < marker.length, 0 < k →
      ¬ marker.drop k <+: front)
    (first rest : Bytes) :
    occurrences marker (first ++ (front ++ rest)) =
      occurrences marker first +
        occurrences marker (front ++ rest) := by
  refine occurrences_append fun k hSome hLess _ hBegins =>
    hNone k hLess hSome ?_
  refine List.prefix_of_prefix_length_le hBegins
    (List.prefix_append _ _) ?_
  rw [List.length_drop]
  omega

/- Behind a back that no front of the marker ends. -/
theorem occurrences_append_back
    {marker back : Bytes}
    (hNone : ∀ k < marker.length, 0 < k →
      ¬ marker.take k <:+ back)
    (rest : Bytes) :
    occurrences marker (back ++ rest) =
      occurrences marker back + occurrences marker rest :=
  occurrences_append fun k hSome hLess hEnds _ =>
    hNone k hLess hSome hEnds

end Bytes

open Bytes (occurrences)

namespace Pem

------------------------------------------------------------
-- Reading Blocks
------------------------------------------------------------

/- At a byte a search fails, ends, or goes on behind it. -/
theorem search_step
    (marker wanted seen : Bytes)
    (b : UInt8) :
    (∀ rest, search marker wanted seen (b :: rest) = none) ∨
    (∃ before, ∀ rest,
      search marker wanted seen (b :: rest) =
        some (before, rest)) ∨
    ∃ next later, ∀ rest,
      search marker wanted seen (b :: rest) =
        search marker next later rest := by
  cases wanted with
  | nil => exact Or.inl fun _ => rfl
  | cons w more =>
      right
      by_cases hSame : b = w
      · cases more with
        | nil =>
            refine Or.inl
              ⟨((b :: seen).drop marker.length).reverse,
                fun rest => ?_⟩
            rw [search_last, if_pos hSame]
        | cons v further =>
            refine Or.inr
              ⟨v :: further, b :: seen, fun rest => ?_⟩
            rw [search_cons, if_pos hSame]
      · refine Or.inr ⟨marker, b :: seen, fun rest => ?_⟩
        cases more with
        | nil => rw [search_last, if_neg hSame]
        | cons v further => rw [search_cons, if_neg hSame]

theorem takesFront_search
    (marker wanted seen : Bytes) :
    TakesFront (search marker wanted seen) := by
  intro bytes before after hFound
  induction bytes generalizing wanted seen with
  | nil => simp [search] at hFound
  | cons b tail ih =>
      rcases search_step marker wanted seen b with
        hFails | ⟨found, hEnds⟩ | ⟨next, later, hGoesOn⟩
      · rw [hFails] at hFound
        cases hFound
      · rw [hEnds] at hFound
        cases hFound
        exact ⟨[b], rfl, hEnds⟩
      · rw [hGoesOn] at hFound
        rcases ih _ _ hFound with ⟨front, rfl, hMore⟩
        refine ⟨b :: front, rfl, fun more => ?_⟩
        rw [List.cons_append, hGoesOn, hMore]

theorem takesFront_splitAfter (marker : String) :
    TakesFront (splitAfter marker) :=
  takesFront_search _ _ _

theorem suffix_of_splitAfter
    {marker : String}
    {bytes before after : Bytes}
    (hFound : splitAfter marker bytes =
      some (before, after)) :
    after <:+ bytes := by
  rw [eq_append_of_splitAfter hFound, ← List.append_assoc]
  exact List.suffix_append _ _

theorem dropBlank_suffix (bytes : Bytes) :
    dropBlank bytes <:+ bytes :=
  List.dropWhile_suffix _

theorem dropBlank_cons
    (b : UInt8)
    (rest : Bytes) :
    dropBlank (b :: rest) =
      if b == 0x20 || b == 0x0A || b == 0x0D || b == 0x09 then
        dropBlank rest
      else b :: rest :=
  List.dropWhile_cons

/- Blanks that are dropped before a search are dropped again. -/
theorem takesFront_splitAfter_dropBlank (marker : String) :
    TakesFront fun bytes =>
      splitAfter marker (dropBlank bytes) := by
  intro bytes before after hFound
  induction bytes with
  | nil => cases hFound
  | cons b tail ih =>
      simp only [dropBlank_cons] at hFound
      split at hFound
      · rename_i hBlank
        rcases ih hFound with ⟨front, rfl, hMore⟩
        refine ⟨b :: front, rfl, fun more => ?_⟩
        simp only [List.cons_append, dropBlank_cons, hBlank,
          if_true]
        exact hMore more
      · rename_i hPlain
        rcases takesFront_splitAfter marker _ _ _ hFound with
          ⟨front, hBytes, hMore⟩
        cases front with
        | nil => cases hMore []
        | cons c front =>
            rcases List.cons.inj hBytes with ⟨rfl, rfl⟩
            refine ⟨b :: front, rfl, fun more => ?_⟩
            simp only [List.cons_append, dropBlank_cons,
              hPlain]
            exact hMore more

theorem readBlock?_eq_bind :
    readBlock? = fun bytes =>
      (splitAfter "-----BEGIN " bytes).bind fun opened =>
        (splitAfter "-----" opened.2).bind fun label =>
          (splitAfter "-----END " (dropBlank label.2)).bind
            fun body =>
              (splitAfter "-----" body.2).map fun ended =>
                (⟨label.1, body.1, ended.1⟩, ended.2) := by
  funext bytes
  unfold readBlock?
  cases splitAfter "-----BEGIN " bytes with
  | none => rfl
  | some opened =>
      simp only [Option.bind_some]
      cases splitAfter "-----" opened.2 with
      | none => rfl
      | some label =>
          simp only [Option.bind_some]
          cases splitAfter "-----END " (dropBlank label.2) with
          | none => rfl
          | some body =>
              simp only [Option.bind_some]
              cases splitAfter "-----" body.2 <;> rfl

theorem takesFront_readBlock? : TakesFront readBlock? := by
  rw [readBlock?_eq_bind]
  exact (takesFront_splitAfter _).bind fun _ =>
    (takesFront_splitAfter _).bind fun label =>
      (takesFront_splitAfter_dropBlank _).bind fun body =>
        (takesFront_splitAfter _).map fun endLabel =>
          (⟨label, body, endLabel⟩ : RawBlock)

/- There is no complete block where no block ends. -/
theorem readBlock?_eq_none_of_not_isInfix
    {bytes : Bytes}
    (hNone : ¬ Text.toBytes "-----END " <:+: bytes) :
    readBlock? bytes = none := by
  cases hBlock : readBlock? bytes with
  | none => rfl
  | some found =>
      rw [readBlock?_eq_bind] at hBlock
      simp only [Option.bind_eq_some_iff, Prod.exists]
        at hBlock
      rcases hBlock with ⟨before, opened, hOpened, label,
        labelled, hLabelled, body, closed, hClosed, -⟩
      have hEnd : Text.toBytes "-----END " <:+:
          dropBlank labelled := by
        rw [eq_append_of_splitAfter hClosed]
        exact ⟨body, closed, List.append_assoc ..⟩
      have hRest : dropBlank labelled <:+ bytes :=
        (dropBlank_suffix labelled).trans
          ((suffix_of_splitAfter hLabelled).trans
            (suffix_of_splitAfter hOpened))
      exact absurd (hEnd.trans hRest.isInfix) hNone

------------------------------------------------------------
-- The Only Block
------------------------------------------------------------

/- Blocks that are seen already come first. -/
theorem prefix_readOnward
    (seen : List RawBlock)
    (bytes : Bytes) :
    seen.reverse <+: readOnward seen bytes := by
  fun_induction readOnward seen bytes with
  | case1 => exact List.prefix_rfl
  | case2 seen bytes block rest hBlock hFewer ih =>
      rw [List.reverse_cons] at ih
      exact (List.prefix_append _ _).trans ih

/- The content of a certificate's block. -/
def Block.certificate? (b : Block) : Option Bytes :=
  if b.label = certificateLabel then some b.content else none

theorem certificate?_of_none
    {bytes : Bytes}
    (hNone : readBlock? bytes = none) :
    certificate? bytes = none := by
  rw [certificate?, readAll?, readBlocks,
    readOnward_of_none hNone]
  rfl

/- One block is read, and a second complete one is too many. -/
theorem certificate?_of_some
    {bytes rest : Bytes}
    {block : RawBlock}
    (hBlock : readBlock? bytes = some (block, rest)) :
    certificate? bytes =
      if (readBlock? rest).isSome then none
      else (decodeBlock? block).bind Block.certificate? := by
  rw [certificate?, readAll?, readBlocks,
    readOnward_of_some hBlock]
  cases hNext : readBlock? rest with
  | none =>
      rw [readOnward_of_none hNext]
      cases hDecode : decodeBlock? block <;>
        simp [hDecode, Block.certificate?]
  | some found =>
      rcases prefix_readOnward [found.1, block] found.2 with
        ⟨more, hMore⟩
      rw [readOnward_of_some hNext, ← hMore]
      cases hFirst : decodeBlock? block <;>
        cases hSecond : decodeBlock? found.1 <;>
          cases hRest : more.mapM decodeBlock? <;>
            simp [hFirst, hSecond, hRest]

------------------------------------------------------------
-- Frames
------------------------------------------------------------

/- The lines around the block of a certificate. -/
def beginLine : Bytes :=
  Text.toBytes "-----BEGIN CERTIFICATE-----"

def endLine : Bytes :=
  Text.toBytes "-----END CERTIFICATE-----"

/- A text up to the end of the block of a certificate. -/
structure Frame where
  before : Bytes
  inner : Bytes

/- The bytes of the text. -/
def Frame.bytes (f : Frame) : Bytes :=
  f.before ++ (beginLine ++ (f.inner ++ endLine))

/- The labels of a block that has a certificate's content. -/
theorem labels_of_decodeBlock?
    {raw : RawBlock}
    {b : Block}
    {content : Bytes}
    (hDecode : decodeBlock? raw = some b)
    (hContent : b.certificate? = some content) :
    raw.label = Rendering.label ∧
      raw.endLabel = Rendering.label := by
  unfold decodeBlock? at hDecode
  dsimp only at hDecode
  split at hDecode
  · cases hDecode
  · rename_i hLabels
    rw [not_or, not_not] at hLabels
    simp only [Option.bind_eq_bind,
      Option.bind_eq_some_iff] at hDecode
    rcases hDecode with
      ⟨label, hLabel, _, _, _, _, _, _, hLast⟩
    split at hLast
    · cases hLast
      unfold Block.certificate? at hContent
      split at hContent
      · rename_i hCertificate
        have hName : label = certificateLabel := hCertificate
        have hBytes : raw.label = Rendering.label := by
          rw [← Text.toBytes_of_ofBytes? hLabel, hName]
          rfl
        exact ⟨hBytes, hLabels.2.symm.trans hBytes⟩
      · cases hContent
    · cases hLast

theorem exists_frame_of_readBlock?
    {bytes rest : Bytes}
    {block : RawBlock}
    (hBlock : readBlock? bytes = some (block, rest))
    (hLabel : block.label = Rendering.label)
    (hEnd : block.endLabel = Rendering.label) :
    ∃ f : Frame, bytes = f.bytes ++ rest := by
  have hBeginLine : beginLine = Text.toBytes "-----BEGIN " ++
      (Rendering.label ++ Text.toBytes "-----") := by
    decide
  have hEndLine : endLine = Text.toBytes "-----END " ++
      (Rendering.label ++ Text.toBytes "-----") := by
    decide
  rw [readBlock?_eq_bind] at hBlock
  simp only [Option.bind_eq_some_iff, Option.map_eq_some_iff,
    Prod.exists, Prod.mk.injEq] at hBlock
  rcases hBlock with ⟨before, opened, hOpened, label, labelled,
    hLabelled, body, closed, hClosed, endLabel, after, hAfter,
    rfl, rfl⟩
  rcases dropBlank_suffix labelled with ⟨blanks, hBlanks⟩
  refine ⟨⟨before, blanks ++ body⟩, ?_⟩
  rw [eq_append_of_splitAfter hOpened,
    eq_append_of_splitAfter hLabelled, ← hBlanks,
    eq_append_of_splitAfter hClosed,
    eq_append_of_splitAfter hAfter]
  simp only at hLabel hEnd
  simp only [Frame.bytes, hBeginLine, hEndLine, hLabel, hEnd,
    List.append_assoc]

/- Bytes behind a frame do not tell what the text looks like. -/
theorem looksLike_append
    (f : Frame)
    (more : Bytes) :
    looksLike (f.bytes ++ more) = looksLike f.bytes := by
  have hEnd :
      endLine.dropWhile Text.isAsciiBlank = endLine := by
    decide
  have hFrame : ∃ front, f.bytes.dropWhile Text.isAsciiBlank =
      front ++ endLine := by
    unfold Frame.bytes
    rw [← List.append_assoc, ← List.append_assoc,
      List.dropWhile_append]
    split
    · exact ⟨[], hEnd⟩
    · exact ⟨_, rfl⟩
  rcases hFrame with ⟨front, hFront⟩
  have hMore : (f.bytes ++ more).dropWhile Text.isAsciiBlank =
      front ++ endLine ++ more := by
    have hSome : endLine ≠ [] := by decide
    have hNot : ¬ (front ++ endLine).isEmpty = true := by
      rw [List.isEmpty_iff, List.append_eq_nil_iff]
      exact fun hNil => hSome hNil.2
    rw [List.dropWhile_append, hFront, if_neg hNot]
  have hLong : (Text.toBytes "-----BEGIN").length ≤
      (front ++ endLine).length := by
    have hShort : (Text.toBytes "-----BEGIN").length ≤
        endLine.length := by
      decide
    rw [List.length_append]
    omega
  unfold looksLike
  rw [hMore, hFront, Bool.eq_iff_iff,
    List.isPrefixOf_iff_prefix, List.isPrefixOf_iff_prefix]
  exact ⟨fun hBegins => List.prefix_of_prefix_length_le hBegins
      (List.prefix_append _ _) hLong,
    fun hBegins => hBegins.trans (List.prefix_append _ _)⟩

------------------------------------------------------------
-- Markers
------------------------------------------------------------

/- What blocks begin with, and what their lines end in. -/
def marker : Bytes := Text.toBytes "-----BEGIN"

def hyphens : Bytes := Text.toBytes "-----"

/-
  The hyphens at the end of a line may begin a marker with
  what follows them, so that they are counted with it.
-/
theorem occurrences_frame
    (f : Frame)
    (after : Bytes) :
    occurrences marker (f.bytes ++ after) =
      occurrences marker f.before + 1 +
        occurrences marker (hyphens ++ f.inner) +
        occurrences marker (hyphens ++ after) := by
  have hBegin : beginLine =
      Text.toBytes "-----BEGIN CERTIFICATE" ++ hyphens := by
    decide
  have hEnd : endLine =
      Text.toBytes "-----END CERTIFICATE" ++ hyphens := by
    decide
  have hParts : f.bytes ++ after = f.before ++
      (Text.toBytes "-----BEGIN CERTIFICATE" ++
        ((hyphens ++ f.inner) ++
          (Text.toBytes "-----END CERTIFICATE" ++
            (hyphens ++ after)))) := by
    simp only [Frame.bytes, hBegin, hEnd, List.append_assoc]
  have hOne : occurrences marker
      (Text.toBytes "-----BEGIN CERTIFICATE") = 1 := by
    decide
  have hNone : occurrences marker
      (Text.toBytes "-----END CERTIFICATE") = 0 := by
    decide
  rw [hParts]
  generalize hyphens ++ f.inner = inner
  generalize hyphens ++ after = behind
  rw [Bytes.occurrences_append_front (by decide) (by decide),
    Bytes.occurrences_append_back (by decide), hOne,
    Bytes.occurrences_append_front (by decide) (by decide),
    Bytes.occurrences_append_back (by decide), hNone]
  omega

end Pem

------------------------------------------------------------
-- Accepted Texts
------------------------------------------------------------

namespace Certificate

/- A text is judged by its first block, if no other follows. -/
theorem ofBytes?_of_readBlock?
    {bytes rest : Bytes}
    {block : Pem.RawBlock}
    (hText : Pem.looksLike bytes = true)
    (hBlock : Pem.readBlock? bytes = some (block, rest)) :
    ofBytes? bytes =
      if (Pem.readBlock? rest).isSome then none
      else ((Pem.decodeBlock? block).bind
        Pem.Block.certificate?).bind ofDer? := by
  rw [ofBytes?, if_pos hText, Pem.certificate?_of_some hBlock]
  split <;> rfl

/- What follows the block of an accepted text is not read. -/
theorem exists_frame_of_ofBytes?
    {bytes : Bytes}
    {cert : Certificate}
    (hText : Pem.looksLike bytes = true)
    (hRead : ofBytes? bytes = some cert) :
    ∃ (f : Pem.Frame) (after : Bytes),
      bytes = f.bytes ++ after ∧
      Pem.readBlock? after = none ∧
      (Pem.readBlocks bytes).length = 1 ∧
      ∀ other, ofBytes? (f.bytes ++ other) =
        if (Pem.readBlock? other).isSome then none
        else some cert := by
  cases hBlock : Pem.readBlock? bytes with
  | none =>
      rw [ofBytes?, if_pos hText,
        Pem.certificate?_of_none hBlock] at hRead
      cases hRead
  | some found =>
      rcases found with ⟨block, after⟩
      have hForm := ofBytes?_of_readBlock? hText hBlock
      rw [hForm] at hRead
      split at hRead
      · cases hRead
      · rename_i hAlone
        have hAfter : Pem.readBlock? after = none :=
          Option.not_isSome_iff_eq_none.mp hAlone
        rcases Option.bind_eq_some_iff.mp hRead with
          ⟨content, hContent, hDer⟩
        rcases Option.bind_eq_some_iff.mp hContent with
          ⟨decoded, hDecode, hCertificate⟩
        rcases Pem.labels_of_decodeBlock? hDecode
          hCertificate with ⟨hLabel, hEnd⟩
        rcases Pem.exists_frame_of_readBlock? hBlock hLabel
          hEnd with ⟨f, hBytes⟩
        have hFront := Pem.takesFront_readBlock?.of_append
          (hBytes ▸ hBlock)
        have hLooks : ∀ other,
            Pem.looksLike (f.bytes ++ other) = true := by
          intro other
          rw [Pem.looksLike_append,
            ← Pem.looksLike_append f after, ← hBytes, hText]
        refine ⟨f, after, hBytes, hAfter, ?_, fun other => ?_⟩
        · rw [Pem.readBlocks, Pem.readOnward_of_some hBlock,
            Pem.readOnward_of_none hAfter]
          rfl
        · rw [ofBytes?_of_readBlock? (hLooks other)
            (hFront other), hRead]

/-
  A text that is accepted has one block of a certificate, and
  no other complete block follows it. Only complete blocks
  count. What begins a block may occur elsewhere as well: its
  occurrences are those before the block, in it and behind it,
  and nothing is refused behind it in which no block ends. So
  a second certificate is passed over as long as any of its
  block is cut off, however little that is.
-/
theorem exists_only_block
    {bytes : Bytes}
    {cert : Certificate}
    (hText : Pem.looksLike bytes = true)
    (hRead : ofBytes? bytes = some cert) :
    ∃ (f : Pem.Frame) (after : Bytes),
      bytes = f.bytes ++ after ∧
      Pem.readBlock? after = none ∧
      (Pem.readBlocks bytes).length = 1 ∧
      occurrences Pem.marker bytes =
        occurrences Pem.marker f.before + 1 +
          occurrences Pem.marker
            (Pem.hyphens ++ f.inner) +
          occurrences Pem.marker
            (Pem.hyphens ++ after) ∧
      (∀ other, ofBytes? (f.bytes ++ other) =
        if (Pem.readBlock? other).isSome then none
        else some cert) ∧
      (∀ other, ¬ Text.toBytes "-----END " <:+: other →
        ofBytes? (f.bytes ++ other) = some cert) ∧
      ∀ content (r : Pem.Rendering content) n,
        ofBytes? (f.bytes ++ r.text.take n) =
          if n < r.text.length - r.trailing.length then
            some cert
          else none := by
  rcases exists_frame_of_ofBytes? hText hRead with
    ⟨f, after, hBytes, hAfter, hOne, hOther⟩
  refine ⟨f, after, hBytes, hAfter, hOne, ?_, hOther,
    ?_, ?_⟩
  · rw [hBytes, Pem.occurrences_frame]
  · intro other hNone
    rw [hOther, Pem.readBlock?_eq_none_of_not_isInfix hNone]
    rfl
  · intro content r n
    have hComplete := Pem.takesFront_readBlock?.isSome_take_iff
      r.readBlock?_text n
    rw [hOther]
    simp only [hComplete, ← Nat.not_lt, ite_not]

------------------------------------------------------------
-- A Block and the Beginning of Another
------------------------------------------------------------

/- The small certificate in lines of 64 symbols. -/
def smallText :
    Pem.Rendering CertificateBytes.small.bytes :=
  .wrapped 64 .newline _

/- The text once whole, and cut off when it is there again. -/
def cutText : Bytes :=
  smallText.text ++ smallText.text.take 40

/- What begins a block is there twice, and is accepted. -/
theorem accepted_cutText :
    Pem.looksLike cutText = true ∧
      (ofBytes? cutText).isSome = true ∧
      ofBytes? cutText = ofBytes? smallText.text ∧
      occurrences Pem.marker cutText = 2 := by
  have hText : Pem.looksLike cutText = true := by
    decide +kernel
  have hAfter : Pem.readBlock? (smallText.trailing ++
      smallText.text.take 40) = none := by
    decide +kernel
  have hBlock := Pem.takesFront_readBlock?.append
    smallText.readBlock?_text (smallText.text.take 40)
  have hSame : ofBytes? cutText =
      ofDer? CertificateBytes.small.bytes := by
    rw [cutText] at hText ⊢
    rw [ofBytes?_of_readBlock? hText hBlock, hAfter,
      smallText.decodeBlock?_text]
    rfl
  exact ⟨hText,
    by rw [hSame, CertificateBytes.isSome_ofDer?_small],
    by rw [hSame, ofBytes?_text], by decide +kernel⟩

theorem exists_only_block_small :
    ∃ cert f after,
      Pem.looksLike smallText.text = true ∧
      ofBytes? smallText.text = some cert ∧
      smallText.text = Pem.Frame.bytes f ++ after ∧
      ofBytes? (f.bytes ++ smallText.text.take 40) =
        some cert ∧
      ofBytes? (f.bytes ++ smallText.text) = none := by
  have hText := smallText.looksLike_text
  have hSome : (ofBytes? smallText.text).isSome = true := by
    rw [ofBytes?_text]
    exact CertificateBytes.isSome_ofDer?_small
  rcases Option.isSome_iff_exists.mp hSome with ⟨cert, hRead⟩
  rcases exists_only_block hText hRead with
    ⟨f, after, hBytes, -, -, -, -, -, hCut⟩
  have hFew : 40 < smallText.text.length -
      smallText.trailing.length := by
    decide +kernel
  have hPart := hCut _ smallText 40
  have hWhole := hCut _ smallText smallText.text.length
  rw [if_pos hFew] at hPart
  rw [if_neg (by omega), List.take_length] at hWhole
  exact ⟨cert, f, after, hText, hRead, hBytes, hPart, hWhole⟩

end Certificate

end Federation
