import Federation.Proofs.Certificate.Material
import Federation.Proofs.Generation.CertificateFields
import Federation.Proofs.Generation.Complete
import Mathlib.Data.Set.List

/-
  Certificate material and its base64 text tell each other.
  Strict base64 has one text for any bytes: every symbol of a
  text has a value, what is not a symbol is the padding that
  the last group asks for, and no spare bit is set. A text is
  then read as some bytes if it is their text, among blanks,
  and sorting texts without repetitions is sorting
  certificates: nothing is lost or kept twice by it.

  Main declarations:
    * `Base64.encode_of_decodeGroups`
    * `Base64.decode_eq_ok_iff`
    * `CertificateBytes.ofBase64_eq_ok_iff`
    * `Content.ShowsEachOnce`
    * `CertificateBytes.one_text_each`
-/

namespace Federation

open Reading (exists_of_bind_eq_ok)

namespace Base64

------------------------------------------------------------
-- Symbols That Are Read
------------------------------------------------------------

/- A symbol with a value is the symbol of that value. -/
theorem symbol_of_value?
    {b : UInt8}
    {value : Nat}
    (hValue : value? b = some value) :
    symbol value = b ∧ value < 64 := by
  have hAll : ∀ n : Fin 256,
      (value? (UInt8.ofNat n)).all
        (fun v => symbol v = UInt8.ofNat n ∧ v < 64) =
          true := by
    decide +kernel
  have hByte := hAll ⟨b.toNat, b.toNat_lt⟩
  simpa [hValue] using hByte

theorem symbol_of_valueAt
    {offset value : Nat}
    {b : UInt8}
    (hValue : valueAt offset b = .ok value) :
    symbol value = b ∧ value < 64 := by
  unfold valueAt at hValue
  split at hValue
  · rename_i hFound
    cases hValue
    exact symbol_of_value? hFound
  · cases hValue

------------------------------------------------------------
-- Groups That Are Read
------------------------------------------------------------

/- The bytes of four values are written as their symbols. -/
theorem encode_group
    {a b c d : Nat}
    (ha : a < 64)
    (hb : b < 64)
    (hc : c < 64)
    (hd : d < 64)
    (rest : Bytes) :
    encode (group a b c d ++ rest) =
      [symbol a, symbol b, symbol c, symbol d] ++
        encode rest := by
  have hWhole :
      ((((a * 64 + b) * 64 + c) * 64 + d) / 65536 % 2 ^ 8 *
          256 +
        (((a * 64 + b) * 64 + c) * 64 + d) / 256 % 2 ^ 8) *
          256 +
        (((a * 64 + b) * 64 + c) * 64 + d) % 2 ^ 8 =
      ((a * 64 + b) * 64 + c) * 64 + d := by
    omega
  have hFirst :
      (((a * 64 + b) * 64 + c) * 64 + d) / 262144 = a := by
    omega
  have hSecond :
      (((a * 64 + b) * 64 + c) * 64 + d) / 4096 % 64 = b := by
    omega
  have hThird :
      (((a * 64 + b) * 64 + c) * 64 + d) / 64 % 64 = c := by
    omega
  have hFourth :
      (((a * 64 + b) * 64 + c) * 64 + d) % 64 = d := by
    omega
  simp only [group, List.cons_append, List.nil_append, encode,
    UInt8.toNat_ofNat', hWhole, hFirst, hSecond, hThird,
    hFourth]

/- One byte is written as two values without spare bits. -/
theorem encode_group_one
    {a b : Nat}
    (ha : a < 64)
    (hb : b < 64)
    (hSpare : b % 16 = 0) :
    encode ((group a b 0 0).take 1) =
      [symbol a, symbol b, pad, pad] := by
  have hWhole :
      (((a * 64 + b) * 64 + 0) * 64 + 0) / 65536 % 2 ^ 8 *
        16 = a * 64 + b := by
    omega
  have hFirst : (a * 64 + b) / 64 = a := by omega
  have hSecond : (a * 64 + b) % 64 = b := by omega
  simp only [group, List.take_succ_cons, List.take_zero,
    encode, UInt8.toNat_ofNat', hWhole, hFirst, hSecond]

theorem encode_group_two
    {a b c : Nat}
    (ha : a < 64)
    (hb : b < 64)
    (hc : c < 64)
    (hSpare : c % 4 = 0) :
    encode ((group a b c 0).take 2) =
      [symbol a, symbol b, symbol c, pad] := by
  have hWhole :
      ((((a * 64 + b) * 64 + c) * 64 + 0) / 65536 % 2 ^ 8 *
          256 +
        (((a * 64 + b) * 64 + c) * 64 + 0) / 256 % 2 ^ 8) *
          4 = (a * 64 + b) * 64 + c := by
    omega
  have hFirst : ((a * 64 + b) * 64 + c) / 4096 = a := by omega
  have hSecond : ((a * 64 + b) * 64 + c) / 64 % 64 = b := by
    omega
  have hThird : ((a * 64 + b) * 64 + c) % 64 = c := by omega
  simp only [group, List.take_succ_cons, List.take_zero,
    encode, UInt8.toNat_ofNat', hWhole, hFirst, hSecond,
    hThird]

------------------------------------------------------------
-- The Last Group That Is Read
------------------------------------------------------------

/- The last group is symbols and then nothing but padding. -/
theorem eq_of_lastValues
    {offset place pads : Nat}
    {bytes : Bytes}
    {values : List Nat}
    (hRead : lastValues offset place bytes =
      .ok (values, pads)) :
    bytes = values.map symbol ++ List.replicate pads pad ∧
      ∀ v ∈ values, v < 64 := by
  induction bytes generalizing place values with
  | nil =>
      cases hRead
      exact ⟨rfl, List.forall_mem_nil _⟩
  | cons b rest ih =>
      unfold lastValues at hRead
      by_cases hPad : b = pad
      · rw [if_pos hPad] at hRead
        split at hRead
        · cases hRead
        · split at hRead
          · rename_i hRest
            cases hRead
            have hAll : ∀ x ∈ rest, x = pad := by
              simpa using hRest
            refine ⟨?_, List.forall_mem_nil _⟩
            rw [hPad, Nat.add_comm, List.replicate_succ,
              ← List.eq_replicate_of_mem hAll]
            rfl
          · cases hRead
      · rw [if_neg hPad] at hRead
        cases hValue : valueAt (offset + place) b with
        | error fault =>
            rw [hValue] at hRead
            cases hRead
        | ok value =>
            cases hRest :
                lastValues offset (place + 1) rest with
            | error fault =>
                rw [hValue, hRest] at hRead
                cases hRead
            | ok found =>
                rw [hValue, hRest] at hRead
                cases hRead
                rcases ih hRest with ⟨hBytes, hSmall⟩
                rcases symbol_of_valueAt hValue with
                  ⟨hSymbol, hHead⟩
                refine ⟨?_, List.forall_mem_cons.mpr
                  ⟨hHead, hSmall⟩⟩
                rw [List.map_cons, hSymbol, List.cons_append,
                  ← hBytes]

/- What is read from the last group is written as it. -/
theorem encode_of_decodeLast
    {offset : Nat}
    {bytes out : Bytes}
    (hRead : decodeLast offset bytes = .ok out) :
    encode out = bytes := by
  unfold decodeLast at hRead
  cases hLast : lastValues offset 0 bytes with
  | error fault =>
      rw [hLast] at hRead
      cases hRead
  | ok found =>
      rcases found with ⟨values, pads⟩
      rcases eq_of_lastValues hLast with ⟨rfl, hSmall⟩
      rw [hLast] at hRead
      dsimp only [bind, Except.bind, pure, Except.pure,
        throw, throwThe, MonadExceptOf.throw] at hRead
      split at hRead
      · cases hRead
      · split at hRead
        · cases hRead
        · rename_i hCount
          have hPads : pads = 4 - values.length := by omega
          rw [hPads]
          split at hRead
          · split at hRead
            · cases hRead
            · rename_i a b hSpare
              cases hRead
              simp only [List.forall_mem_cons] at hSmall
              exact encode_group_one hSmall.1 hSmall.2.1
                (Decidable.not_not.mp hSpare)
          · split at hRead
            · cases hRead
            · rename_i a b c hSpare
              cases hRead
              simp only [List.forall_mem_cons] at hSmall
              exact encode_group_two hSmall.1 hSmall.2.1
                hSmall.2.2.1 (Decidable.not_not.mp hSpare)
          · cases hRead
            simp only [List.forall_mem_cons] at hSmall
            have hGroup := encode_group hSmall.1 hSmall.2.1
              hSmall.2.2.1 hSmall.2.2.2.1 []
            rwa [List.append_nil] at hGroup
          · cases hRead

------------------------------------------------------------
-- Whole Texts That Are Read
------------------------------------------------------------

/-
  By induction on the groups: each but the last one is whole,
  and what follows it is not empty.
-/
theorem encode_of_decodeGroups
    {offset : Nat}
    {bytes out : Bytes}
    (hRead : decodeGroups offset bytes = .ok out) :
    encode out = bytes := by
  fun_induction decodeGroups offset bytes generalizing out with
  | case1 offset a b c d e rest ih =>
      rcases exists_of_bind_eq_ok hRead with ⟨va, hva, hRead⟩
      rcases exists_of_bind_eq_ok hRead with ⟨vb, hvb, hRead⟩
      rcases exists_of_bind_eq_ok hRead with ⟨vc, hvc, hRead⟩
      rcases exists_of_bind_eq_ok hRead with ⟨vd, hvd, hRead⟩
      rcases exists_of_bind_eq_ok hRead with
        ⟨tail, hTail, hRead⟩
      cases hRead
      rcases symbol_of_valueAt hva with ⟨ha, hFirst⟩
      rcases symbol_of_valueAt hvb with ⟨hb, hSecond⟩
      rcases symbol_of_valueAt hvc with ⟨hc, hThird⟩
      rcases symbol_of_valueAt hvd with ⟨hd, hFourth⟩
      rw [encode_group hFirst hSecond hThird hFourth, ih hTail,
        ha, hb, hc, hd]
      rfl
  | case2 =>
      cases hRead
      rfl
  | case3 offset last => exact encode_of_decodeLast hRead

/- Only what bytes are written as is read as these bytes. -/
theorem decode_eq_ok_iff {text bytes : Bytes} :
    decode text = .ok bytes ↔ text = encode bytes := by
  constructor
  · intro hRead
    unfold decode at hRead
    split at hRead
    · split at hRead
      · cases hRead
      · exact (encode_of_decodeGroups hRead).symm
    · rename_i hLast
      cases hRead
      exact List.getLast?_eq_none_iff.mp hLast
  · rintro rfl
    exact decode_encode bytes

end Base64

------------------------------------------------------------
-- Material and Its Text
------------------------------------------------------------

/- What ascends strictly has nothing twice. -/
theorem IsSetOf.nodup
    {α κ : Type}
    [LinearOrder κ]
    {key : α → κ}
    {source shown : List α}
    (hSet : IsSetOf key source shown) :
    shown.Nodup := by
  refine hSet.ascending.imp ?_
  intro a b hLess hSame
  exact hLess.ne (congrArg key hSame)

namespace CertificateBytes

/- Material is read from its own text, among any blanks. -/
theorem ofBase64_eq_ok_iff
    {text : String}
    {c : CertificateBytes} :
    ofBase64 text = .ok c ↔
      Text.trim text.toList = c.toBase64.toList := by
  have hBytes :
      Text.toBytes (String.ofList (Text.trim text.toList)) =
          Base64.encode c.bytes ↔
        Text.trim text.toList = c.toBase64.toList := by
    rw [← Base64.toBytes_encodeText]
    constructor
    · intro hSame
      have hText := Text.toBytes_inj hSame
      rw [toBase64, ← hText, String.toList_ofList]
    · intro hSame
      rw [hSame, String.ofList_toList, toBase64]
  rw [← hBytes, ← Base64.decode_eq_ok_iff, ofBase64]
  split
  · rename_i bytes hRead
    rw [hRead]
    constructor
    · intro hOk
      cases hOk
      rfl
    · intro hOk
      cases hOk
      rfl
  · rename_i fault hRead
    rw [hRead]
    simp only [reduceCtorEq]

theorem toBase64_injective : Function.Injective toBase64 := by
  intro a b hSame
  have hRead := ofBase64_toBase64 a
  rw [hSame, ofBase64_toBase64] at hRead
  exact (Except.ok.inj hRead).symm

/- Texts are those of certificates if each of them is one. -/
theorem exists_of_sortTexts (certs : List CertificateBytes) :
    ∃ kept : List CertificateBytes,
      Content.sortTexts (certs.map toBase64) =
        kept.map toBase64 ∧
      IsSetOf toBase64 certs kept := by
  have hSet := Content.isSetOf_sortTexts (certs.map toBase64)
  have hTexts : Content.sortTexts (certs.map toBase64) ∈
      Set.range (List.map toBase64) := by
    rw [Set.range_list_map]
    intro text hMem
    rcases List.mem_map.mp ((hSet.same text).mp hMem) with
      ⟨c, -, hText⟩
    exact ⟨c, hText⟩
  rcases hTexts with ⟨kept, hKept⟩
  rw [← hKept] at hSet
  refine ⟨kept, hKept.symm,
    List.pairwise_map.mp hSet.ascending, fun c => ?_⟩
  rw [← List.mem_map_of_injective toBase64_injective,
    hSet.same, List.mem_map_of_injective toBase64_injective]

end CertificateBytes

------------------------------------------------------------
-- Generated Documents
------------------------------------------------------------

namespace Content

/-
  A source is shown with its address and with each of its
  certificates once, in the order of their texts.
-/
def ShowsEachOnce (s : ConfigurationSource) (v : Json) : Prop :=
  ∃ kept : List CertificateBytes,
    v = .ofMembers
      [ ("downloadUrl", .string s.downloadUrl),
        ("verificationCerts",
          Json.ofList CertificateBytes.toJson kept) ] ∧
    IsSetOf CertificateBytes.toBase64 s.verificationCerts
      kept ∧
    kept.Nodup

theorem showsEachOnce_sourceJson
    {s : ConfigurationSource}
    (hSome : s.verificationCerts ≠ []) :
    ShowsEachOnce s (sourceJson allCerts s) := by
  rcases List.exists_cons_of_ne_nil hSome with
    ⟨cert, certs, hCerts⟩
  rcases CertificateBytes.exists_of_sortTexts
    s.verificationCerts with ⟨kept, hTexts, hSet⟩
  refine ⟨kept, ?_, hSet, hSet.nodup⟩
  rw [hCerts] at hTexts
  rw [sourceJson, hCerts]
  simp only [allCerts, hTexts, Json.ofList, List.map_map]
  rfl

end Content

namespace Generator

/- Every source is shown with each of its certificates once. -/
theorem exists_shown_sources
    {r : Registry}
    {now : Instant}
    {d : Document .privateParameters}
    (hGenerate :
      v2.generate .privateParameters now r = .ok d) :
    ∃ shown,
      Pointer.resolve?
          [.key "configurationAnchor", .key "sources"]
          d.toJson = some (.array shown) ∧
      List.Forall₂
        (fun entry v => Content.ShowsEachOnce entry.1 v)
        (Content.sortedSources r) shown := by
  rcases generate_ofContent_iff.mp hGenerate with
    ⟨content, hContent, rfl⟩
  rcases Content.privateV2_eq_ok_iff.mp hContent with
    ⟨hParts, code, -, rfl⟩
  have hAnchor := (Content.showsPrivate_v2 r code now).anchor
  refine ⟨(Content.sortedSources r).map fun entry =>
    Content.sourceJson Content.allCerts entry.1, ?_, ?_⟩
  · have hKey := Pointer.resolve?_key
      [.key "configurationAnchor"] "sources"
      (Document.new .privateParameters .v2 now
        (Table.ofList (Content.privatePartsV2 r code))).toJson
    rw [Pointer.resolve?_single, Pointer.step?,
      ← Rules.get?_part, hAnchor, Content.anchorJson,
      Json.get?_ofMembers (by simp)] at hKey
    exact hKey
  · rw [List.forall₂_map_right_iff]
    refine List.forall₂_same.mpr fun entry hEntry => ?_
    apply Content.showsEachOnce_sourceJson
    have hSource := Content.mem_sortedSources.mp hEntry
    exact hParts.certificates _ (List.mem_of_getElem? hSource)

end Generator

------------------------------------------------------------
-- One Text for Each
------------------------------------------------------------

namespace CertificateBytes

/-
  Each certificate has one text, up to the blanks around it.
  The text of any bytes is read as these bytes, and nothing
  but that text among blanks is. So texts are told apart just
  as certificates are: sorted without repetitions, they are
  the texts of the same certificates, each of them once, and
  private parameters of the second version show every source
  in this way.
-/
theorem one_text_each :
    (∀ c : CertificateBytes, ofBase64 c.toBase64 = .ok c) ∧
    (∀ text c, ofBase64 text = .ok c →
      c.toBase64 = String.ofList (Text.trim text.toList)) ∧
    (∀ text c, ofBase64 text = .ok c ↔
      Text.Surrounds text.toList c.toBase64.toList) ∧
    (∀ a b : CertificateBytes,
      compare a.toBase64 b.toBase64 = .eq ↔ a = b) ∧
    (∀ certs : List CertificateBytes,
      ∃ kept : List CertificateBytes,
        Content.sortTexts (certs.map toBase64) =
          kept.map toBase64 ∧
        IsSetOf toBase64 certs kept ∧ kept.Nodup) ∧
    ∀ r now d,
      Generator.v2.generate .privateParameters now r = .ok d →
      ∃ shown,
        Pointer.resolve?
            [.key "configurationAnchor", .key "sources"]
            d.toJson = some (.array shown) ∧
        List.Forall₂
          (fun entry v => Content.ShowsEachOnce entry.1 v)
          (Content.sortedSources r) shown := by
  refine ⟨ofBase64_toBase64, ?_, ?_, ?_, ?_, ?_⟩
  · intro text c hRead
    rw [ofBase64_eq_ok_iff.mp hRead, String.ofList_toList]
  · intro text c
    rw [ofBase64_eq_ok_iff]
    constructor
    · intro hTrim
      rw [← hTrim]
      exact Text.surrounds_trim text.toList
    · intro hAround
      exact Text.trim_of_surrounds hAround
        (Base64.encodeText_notBlank c.bytes)
  · intro a b
    rw [(comparesBy_text toBase64 a b).eq_eq,
      toBase64_injective.eq_iff]
  · intro certs
    rcases exists_of_sortTexts certs with
      ⟨kept, hTexts, hSet⟩
    exact ⟨kept, hTexts, hSet, hSet.nodup⟩
  · intro r now d hGenerate
    exact Generator.exists_shown_sources hGenerate

end CertificateBytes

/- A registry with a source that has a certificate twice. -/
def Registry.repeating : Registry :=
  { Registry.small .small with
    configurationSources :=
      [⟨"http://c", [.small, ⟨[0, 1, 2]⟩, .small]⟩] }

/- A text among blanks, and the registry that repeats. -/
theorem CertificateBytes.one_text_each_repeating :
    ofBase64 "\u3000 AAEC\n" = .ok ⟨[0, 1, 2]⟩ ∧
    (⟨[0, 1, 2]⟩ : CertificateBytes).toBase64 =
      String.ofList (Text.trim "\u3000 AAEC\n".toList) ∧
    ∃ d shown,
      Generator.v2.generate .privateParameters
        ⟨1735689600, 0⟩ Registry.repeating = .ok d ∧
      Pointer.resolve?
          [.key "configurationAnchor", .key "sources"]
          d.toJson = some (.array shown) ∧
      List.Forall₂
        (fun entry v => Content.ShowsEachOnce entry.1 v)
        (Content.sortedSources Registry.repeating) shown := by
  have hRead : ofBase64 "\u3000 AAEC\n" = .ok ⟨[0, 1, 2]⟩ :=
    ofBase64_eq_ok_iff.mpr (by decide +kernel)
  have hServer : Content.IsOperatorServer
      Registry.repeating (.small .small) :=
    ⟨List.mem_singleton.mpr rfl, rfl, by decide⟩
  have hParts : Content.HasPrivateParts Registry.repeating :=
    ⟨List.cons_ne_nil _ _, by decide,
      List.forall_mem_singleton.mpr (List.cons_ne_nil _ _)⟩
  have hContent := Content.exists_privateV2_iff.mpr
    ⟨hParts, ⟨_, hServer⟩, nofun⟩
  have hGenerated : ∃ d, Generator.v2.generate
      .privateParameters ⟨1735689600, 0⟩
      Registry.repeating = .ok d :=
    Generator.exists_generate_ofContent_iff.mpr hContent
  rcases hGenerated with ⟨d, hGenerate⟩
  rcases one_text_each.2.2.2.2.2 _ _ d hGenerate with
    ⟨shown, hShown, hOnce⟩
  exact ⟨hRead, one_text_each.2.1 _ _ hRead, d, shown,
    hGenerate, hShown, hOnce⟩

end Federation
