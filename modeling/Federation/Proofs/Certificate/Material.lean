import Federation.Certificate.Bytes
import Federation.Proofs.Bytes.Base64
import Federation.Proofs.Schema.Pattern
import Federation.Proofs.Text

/-
  The two texts of certificate material in documents: base64
  is read back as the bytes it was written from, and both it
  and the hash have the form that schemas demand.

  Main declarations:
    * `Base64.encode_split`
    * `CertificateBytes.ofBase64_toBase64`
    * `Schema.certificatePattern_accepts_toBase64`
    * `Schema.hashPattern_accepts_fingerprint`
-/

namespace Federation

------------------------------------------------------------
-- Symbols
------------------------------------------------------------

namespace Base64

/-
  Base64 is symbols and then padding. There are two symbols
  at least, unless nothing is written.
-/
theorem encode_split (bytes : Bytes) :
    ∃ (values : List Nat) (pads : Nat),
      encode bytes =
        values.map symbol ++ List.replicate pads pad ∧
      (∀ v ∈ values, v < 64) ∧ pads ≤ 2 ∧
      (bytes ≠ [] → 2 ≤ values.length) := by
  induction bytes using encode.induct with
  | case1 => exact ⟨[], 0, rfl, by simp, by simp, by simp⟩
  | case2 a =>
      have ha := a.toNat_lt
      refine ⟨[a.toNat * 16 / 64, a.toNat * 16 % 64], 2,
        rfl, ?_, by simp, by simp⟩
      simp only [List.mem_cons, List.not_mem_nil, or_false,
        forall_eq_or_imp, forall_eq]
      omega
  | case3 a b =>
      have ha := a.toNat_lt
      have hb := b.toNat_lt
      refine ⟨[(a.toNat * 256 + b.toNat) * 4 / 4096,
        (a.toNat * 256 + b.toNat) * 4 / 64 % 64,
        (a.toNat * 256 + b.toNat) * 4 % 64], 1,
        rfl, ?_, by simp, by simp⟩
      simp only [List.mem_cons, List.not_mem_nil, or_false,
        forall_eq_or_imp, forall_eq]
      omega
  | case4 a b c rest ih =>
      have ha := a.toNat_lt
      have hb := b.toNat_lt
      have hc := c.toNat_lt
      rcases ih with ⟨values, pads, hEncode, hValues, hPads, -⟩
      refine ⟨((a.toNat * 256 + b.toNat) * 256 + c.toNat) /
          262144 ::
        ((a.toNat * 256 + b.toNat) * 256 + c.toNat) / 4096 %
          64 ::
        ((a.toNat * 256 + b.toNat) * 256 + c.toNat) / 64 %
          64 ::
        ((a.toNat * 256 + b.toNat) * 256 + c.toNat) % 64 ::
        values, pads, by simp [encode, hEncode], ?_, hPads,
        by simp⟩
      intro v hMem
      simp only [List.mem_cons] at hMem
      rcases hMem with rfl | rfl | rfl | rfl | hLater
      · omega
      · omega
      · omega
      · omega
      · exact hValues v hLater

/- What is true of every symbol and of padding. -/
theorem forall_mem_encode
    {P : UInt8 → Prop}
    (hSymbol : ∀ v : Fin 64, P (symbol v))
    (hPad : P pad)
    (bytes : Bytes) :
    ∀ b ∈ encode bytes, P b := by
  rcases encode_split bytes with
    ⟨values, pads, hEncode, hValues, -, -⟩
  intro b hMem
  rw [hEncode, List.mem_append] at hMem
  rcases hMem with hValue | hPadding
  · rcases List.mem_map.mp hValue with ⟨v, hv, rfl⟩
    exact hSymbol ⟨v, hValues v hv⟩
  · rw [(List.mem_replicate.mp hPadding).2]
    exact hPad

/- The character of a byte of ASCII. -/
def charOf (b : UInt8) : Char :=
  Char.ofNat b.toNat

theorem encodeText_toList (bytes : Bytes) :
    (encodeText bytes).toList = (encode bytes).map charOf := by
  simp [encodeText, charOf]

theorem toBytes_encodeText (bytes : Bytes) :
    Text.toBytes (encodeText bytes) = encode bytes := by
  have hAscii : ∀ b ∈ encode bytes,
      (charOf b).toNat < 128 ∧
        UInt8.ofNat (charOf b).toNat = b :=
    forall_mem_encode (by decide) (by decide) bytes
  have hText :
      encodeText bytes =
        String.ofList ((encode bytes).map charOf) := rfl
  rw [hText, Text.toBytes_ofList]
  · rw [List.map_map]
    calc (encode bytes).map
          ((fun c => UInt8.ofNat c.toNat) ∘ charOf)
        = (encode bytes).map id :=
          List.map_congr_left fun b hb => (hAscii b hb).2
      _ = encode bytes := List.map_id _
  · intro c hMem
    rcases List.mem_map.mp hMem with ⟨b, hb, rfl⟩
    exact (hAscii b hb).1

theorem encodeText_notBlank (bytes : Bytes) :
    ∀ c ∈ (encodeText bytes).toList,
      Text.isBlank c = false := by
  have hNone : ∀ b ∈ encode bytes,
      Text.isBlank (charOf b) = false :=
    forall_mem_encode (by decide) (by decide) bytes
  intro c hMem
  rw [encodeText_toList] at hMem
  rcases List.mem_map.mp hMem with ⟨b, hb, rfl⟩
  exact hNone b hb

end Base64

------------------------------------------------------------
-- Material
------------------------------------------------------------

namespace CertificateBytes

@[simp] theorem ofBase64_toBase64 (c : CertificateBytes) :
    ofBase64 c.toBase64 = .ok c := by
  have hTrim : Text.trim c.toBase64.toList =
      c.toBase64.toList :=
    Text.trim_eq_self (Base64.encodeText_notBlank c.bytes)
  unfold ofBase64
  rw [hTrim, String.ofList_toList]
  simp only [toBase64, Base64.toBytes_encodeText,
    Base64.decode_encode]

theorem toBase64_length
    {c : CertificateBytes}
    (hBytes : c.bytes ≠ []) :
    4 ≤ c.toBase64.length := by
  rcases Base64.encode_split c.bytes with
    ⟨values, pads, hEncode, -, -, hSome⟩
  have hMod := Base64.encode_length_mod c.bytes
  have hLength :
      c.toBase64.length = (Base64.encode c.bytes).length := by
    rw [← String.length_toList, toBase64,
      Base64.encodeText_toList, List.length_map]
  have hLeast := hSome hBytes
  rw [hLength]
  rw [hEncode, List.length_append, List.length_map] at *
  omega

end CertificateBytes

------------------------------------------------------------
-- Forms
------------------------------------------------------------

namespace Schema

theorem certificatePattern_accepts_toBase64
    {c : CertificateBytes}
    (hBytes : c.bytes ≠ []) :
    certificatePattern.accepts c.toBase64.toList = true := by
  rcases Base64.encode_split c.bytes with
    ⟨values, pads, hEncode, hValues, hPads, hSome⟩
  have hSymbols : ∀ v : Fin 64,
      (CharClass.oneOf
        [ ('A', 'Z'), ('a', 'z'), ('0', '9'),
          ('+', '+'), ('/', '/') ]).holds
        (Base64.charOf (Base64.symbol v)) = true := by
    decide
  rw [Pattern.accepts_iff_matches,
    CertificateBytes.toBase64, Base64.encodeText_toList,
    hEncode, List.map_append, List.map_map,
    List.map_replicate]
  refine ⟨_, _, rfl, ⟨?_, ?_, by simp [Piece.some]⟩,
    (Pattern.matches_singleton_iff _ _).mpr
      ⟨?_, Nat.zero_le _, ?_⟩⟩
  · intro d hMem
    rcases List.mem_map.mp hMem with ⟨v, hv, rfl⟩
    exact hSymbols ⟨v, hValues v hv⟩
  · have hLeast := hSome hBytes
    rw [List.length_map]
    exact Nat.le_of_succ_le hLeast
  · intro d hMem
    rw [(List.mem_replicate.mp hMem).2]
    decide
  · simpa using hPads

end Schema

------------------------------------------------------------
-- Hashes
------------------------------------------------------------

theorem Hex.length_encodeWith
    (digits : List Char)
    (bytes : Bytes) :
    (Hex.encodeWith digits bytes).length =
      2 * bytes.length := by
  induction bytes with
  | nil => rfl
  | cons b rest ih =>
      simp only [Hex.encodeWith, List.length_cons, ih]
      omega

theorem Sha256.length_digest (message : Bytes) :
    (Sha256.digest message).length = 32 := by
  simp [Sha256.digest, Sha256.State.toBytes, Sha256.bytesOf]

namespace Schema

/- The hash of any bytes has the form of a hash. -/
theorem hashPattern_accepts_hexDigest (message : Bytes) :
    hashPattern.accepts (Sha256.hexDigest message).toList =
      true := by
  have hDigits : ∀ n : Fin 16,
      (CharClass.oneOf [('0', '9'), ('a', 'f')]).holds
        (Hex.digit Hex.lowerDigits n) = true := by
    decide
  have hAll : ∀ bytes : Bytes,
      ∀ c ∈ Hex.encodeWith Hex.lowerDigits bytes,
        (CharClass.oneOf [('0', '9'), ('a', 'f')]).holds c =
          true := by
    intro bytes
    induction bytes with
    | nil => simp [Hex.encodeWith]
    | cons b rest ih =>
        have hb := b.toNat_lt
        intro c hMem
        simp only [Hex.encodeWith, List.mem_cons] at hMem
        rcases hMem with rfl | rfl | hLater
        · exact hDigits ⟨b.toNat / 16, by omega⟩
        · exact hDigits ⟨b.toNat % 16, by omega⟩
        · exact ih c hLater
  have hLength := Hex.length_encodeWith Hex.lowerDigits
    (Sha256.digest message)
  rw [Sha256.length_digest] at hLength
  rw [Pattern.accepts_iff_matches, Sha256.hexDigest,
    Hex.encode, String.toList_ofList]
  refine (Pattern.matches_singleton_iff _ _).mpr
    ⟨hAll _, ?_, ?_⟩
  · simp [Piece.times, hLength]
  · simp [Piece.times, hLength]

end Schema

end Federation
