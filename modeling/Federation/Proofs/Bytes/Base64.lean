import Federation.Bytes.Base64

/-
  Reading base64 undoes writing it: the bytes that any byte
  string is written as are read as that byte string.

  Main declarations:
    * `Base64.value?_symbol`
    * `Base64.decodeGroups_encode`
    * `Base64.decode_encode`
-/

namespace Federation

namespace Base64

------------------------------------------------------------
-- Symbols
------------------------------------------------------------

theorem value?_symbol
    {value : Nat}
    (hValue : value < 64) :
    value? (symbol value) = some value := by
  have hAll : ∀ v : Fin 64, value? (symbol v) = some v.val := by
    decide
  exact hAll ⟨value, hValue⟩

theorem symbol_ne_pad (value : Nat) : symbol value ≠ pad := by
  by_cases hValue : value < 64
  · have hAll : ∀ v : Fin 64, symbol v ≠ pad := by decide
    exact hAll ⟨value, hValue⟩
  · have hLast : symbol value = 0x2F := by
      unfold symbol
      rw [if_neg (by omega), if_neg (by omega),
        if_neg (by omega), if_neg (by omega)]
    rw [hLast]
    decide

@[simp] theorem valueAt_symbol
    (offset : Nat)
    {value : Nat}
    (hValue : value < 64) :
    valueAt offset (symbol value) = .ok value := by
  simp [valueAt, value?_symbol hValue]

------------------------------------------------------------
-- Groups
------------------------------------------------------------

/- Four values that carry a number make its three bytes. -/
theorem group_eq
    {a b c : UInt8}
    {n : Nat}
    (hNumber :
      n = (a.toNat * 256 + b.toNat) * 256 + c.toNat) :
    group (n / 262144) (n / 4096 % 64) (n / 64 % 64)
      (n % 64) = [a, b, c] := by
  have ha := a.toNat_lt
  have hb := b.toNat_lt
  have hc := c.toNat_lt
  have hWhole :
      ((n / 262144 * 64 + n / 4096 % 64) * 64 +
        n / 64 % 64) * 64 + n % 64 = n := by
    omega
  simp only [group, hWhole, List.cons.injEq, and_true,
    ← UInt8.toNat_inj, UInt8.toNat_ofNat']
  omega

/- One or two bytes are written as if zeros followed them. -/
theorem group_take_one
    {a : UInt8}
    {n : Nat}
    (hNumber : n = a.toNat * 16) :
    (group (n / 64) (n % 64) 0 0).take 1 = [a] := by
  have ha := a.toNat_lt
  have hWhole :
      ((n / 64 * 64 + n % 64) * 64 + 0) * 64 + 0 =
        a.toNat * 65536 := by
    omega
  simp only [group, hWhole, List.take_succ_cons,
    List.take_zero, List.cons.injEq, and_true,
    ← UInt8.toNat_inj, UInt8.toNat_ofNat']
  omega

theorem group_take_two
    {a b : UInt8}
    {n : Nat}
    (hNumber : n = (a.toNat * 256 + b.toNat) * 4) :
    (group (n / 4096) (n / 64 % 64) (n % 64) 0).take 2 =
      [a, b] := by
  have ha := a.toNat_lt
  have hb := b.toNat_lt
  have hWhole :
      ((n / 4096 * 64 + n / 64 % 64) * 64 + n % 64) * 64 +
        0 = (a.toNat * 256 + b.toNat) * 256 := by
    omega
  simp only [group, hWhole, List.take_succ_cons,
    List.take_zero, List.cons.injEq, and_true,
    ← UInt8.toNat_inj, UInt8.toNat_ofNat']
  omega

------------------------------------------------------------
-- The Last Group
------------------------------------------------------------

theorem decodeLast_one
    (offset : Nat)
    (a : UInt8) :
    decodeLast offset (encode [a]) = .ok [a] := by
  have ha := a.toNat_lt
  have hSpare : a.toNat * 16 % 64 % 16 = 0 := by omega
  have hGroup := group_take_one (a := a) rfl
  simp [decodeLast, lastValues, encode, symbol_ne_pad,
    valueAt_symbol, show a.toNat * 16 / 64 < 64 by omega,
    show a.toNat * 16 % 64 < 64 by omega, hSpare, hGroup,
    bind, Except.bind, pure, Except.pure]

theorem decodeLast_two
    (offset : Nat)
    (a b : UInt8) :
    decodeLast offset (encode [a, b]) = .ok [a, b] := by
  have ha := a.toNat_lt
  have hb := b.toNat_lt
  have hSpare :
      (a.toNat * 256 + b.toNat) * 4 % 64 % 4 = 0 := by
    omega
  have hGroup := group_take_two (a := a) (b := b) rfl
  simp [decodeLast, lastValues, encode, symbol_ne_pad,
    valueAt_symbol,
    show (a.toNat * 256 + b.toNat) * 4 / 4096 < 64 by omega,
    show (a.toNat * 256 + b.toNat) * 4 / 64 % 64 < 64 by
      omega,
    show (a.toNat * 256 + b.toNat) * 4 % 64 < 64 by omega,
    hSpare, hGroup, bind, Except.bind, pure, Except.pure]

theorem decodeLast_three
    (offset : Nat)
    (a b c : UInt8) :
    decodeLast offset (encode [a, b, c]) =
      .ok [a, b, c] := by
  have ha := a.toNat_lt
  have hb := b.toNat_lt
  have hc := c.toNat_lt
  have hGroup := group_eq (a := a) (b := b) (c := c) rfl
  simp [decodeLast, lastValues, encode, symbol_ne_pad,
    valueAt_symbol,
    show ((a.toNat * 256 + b.toNat) * 256 + c.toNat) /
      262144 < 64 by omega,
    show ((a.toNat * 256 + b.toNat) * 256 + c.toNat) /
      4096 % 64 < 64 by omega,
    show ((a.toNat * 256 + b.toNat) * 256 + c.toNat) /
      64 % 64 < 64 by omega,
    show ((a.toNat * 256 + b.toNat) * 256 + c.toNat) % 64 <
      64 by omega,
    hGroup, bind, Except.bind, pure, Except.pure]

------------------------------------------------------------
-- Whole Texts
------------------------------------------------------------

theorem encode_length_mod (bytes : Bytes) :
    (encode bytes).length % 4 = 0 := by
  induction bytes using encode.induct with
  | case1 => rfl
  | case2 a => simp [encode]
  | case3 a b => simp [encode]
  | case4 a b c rest ih =>
      simp only [encode, List.length_cons]
      omega

theorem encode_ne_nil
    {bytes : Bytes}
    (hBytes : bytes ≠ []) :
    encode bytes ≠ [] := by
  fun_cases encode bytes <;> simp_all

/-
  Groups before the last one have a symbol after them, and
  the last group is read apart from them.
-/
theorem decodeGroups_encode
    (offset : Nat)
    (bytes : Bytes) :
    decodeGroups offset (encode bytes) = .ok bytes := by
  induction bytes using encode.induct generalizing offset with
  | case1 => rfl
  | case2 a => exact decodeLast_one offset a
  | case3 a b => exact decodeLast_two offset a b
  | case4 a b c rest ih =>
      cases hRest : rest with
      | nil => exact decodeLast_three offset a b c
      | cons d more =>
          have hTail := ih (offset + 4)
          rw [hRest] at hTail
          have hSome : encode (d :: more) ≠ [] :=
            encode_ne_nil (by simp)
          rcases List.exists_cons_of_ne_nil hSome with
            ⟨e, after, hEncode⟩
          rw [hEncode] at hTail
          have ha := a.toNat_lt
          have hb := b.toNat_lt
          have hc := c.toNat_lt
          simp only [encode, hEncode, decodeGroups]
          rw [valueAt_symbol _ (by omega),
            valueAt_symbol _ (by omega),
            valueAt_symbol _ (by omega),
            valueAt_symbol _ (by omega), hTail]
          simp [group_eq rfl, bind, Except.bind, pure,
            Except.pure]

theorem decode_encode (bytes : Bytes) :
    decode (encode bytes) = .ok bytes := by
  unfold decode
  split
  · rename_i b hLast
    have hLength := encode_length_mod bytes
    rw [if_neg (by omega)]
    exact decodeGroups_encode 0 bytes
  · rename_i hLast
    have hNil : encode bytes = [] :=
      List.getLast?_eq_none_iff.mp hLast
    by_cases hBytes : bytes = []
    · rw [hBytes]
    · exact absurd hNil (encode_ne_nil hBytes)

end Base64

end Federation
