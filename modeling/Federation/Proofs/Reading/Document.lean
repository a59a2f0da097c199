import Federation.Proofs.Document

/-
  What is read is as documents are held: an instant is within
  the years of the calendar, and the content of a document is
  normal, in order and without the keys of the envelope.

  Main declarations:
    * `Instant.isRepresentable_of_parse`
    * `Document.isWellFormed_of_read`
-/

namespace Federation

/- A result has a result before it that it is made of. -/
theorem Reading.exists_of_bind_eq_ok
    {ε α β : Type}
    {x : Except ε α}
    {f : α → Except ε β}
    {b : β}
    (hBind : x >>= f = .ok b) :
    ∃ a, x = .ok a ∧ f a = .ok b := by
  cases x with
  | error e => cases hBind
  | ok a => exact ⟨a, rfl, hBind⟩

open Reading

namespace Instant

open Json.Number (isDigit)

------------------------------------------------------------
-- Numbers
------------------------------------------------------------

/- A number that is read has the digits that are passed over. -/
theorem number_bounds
    {count n : Nat}
    {cs rest : List Char}
    (hNumber : number (some count) cs = .ok (n, rest)) :
    ∃ passed, passed ≤ count ∧ passed ≤ cs.length ∧
      n < 10 ^ passed ∧ rest = cs.drop passed := by
  have hDigits : ∀ c ∈ (cs.takeWhile isDigit).take count,
      isDigit c = true := fun c hMem =>
    List.mem_takeWhile_imp (List.mem_of_mem_take hMem)
  unfold number at hNumber
  dsimp only at hNumber
  split at hNumber
  · cases hNumber
  · cases hNumber
  · split at hNumber
    · cases hNumber
      refine ⟨_, List.length_take_le count _, ?_,
        ofDigits_lt hDigits, rfl⟩
      exact Nat.le_trans (List.length_take_le' count _)
        (List.takeWhile_sublist _).length_le
    · cases hNumber

theorem fraction_lt
    {n : Nat}
    {cs rest : List Char}
    (hFraction : fraction cs = .ok (n, rest)) :
    n < 1000000000 := by
  unfold fraction at hFraction
  split at hFraction
  · rename_i tail
    rcases exists_of_bind_eq_ok hFraction with
      ⟨⟨m, after⟩, hNumber, hRest⟩
    rcases number_bounds hNumber with
      ⟨passed, hMost, hLength, hLess, rfl⟩
    cases hRest
    have hCount :
        tail.length - (tail.drop passed).length = passed := by
      rw [List.length_drop]
      omega
    rw [hCount]
    calc m * 10 ^ (9 - passed)
        < 10 ^ passed * 10 ^ (9 - passed) :=
          Nat.mul_lt_mul_of_pos_right hLess
            (Nat.pow_pos (by decide))
      _ = 10 ^ 9 := by
          rw [← Nat.pow_add, Nat.add_sub_of_le hMost]
  · cases hFraction
    decide

------------------------------------------------------------
-- Offsets
------------------------------------------------------------

/- Offsets are written in hours and minutes. -/
theorem signedOffset_mod
    {sign seconds : Int}
    {cs rest : List Char}
    (hOffset : signedOffset sign cs = .ok (seconds, rest)) :
    seconds % 60 = 0 := by
  rcases exists_of_bind_eq_ok hOffset with
    ⟨⟨hours, cs⟩, _, hRest⟩
  rcases exists_of_bind_eq_ok hRest with
    ⟨⟨minutes, cs⟩, _, hRest⟩
  cases hRest
  have hWhole : hours * 3600 + minutes * 60 =
      (hours * 60 + minutes) * 60 := by
    omega
  rw [hWhole, Int.natCast_mul, ← Int.mul_assoc]
  exact Int.mul_emod_left _ _

theorem offset_mod
    {seconds : Int}
    {cs rest : List Char}
    (hOffset : offset cs = .ok (seconds, rest)) :
    seconds % 60 = 0 := by
  unfold offset at hOffset
  split at hOffset
  · cases hOffset
    rfl
  · split at hOffset
    · cases hOffset
    · split at hOffset
      · cases hOffset
        rfl
      · split at hOffset
        · exact signedOffset_mod hOffset
        · split at hOffset
          · exact signedOffset_mod hOffset
          · cases hOffset

------------------------------------------------------------
-- Instants
------------------------------------------------------------

/- Parts with a fraction of a second and an offset of minutes. -/
structure Parts.IsRegular (p : Parts) : Prop where
  nanos : p.nanos < 1000000000
  offset : p.offset % 60 = 0

theorem isRegular_of_parts
    {p : Parts}
    {cs rest : List Char}
    (hParts : parts cs = .ok (p, rest)) :
    p.IsRegular := by
  rcases exists_of_bind_eq_ok hParts with ⟨_, _, hRest⟩
  rcases exists_of_bind_eq_ok hRest with ⟨_, _, hRest⟩
  rcases exists_of_bind_eq_ok hRest with ⟨_, _, hRest⟩
  rcases exists_of_bind_eq_ok hRest with ⟨_, _, hRest⟩
  rcases exists_of_bind_eq_ok hRest with ⟨_, _, hRest⟩
  rcases exists_of_bind_eq_ok hRest with ⟨_, _, hRest⟩
  rcases exists_of_bind_eq_ok hRest with ⟨_, _, hRest⟩
  rcases exists_of_bind_eq_ok hRest with
    ⟨⟨nanos, _⟩, hFraction, hRest⟩
  rcases exists_of_bind_eq_ok hRest with
    ⟨⟨seconds, _⟩, hOffset, hRest⟩
  cases hRest
  exact ⟨fraction_lt hFraction, offset_mod hOffset⟩

theorem isRepresentable_of_ofParts
    {p : Parts}
    {t : Instant}
    (hRegular : p.IsRegular)
    (hInstant : ofParts p = .ok t) :
    t.IsRepresentable := by
  unfold ofParts at hInstant
  dsimp only at hInstant
  split at hInstant
  · split at hInstant
    · split at hInstant
      · rename_i hRange
        cases hInstant
        refine ⟨hRange.1, hRange.2, ?_, ?_⟩
        · have hNanos := hRegular.nanos
          dsimp only
          split
          · omega
          · omega
        · have hNanos := hRegular.nanos
          have hOffset := hRegular.offset
          dsimp only
          split
          · rename_i hSecond
            rw [hSecond]
            intro _
            omega
          · intro hLeap
            omega
      · cases hInstant
    · cases hInstant
  · cases hInstant

/- An instant that is read can be written and read again. -/
theorem isRepresentable_of_parse
    {text : String}
    {t : Instant}
    (hParse : parse text = .ok t) :
    t.IsRepresentable := by
  rcases exists_of_bind_eq_ok hParse with
    ⟨⟨p, rest⟩, hParts, hRest⟩
  have hRegular := isRegular_of_parts hParts
  dsimp only at hRest
  split at hRest
  · exact isRepresentable_of_ofParts hRegular hRest
  · cases hRest

end Instant

namespace Document

variable {kind : DocumentKind}

------------------------------------------------------------
-- Documents
------------------------------------------------------------

/- An instant that is read stands there as a text. -/
theorem exists_text_of_readInstant
    {v : Json}
    {t : Instant}
    (hRead : readInstant v = .ok t) :
    ∃ text, v = .string text ∧ Instant.parse text = .ok t := by
  cases v with
  | string text =>
      refine ⟨text, rfl, ?_⟩
      rcases exists_of_bind_eq_ok hRead with
        ⟨same, hText, hRest⟩
      cases hText
      cases hParse : Instant.parse text with
      | error fault =>
          rw [hParse] at hRest
          cases hRest
      | ok parsed =>
          rw [hParse] at hRest
          cases hRest
          rfl
  | _ =>
      rcases exists_of_bind_eq_ok hRead with ⟨_, hText, _⟩
      cases hText

theorem isRepresentable_of_readInstant
    {v : Json}
    {t : Instant}
    (hRead : readInstant v = .ok t) :
    t.IsRepresentable := by
  rcases exists_text_of_readInstant hRead with ⟨_, -, hParse⟩
  exact Instant.isRepresentable_of_parse hParse

/- What a field is read of is a value under its name. -/
theorem exists_of_field_eq_ok
    {σ α : Type}
    {name : String}
    {reader : Reader σ α}
    {entries : List (String × σ)}
    {a : α}
    (hRead : (Record.field name reader none).ofEntries entries =
      .ok a) :
    ∃ v, entries.lookup name = some v ∧ reader v = .ok a := by
  rw [Record.field] at hRead
  dsimp only at hRead
  cases hValue : entries.lookup name with
  | none =>
      rw [hValue] at hRead
      cases hRead
  | some v =>
      rw [hValue] at hRead
      exact ⟨v, rfl, hRead⟩

/-
  A document that is read has the version and the instant that
  are read from its object, and the rest of it as its content.
-/
theorem exists_fields_of_read
    {entries : Json.Members}
    {d : Document kind}
    (hRead : Document.read kind (.object entries) = .ok d) :
    ∃ v w, entries.lookup "version" = some v ∧
      Version.read v = .ok d.version ∧
      entries.lookup "generatedAt" = some w ∧
      readInstant w = .ok d.generatedAt ∧
      d.content = Table.ofList
        (entries.filter fun m => m.1 ∉ envelopeKeys) := by
  rw [read_object] at hRead
  cases hEnvelope :
      (envelope kind).readEntries false entries with
  | error fault =>
      rw [hEnvelope] at hRead
      cases hRead
  | ok finish =>
      rw [hEnvelope] at hRead
      rcases exists_of_bind_eq_ok hEnvelope with
        ⟨_, _, hEntries⟩
      rcases exists_of_bind_eq_ok hEntries with
        ⟨make, hFirst, hRest⟩
      rcases exists_of_bind_eq_ok hRest with
        ⟨t, hTime, hFinish⟩
      rcases exists_of_bind_eq_ok hFirst with
        ⟨_, hMake, hRest⟩
      rcases exists_of_bind_eq_ok hRest with
        ⟨version, hVersion, hApplied⟩
      cases hMake
      cases hApplied
      cases hFinish
      cases hRead
      rcases exists_of_field_eq_ok hVersion with
        ⟨v, hLookup, hReadVersion⟩
      rcases exists_of_field_eq_ok hTime with
        ⟨w, hInstant, hReadInstant⟩
      exact ⟨v, w, hLookup, hReadVersion, hInstant,
        hReadInstant, rfl⟩

/- What is read is an object, and its content what is left. -/
theorem exists_of_read
    {value : Json}
    {d : Document kind}
    (hRead : Document.read kind value = .ok d) :
    ∃ entries version t, value = .object entries ∧
      t.IsRepresentable ∧
      d = ⟨version, t, Table.ofList
        (entries.filter fun m => m.1 ∉ envelopeKeys)⟩ := by
  cases value with
  | object entries =>
      rcases exists_fields_of_read hRead with
        ⟨_, _, -, -, -, hInstant, hContent⟩
      refine ⟨entries, d.version, d.generatedAt, rfl,
        isRepresentable_of_readInstant hInstant, ?_⟩
      rw [← hContent]
  | _ => cases hRead

/- A document that is read from a normal value. -/
theorem isWellFormed_of_read
    {value : Json}
    {d : Document kind}
    (hNormal : value.IsNormal)
    (hRead : Document.read kind value = .ok d) :
    d.IsWellFormed := by
  rcases exists_of_read hRead with
    ⟨entries, version, t, rfl, hTime, rfl⟩
  cases hNormal with
  | object hOrdered hMembers =>
      refine ⟨hTime, Table.ofList_isOrdered _, ?_, ?_⟩
      · intro m hMem
        have hKept := Table.mem_of_mem_ofList hMem
        exact hMembers m (List.mem_filter.mp hKept).1
      · intro m hMem
        have hKept := Table.mem_of_mem_ofList hMem
        simpa using (List.mem_filter.mp hKept).2

end Document

end Federation
