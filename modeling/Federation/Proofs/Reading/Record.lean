import Federation.Document
import Federation.Proofs.Table
import Federation.Proofs.Time.Reader
import Federation.Proofs.Version
import Mathlib.Data.List.Nodup

/-
  Reading back: the named values of a record pass its
  judgement if each field is named once and has a value that
  can be read, and versions, instants and texts are read from
  the values that they are written as.

  Main declarations:
    * `Reading.Record.judge_eq_ok`
    * `Reading.Record.judge_eq_of_others`
    * `Version.read_eq_ok`
    * `Document.readInstant_eq_ok`
-/

namespace Federation

namespace Reading

variable {σ α : Type}

------------------------------------------------------------
-- One by One
------------------------------------------------------------

theorem forM_eq_ok
    {ε : Type}
    {list : List α}
    {f : α → Except ε Unit}
    (hAll : ∀ a ∈ list, f a = .ok ()) :
    forM list f = .ok () := by
  induction list with
  | nil => rfl
  | cons a rest ih =>
      rw [List.forall_mem_cons] at hAll
      rw [List.forM_cons, hAll.1]
      exact ih hAll.2

/- One of several decides if none of the others fails. -/
theorem forM_eq_of_others
    {ε : Type}
    {list : List α}
    {f : α → Except ε Unit}
    {a : α}
    (hNodup : list.Nodup)
    (hMem : a ∈ list)
    (hOthers : ∀ b ∈ list, b ≠ a → f b = .ok ()) :
    forM list f = f a := by
  induction list with
  | nil => cases hMem
  | cons b rest ih =>
      rw [List.nodup_cons] at hNodup
      rw [List.forall_mem_cons] at hOthers
      rw [List.forM_cons]
      rcases List.mem_cons.mp hMem with rfl | hLater
      · have hRest : forM rest f = .ok () :=
          forM_eq_ok fun b hLater =>
            hOthers.2 b hLater fun hSame =>
              hNodup.1 (hSame ▸ hLater)
        rw [hRest]
        cases f a <;> rfl
      · have hFirst := hOthers.1 fun hSame =>
          hNodup.1 (hSame ▸ hLater)
        rw [hFirst]
        exact ih hNodup.2 hLater hOthers.2

------------------------------------------------------------
-- Records
------------------------------------------------------------

namespace Record

/- The values of a record's fields can be read. -/
def JudgesFields
    (fields : List (Field σ))
    (entries : List (String × σ)) : Prop :=
  ∀ f ∈ fields, ∀ v ∈ entries.lookup f.name,
    f.judge v = .ok ()

/- The judgement of a value by the field of its name. -/
def judgeNamed
    (fields : List (Field σ))
    (entry : String × σ) : Except Fault Unit :=
  match fields.find? (fun f => f.name = entry.1) with
  | some f => f.judge entry.2
  | none => .ok ()

theorem judgeNamed_eq_ok
    {fields : List (Field σ)}
    {entry : String × σ}
    (hField : ∀ f ∈ fields, f.name = entry.1 →
      f.judge entry.2 = .ok ()) :
    judgeNamed fields entry = .ok () := by
  unfold judgeNamed
  cases hFind :
      fields.find? (fun f => f.name = entry.1) with
  | none => rfl
  | some f =>
      exact hField f (List.mem_of_find?_eq_some hFind)
        (by simpa using List.find?_some hFind)

/-
  If no name repeats, values are judged one by one. By
  induction on the values: a name that is seen is not there
  again.
-/
theorem judge_eq_forM
    {fields : List (Field σ)}
    {entries : List (String × σ)}
    {seen : List String}
    (hKeys : (entries.map Prod.fst).Nodup)
    (hSeen : ∀ entry ∈ entries, entry.1 ∉ seen) :
    judge fields false seen entries =
      forM entries (judgeNamed fields) := by
  induction entries generalizing seen with
  | nil => rfl
  | cons entry rest ih =>
      rcases entry with ⟨name, v⟩
      rw [List.map_cons, List.nodup_cons] at hKeys
      rw [List.forall_mem_cons] at hSeen
      rw [List.forM_cons]
      unfold judge judgeNamed
      cases hFind :
          fields.find? (fun f => f.name = name) with
      | none => exact ih hKeys.2 hSeen.2
      | some f =>
          have hLater : ∀ entry ∈ rest,
              entry.1 ∉ name :: seen := by
            intro entry hEntry hMem
            rcases List.mem_cons.mp hMem with hSame | hOld
            · exact hKeys.1
                (List.mem_map.mpr ⟨entry, hEntry, hSame⟩)
            · exact hSeen.2 entry hEntry hOld
          simp only [hSeen.1, if_false, bind, Except.bind]
          rw [ih hKeys.2 hLater]
          rfl

/- Named values pass if no name repeats and each is read. -/
theorem judge_eq_ok
    {fields : List (Field σ)}
    {entries : List (String × σ)}
    {seen : List String}
    (hKeys : (entries.map Prod.fst).Nodup)
    (hSeen : ∀ entry ∈ entries, entry.1 ∉ seen)
    (hFields : JudgesFields fields entries) :
    judge fields false seen entries = .ok () := by
  rw [judge_eq_forM hKeys hSeen]
  refine forM_eq_ok fun entry hMem =>
    judgeNamed_eq_ok fun f hField hName => ?_
  exact hFields f hField entry.2
    (hName ▸ Table.lookup_of_mem hKeys hMem)

/-
  If the values of all other fields can be read, whether
  named values pass is decided by the value of one field.
-/
theorem judge_eq_of_others
    {fields : List (Field σ)}
    {entries : List (String × σ)}
    {seen : List String}
    {f : Field σ}
    {v : σ}
    (hKeys : (entries.map Prod.fst).Nodup)
    (hSeen : ∀ entry ∈ entries, entry.1 ∉ seen)
    (hField :
      fields.find? (fun g => g.name = f.name) = some f)
    (hValue : entries.lookup f.name = some v)
    (hOthers : ∀ g ∈ fields, g.name ≠ f.name →
      ∀ w ∈ entries.lookup g.name, g.judge w = .ok ()) :
    judge fields false seen entries = f.judge v := by
  have hOwn : judgeNamed fields (f.name, v) = f.judge v := by
    rw [judgeNamed, hField]
  rw [judge_eq_forM hKeys hSeen, ← hOwn]
  refine forM_eq_of_others (List.Nodup.of_map _ hKeys)
    (Table.mem_of_lookup hValue) fun entry hMem hOther =>
      judgeNamed_eq_ok fun g hGiven hName => ?_
  have hLookup := Table.lookup_of_mem hKeys hMem
  refine hOthers g hGiven ?_ entry.2 (hName ▸ hLookup)
  intro hSame
  rw [← hName, hSame, hValue] at hLookup
  cases hLookup
  exact hOther (by rw [← hSame, hName])

theorem readEntries_eq_ok
    {r : Record σ α}
    {entries : List (String × σ)}
    {a : α}
    (hKeys : (entries.map Prod.fst).Nodup)
    (hFields : JudgesFields r.fields entries)
    (hRead : r.ofEntries entries = .ok a) :
    r.readEntries false entries = .ok a := by
  rw [readEntries, judge_eq_ok hKeys (by simp) hFields]
  exact hRead

end Record

------------------------------------------------------------
-- Texts
------------------------------------------------------------

variable [Source σ]

theorem expect_eq_ok
    {wanted : String}
    {read? : σ → Option α}
    {v : σ}
    {a : α}
    (hRead : read? v = some a) :
    expect wanted read? v = .ok a := by
  rw [expect, hRead]

theorem text_eq_ok
    {v : σ}
    {s : String}
    (hText : Source.text? v = some s) :
    text v = .ok s :=
  expect_eq_ok hText

/- A number is read if it has no more than its bits. -/
theorem unsigned_eq_ok
    {bits : Nat}
    {v : σ}
    {n : Int}
    (hNumber : Source.integer? v = some n)
    (hRange : 0 ≤ n ∧ n < Nat.pow 2 bits) :
    unsigned bits v = .ok n.toNat := by
  rw [unsigned, expect_eq_ok hNumber]
  simp only [bind, Except.bind, pure, Except.pure]
  rw [if_pos hRange]

end Reading

open Reading

variable {σ : Type} [Source σ]

------------------------------------------------------------
-- Versions and Instants
------------------------------------------------------------

/- A version is read from its number. -/
theorem Version.read_eq_ok
    {v : σ}
    {version : Version}
    (hNumber : Source.integer? v = some version.number) :
    Version.read v = .ok version := by
  have hRange : (0 : Int) ≤ version.number ∧
      (version.number : Int) < Nat.pow 2 32 := by
    have hBounded := version.bounded
    rw [show Nat.pow 2 32 = 0x100000000 by decide]
    omega
  rw [Version.read, unsigned_eq_ok hNumber hRange,
    Int.toNat_natCast]
  simp [bind, Except.bind,
    Version.ofNat_eq_ok_iff.mpr rfl, ofRefusal]

/- An instant is read from its text. -/
theorem Document.readInstant_eq_ok
    {v : σ}
    {t : Instant}
    (hText : Source.text? v = some t.display)
    (hRepresentable : t.IsRepresentable) :
    Document.readInstant v = .ok t := by
  rw [Document.readInstant, expect_eq_ok hText]
  simp only [bind, Except.bind,
    Instant.parse_display hRepresentable]

end Federation
