import Federation.Proofs.Json.Compact
import Federation.Proofs.Registry.Printing
import Federation.Proofs.Registry.ReadBack

/-
  The two forms of a client's identifier. Its text and its
  JSON object have the same parts, and whichever of them is
  read, an identifier comes of it just if each part is one
  that identifiers may have. A part has no slash, so that a
  text has no more than one way to be cut into parts.

  Main declarations:
    * `Text.splitAt_eq_splitOn`
    * `ClientParts`
    * `ClientId.parse_eq_ok_iff`
    * `ClientId.read_parts_eq_ok_iff`
    * `ClientId.forms_correspond`
-/

namespace Federation

open Reading

------------------------------------------------------------
-- Parts of a Text
------------------------------------------------------------

theorem Text.splitAt_eq_splitOn
    (separator : Char)
    (cs : List Char) :
    splitAt separator cs = cs.splitOn separator := by
  induction cs with
  | nil => rfl
  | cons c rest ih =>
      rw [splitAt, List.splitOn_cons_eq_if_modifyHead, ih]
      by_cases hSeparator : c = separator
      · simp [hSeparator]
      · cases hParts : rest.splitOn separator with
        | nil => exact absurd hParts (List.splitOn_ne_nil _ _)
        | cons part parts => simp [hSeparator]

------------------------------------------------------------
-- Parts of an Identifier
------------------------------------------------------------

/- What stands in the places of an identifier's parts. -/
structure ClientParts where
  memberClass : String
  memberCode : String
  subsystemCode : Option String
deriving DecidableEq

namespace ClientParts

/- The parts in order, of which the last may be missing. -/
def list (p : ClientParts) : List String :=
  p.memberClass :: p.memberCode :: p.subsystemCode.toList

/- The parts with slashes between them. -/
def text (p : ClientParts) : String :=
  "/".intercalate p.list

/- The members of an object with the parts. -/
def members (p : ClientParts) : Json.Members :=
  [ ("memberClass", .string p.memberClass),
    ("memberCode", .string p.memberCode) ] ++
    p.subsystemCode.toList.map fun code =>
      ("subsystemCode", .string code)

/- The object with the parts. -/
def toJson (p : ClientParts) : Json :=
  .object p.members

/- No part has the character that stands between parts. -/
def HasNoSlash (p : ClientParts) : Prop :=
  ∀ part ∈ p.list, '/' ∉ part.toList

instance (p : ClientParts) : Decidable p.HasNoSlash :=
  inferInstanceAs (Decidable (∀ part ∈ p.list, _))

theorem text_toList (p : ClientParts) :
    p.text.toList =
      ['/'].intercalate (p.list.map String.toList) := by
  rw [text, String.toList_intercalate]
  rfl

/- Parts that a text is cut into make that text again. -/
theorem text_of_splitAt
    {p : ClientParts}
    {whole : String}
    (hParts : (Text.splitAt '/' whole.toList).map
      String.ofList = p.list) :
    p.text = whole := by
  apply String.toList_injective
  have hSame : (Text.splitAt '/' whole.toList).map
      (String.toList ∘ String.ofList) =
        Text.splitAt '/' whole.toList :=
    List.map_id'' (fun _ => String.toList_ofList) _
  rw [text_toList, ← hParts, List.map_map, hSame,
    Text.splitAt_eq_splitOn, List.intercalate_splitOn]

/- A text is cut into its parts if none of them has a slash. -/
theorem splitAt_text
    {p : ClientParts}
    (hNone : p.HasNoSlash) :
    (Text.splitAt '/' p.text.toList).map String.ofList =
      p.list := by
  have hSplit : p.text.toList.splitOn '/' =
      p.list.map String.toList := by
    rw [text_toList]
    exact List.splitOn_intercalate '/'
      (List.forall_mem_map.mpr hNone) (List.cons_ne_nil _ _)
  rw [Text.splitAt_eq_splitOn, hSplit, List.map_map]
  exact List.map_id'' (fun _ => String.ofList_toList) _

end ClientParts

namespace ClientId

/- The parts of a client's identifier. -/
def parts (c : ClientId) : ClientParts :=
  ⟨c.member.memberClass, c.member.memberCode,
    c.subsystemCode⟩

theorem display_eq_text (c : ClientId) :
    c.display = c.parts.text := by
  rcases c with ⟨member, _ | code, hCode⟩ <;>
    apply String.toList_injective <;>
    simp [display, MemberId.display, parts,
      ClientParts.text, ClientParts.list]

theorem toJson_eq_toJson (c : ClientId) :
    c.toJson = c.parts.toJson := by
  rcases c with ⟨member, _ | code, hCode⟩ <;> rfl

theorem hasNoSlash_parts (c : ClientId) :
    c.parts.HasNoSlash := by
  rcases c with ⟨member, _ | code, hCode⟩
  · simp [ClientParts.HasNoSlash, parts, ClientParts.list,
      member.isClass.2, member.isCode.2]
  · simp [ClientParts.HasNoSlash, parts, ClientParts.list,
      member.isClass.2, member.isCode.2, (hCode code rfl).2]

------------------------------------------------------------
-- Reading
------------------------------------------------------------

/- The client with some parts, if there is one. -/
def ofParts (p : ClientParts) : Except Refusal ClientId :=
  new p.memberClass p.memberCode p.subsystemCode

theorem ofParts_parts (c : ClientId) :
    ofParts c.parts = .ok c :=
  c.new_self

/- Whatever is made of parts has these parts. -/
theorem parts_of_ofParts
    {p : ClientParts}
    {c : ClientId}
    (hNew : ofParts p = .ok c) :
    c.parts = p := by
  rcases p with ⟨a, b, s⟩
  rcases exists_of_bind_eq_ok hNew with
    ⟨member, hMember, hClient⟩
  rcases exists_of_bind_eq_ok hMember with
    ⟨_, _, hMember⟩
  rcases exists_of_bind_eq_ok hMember with
    ⟨_, _, hMember⟩
  cases hMember
  cases s with
  | none =>
      cases hClient
      rfl
  | some code =>
      rcases exists_of_bind_eq_ok hClient with
        ⟨_, _, hClient⟩
      cases hClient
      rfl

theorem ofParts_eq_ok_iff
    {p : ClientParts}
    {c : ClientId} :
    ofParts p = .ok c ↔ c.parts = p := by
  constructor
  · exact parts_of_ofParts
  · rintro rfl
    exact ofParts_parts c

/- A text that is cut into parts is judged by them. -/
theorem parse_of_splitAt
    {whole : String}
    {p : ClientParts}
    (hParts : (Text.splitAt '/' whole.toList).map
      String.ofList = p.list) :
    parse whole = ofParts p := by
  rcases p with ⟨a, b, _ | code⟩ <;>
    (unfold parse; rw [hParts]; rfl)

theorem exists_parts_of_parse
    {whole : String}
    {c : ClientId}
    (hParse : parse whole = .ok c) :
    ∃ p : ClientParts,
      (Text.splitAt '/' whole.toList).map String.ofList =
        p.list := by
  unfold parse at hParse
  split at hParse
  · rename_i a b hParts
    exact ⟨⟨a, b, none⟩, hParts⟩
  · rename_i a b code hParts
    exact ⟨⟨a, b, some code⟩, hParts⟩
  · cases hParse

/- The only text that is read as an identifier is its own. -/
theorem parse_eq_ok_iff
    {whole : String}
    {c : ClientId} :
    parse whole = .ok c ↔ c.display = whole := by
  constructor
  · intro hParse
    rcases exists_parts_of_parse hParse with ⟨p, hParts⟩
    rw [parse_of_splitAt hParts, ofParts_eq_ok_iff] at hParse
    rw [display_eq_text, hParse]
    exact ClientParts.text_of_splitAt hParts
  · rintro rfl
    rw [display_eq_text, parse_of_splitAt
      (ClientParts.splitAt_text c.hasNoSlash_parts),
      ofParts_parts]

/- An object with parts is judged by them, whatever they are. -/
theorem read_parts (p : ClientParts) :
    read p.toJson = ofRefusal (ofParts p) := by
  have hKeys : (p.members.map Prod.fst).Nodup := by
    rcases p with ⟨a, b, _ | code⟩ <;>
      simp [ClientParts.members]
  have hRecord : record.read "RawClientId" false p.toJson =
      .ok (p.memberClass, p.memberCode, p.subsystemCode) :=
    (takes_record p.memberClass p.memberCode
      p.subsystemCode).readEntries (fun _ _ => rfl) hKeys
  rw [read, hRecord]
  rfl

theorem read_parts_eq_ok_iff
    {p : ClientParts}
    {c : ClientId} :
    read p.toJson = .ok c ↔ c.parts = p := by
  rw [read_parts, ← ofParts_eq_ok_iff]
  cases ofParts p with
  | error cause => simp [ofRefusal]
  | ok d => simp [ofRefusal]

------------------------------------------------------------
-- Printed Objects
------------------------------------------------------------

/- The members of an identifier's object stand in order. -/
theorem isNormal_toJson (c : ClientId) :
    Json.IsNormal c.toJson := by
  rw [toJson_eq_toJson]
  refine .object (Table.isOrdered_of_keys ?_) ?_
  · rcases c.parts with ⟨a, b, _ | code⟩ <;>
      simp only [ClientParts.members, Option.toList,
        List.map_cons, List.map_nil, List.cons_append,
        List.nil_append, List.append_nil] <;>
      decide
  · simp [ClientParts.members, Json.IsNormal.string]

/- An identifier's object is in its printed text. -/
theorem read?_compact_toJson (c : ClientId) :
    Json.read? c.toJson.compact = some c.toJson := by
  have hPrintable : Json.IsPrintable 1 c.toJson :=
    c.isPrintable_toJson
  rw [Json.read?_compact hPrintable (by decide),
    Json.normalize_eq_self _ c.isNormal_toJson]

------------------------------------------------------------
-- The Two Forms
------------------------------------------------------------

/- A text is accepted just if the object with its parts is. -/
theorem parse_eq_ok_iff_exists_parts
    {whole : String}
    {c : ClientId} :
    parse whole = .ok c ↔
      ∃ p : ClientParts,
        p.text = whole ∧ read p.toJson = .ok c := by
  rw [parse_eq_ok_iff, display_eq_text]
  constructor
  · intro hText
    exact ⟨c.parts, hText, read_parts_eq_ok_iff.mpr rfl⟩
  · rintro ⟨p, hText, hRead⟩
    rw [read_parts_eq_ok_iff.mp hRead]
    exact hText

/- Parts without slashes are judged alike in both forms. -/
theorem read_parts_eq_parse
    {p : ClientParts}
    (hNone : p.HasNoSlash) :
    read p.toJson = ofRefusal (parse p.text) := by
  rw [read_parts,
    parse_of_splitAt (ClientParts.splitAt_text hNone)]

theorem display_injective :
    Function.Injective display := by
  intro c d hSame
  have hParse : parse d.display = .ok c :=
    parse_eq_ok_iff.mpr hSame
  rw [parse_eq_ok_iff.mpr rfl] at hParse
  exact (Except.ok.inj hParse).symm

theorem toJson_injective :
    Function.Injective toJson := by
  intro c d hSame
  have hRead : read c.toJson = .ok c := read_toJson c
  rw [hSame, read_toJson] at hRead
  exact (Except.ok.inj hRead).symm

/-
  The text and the object of an identifier stand for it and
  for nothing else. An identifier has the text that it was
  read from and is read back from either form; a text is
  accepted just if the object with its parts is, and with the
  same outcome.
-/
theorem forms_correspond :
    (∀ {whole : String} {c : ClientId},
      parse whole = .ok c → c.display = whole) ∧
    (∀ c : ClientId,
      parse c.display = .ok c ∧
        read c.toJson = .ok c ∧
        Json.read? c.toJson.compact = some c.toJson) ∧
    (∀ {whole : String} {c : ClientId},
      parse whole = .ok c ↔
        ∃ p : ClientParts,
          p.text = whole ∧ read p.toJson = .ok c) ∧
    (∀ {p : ClientParts}, p.HasNoSlash →
      read p.toJson = ofRefusal (parse p.text)) ∧
    Function.Injective display ∧
    Function.Injective toJson := by
  refine ⟨parse_eq_ok_iff.mp, fun c => ⟨?_, ?_, ?_⟩,
    parse_eq_ok_iff_exists_parts, read_parts_eq_parse,
    display_injective, toJson_injective⟩
  · exact parse_eq_ok_iff.mpr rfl
  · exact read_toJson c
  · exact c.read?_compact_toJson

/- Parts of which the second is blank. -/
def blankCode : ClientParts :=
  ⟨"GOV", " ", none⟩

/- The text of a subsystem, and blank parts in both forms. -/
theorem forms_correspond_registry :
    (∃ c, parse "GOV/100/registry" = .ok c ∧
      c.display = "GOV/100/registry") ∧
    blankCode.HasNoSlash ∧
    read blankCode.toJson = ofRefusal (parse "GOV/ ") ∧
    parse "GOV/ " = .error (.identifier .memberCode " ") := by
  have hNone : blankCode.HasNoSlash := by
    decide +kernel
  refine ⟨?_, hNone, forms_correspond.2.2.2.1 hNone,
    by decide +kernel⟩
  have hOk : (parse "GOV/100/registry").isOk = true := by
    decide +kernel
  cases hParse : parse "GOV/100/registry" with
  | error fault =>
      rw [hParse] at hOk
      cases hOk
  | ok c => exact ⟨c, rfl, forms_correspond.1 hParse⟩

end ClientId

end Federation
