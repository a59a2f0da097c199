import Federation.Proofs.Certificate.Material
import Federation.Proofs.Reading.WrittenBack
import Federation.Proofs.Schema.Identifiers
import Federation.Registry.Basic

/-
  A registry is read back from its JSON form. A record is
  taken from named values if each of its fields is, and each
  field of a registry is written as a value that its reader
  takes for the same; what is left out when it is written has
  the value that it has when it is not given.

  Main declarations:
    * `Reading.Record.Takes`
    * `Reading.Record.Takes.read_ofMembers`
    * `Member.read_toJson`
    * `Registry.reads_back`
-/

namespace Federation

------------------------------------------------------------
-- Records
------------------------------------------------------------

namespace Reading

namespace Record

variable {σ α β : Type}

/-
  A record takes a value from named values, and from all
  others that have the same under the names of its fields.
-/
def Takes
    (r : Record σ α)
    (members : List (String × σ))
    (a : α) : Prop :=
  ∀ entries : List (String × σ),
    (∀ f ∈ r.fields,
      entries.lookup f.name = members.lookup f.name) →
    JudgesFields r.fields entries ∧ r.ofEntries entries = .ok a

theorem takes_pure
    (a : α)
    (members : List (String × σ)) :
    (Record.pure a).Takes members a :=
  fun _ _ => ⟨List.forall_mem_nil _, rfl⟩

theorem Takes.seq
    {f : Record σ (α → β)}
    {x : Record σ α}
    {members : List (String × σ)}
    {g : α → β}
    {a : α}
    (hFirst : f.Takes members g)
    (hSecond : x.Takes members a) :
    (f.seq x).Takes members (g a) := by
  intro entries hSame
  rw [show (f.seq x).fields = f.fields ++ x.fields from rfl,
    List.forall_mem_append] at hSame
  rcases hFirst entries hSame.1 with ⟨hJudges, hTaken⟩
  rcases hSecond entries hSame.2 with ⟨hOthers, hGiven⟩
  refine ⟨List.forall_mem_append.mpr ⟨hJudges, hOthers⟩, ?_⟩
  simp only [Record.seq, hTaken, hGiven]
  rfl

/- A field that is given has the value that is read. -/
theorem takes_field
    {name : String}
    {reader : Reader σ α}
    {fallback : Option α}
    {members : List (String × σ)}
    {v : σ}
    {a : α}
    (hGiven : members.lookup name = some v)
    (hRead : reader v = .ok a) :
    (field name reader fallback).Takes members a := by
  intro entries hSame
  have hValue : entries.lookup name = some v :=
    (hSame _ (List.mem_singleton_self _)).trans hGiven
  constructor
  · intro f hField w hOther
    cases List.mem_singleton.mp hField
    cases hValue.symm.trans hOther
    simp only [hRead]
    rfl
  · simp only [field, hValue]
    exact hRead

/- A field that is not given has its fallback. -/
theorem takes_field_of_absent
    {name : String}
    {reader : Reader σ α}
    {members : List (String × σ)}
    {a : α}
    (hAbsent : members.lookup name = none) :
    (field name reader (some a)).Takes members a := by
  intro entries hSame
  have hNone : entries.lookup name = none :=
    (hSame _ (List.mem_singleton_self _)).trans hAbsent
  constructor
  · intro f hField w hOther
    cases List.mem_singleton.mp hField
    cases hNone.symm.trans hOther
  · simp only [field, hNone]

section Fields

variable {f : Record σ (α → β)} {g : α → β}
variable {name : String} {reader : Reader σ α}
variable {members : List (String × σ)} {v : σ} {a : α}

theorem Takes.required
    (hFirst : f.Takes members g)
    (hGiven : members.lookup name = some v)
    (hRead : reader v = .ok a) :
    (f.required name reader).Takes members (g a) :=
  hFirst.seq (takes_field hGiven hRead)

theorem Takes.withDefault
    {fallback : α}
    (hFirst : f.Takes members g)
    (hGiven : members.lookup name = some v)
    (hRead : reader v = .ok a) :
    (f.withDefault name reader fallback).Takes members (g a) :=
  hFirst.seq (takes_field hGiven hRead)

theorem Takes.withoutDefault
    (hFirst : f.Takes members g)
    (hAbsent : members.lookup name = none) :
    (f.withDefault name reader a).Takes members (g a) :=
  hFirst.seq (takes_field_of_absent hAbsent)

end Fields

theorem Takes.readEntries
    {r : Record σ α}
    {members entries : List (String × σ)}
    {a : α}
    (hTakes : r.Takes members a)
    (hSame : ∀ f ∈ r.fields,
      entries.lookup f.name = members.lookup f.name)
    (hKeys : (entries.map Prod.fst).Nodup) :
    r.readEntries false entries = .ok a :=
  have ⟨hJudges, hTaken⟩ := hTakes entries hSame
  readEntries_eq_ok hKeys hJudges hTaken

/- The order in which an object has its members is no matter. -/
theorem Takes.read_ofMembers
    {r : Record Json α}
    {name : String}
    {members : Json.Members}
    {a : α}
    (hTakes : r.Takes members a)
    (hKeys : (members.map Prod.fst).Nodup) :
    r.read name false (.ofMembers members) = .ok a :=
  hTakes.readEntries
    (fun _ _ => Table.lookup_ofList hKeys _)
    (Table.ofList_isOrdered members).nodup_keys

/- Values are settled as they are. -/
theorem mapM_settle (entries : Json.Members) :
    (entries.mapM fun (key, v) => do
      return (key, ← expect "a value" Source.settle? v)) =
      (.ok entries : Except Fault Json.Members) := by
  induction entries with
  | nil => rfl
  | cons entry rest ih =>
      rw [List.mapM_cons, ih]
      rfl

/- A record and another one are taken of one object. -/
theorem Takes.readShared_ofMembers
    {r : Record Json (α → β)}
    {other : Json.Members → Except Fault α}
    {name : String}
    {members : Json.Members}
    {g : α → β}
    {a : α}
    (hTakes : r.Takes members g)
    (hKeys : (members.map Prod.fst).Nodup)
    (hOther :
      other
        ((Table.ofList members).filter fun m =>
          m.1 ∉ r.fields.map Field.name) = .ok a) :
    r.readShared name other (.ofMembers members) =
      .ok (g a) := by
  have hOwn : r.readEntries false (Table.ofList members) =
      .ok g :=
    hTakes.readEntries
      (fun _ _ => Table.lookup_ofList hKeys _)
      (Table.ofList_isOrdered members).nodup_keys
  have hSettled := mapM_settle
    ((Table.ofList members).filter fun m =>
      m.1 ∉ r.fields.map Field.name)
  simp only [readShared, Json.ofMembers, Source.form?, hOwn]
  dsimp only [bind, Except.bind] at hSettled ⊢
  rw [hSettled]
  dsimp only
  rw [hOther]
  rfl

end Record

------------------------------------------------------------
-- Values
------------------------------------------------------------

variable {α : Type}

@[simp] theorem text_string (s : String) :
    text (.string s : Json) = .ok s :=
  rfl

@[simp] theorem flag_bool (b : Bool) :
    flag (.bool b : Json) = .ok b :=
  rfl

/- A list is read back if each of its items is. -/
theorem list_ofList
    {reader : Reader Json α}
    {toJson : α → Json}
    (hRead : ∀ a, reader (toJson a) = .ok a)
    (values : List α) :
    list reader (Json.ofList toJson values) = .ok values := by
  have hItems : (values.map toJson).mapM reader =
      .ok values := by
    induction values with
    | nil => rfl
    | cons a rest ih =>
        rw [List.map_cons, List.mapM_cons, hRead, ih]
        rfl
  exact hItems

/- A field that is left out just when it has no value. -/
theorem Record.Takes.withOptional
    {β : Type}
    {f : Record Json (Option α → β)}
    {g : Option α → β}
    {name : String}
    {reader : Reader Json α}
    {toJson : α → Json}
    {members : Json.Members}
    {value : Option α}
    (hFirst : f.Takes members g)
    (hGiven : members.lookup name = value.map toJson)
    (hRead : ∀ a, reader (toJson a) = .ok a)
    (hNull : ∀ a, toJson a ≠ .null) :
    (f.withDefault name (optional reader) none).Takes members
      (g value) := by
  cases value with
  | none => exact hFirst.withoutDefault hGiven
  | some a =>
      refine hFirst.withDefault hGiven ?_
      simp only [optional, Source.isAbsent?, hNull,
        decide_false, hRead]
      rfl

end Reading

open Reading

/- Base64 is read back, whatever the bytes are. -/
@[simp] theorem CertificateBytes.read_toJson
    (c : CertificateBytes) :
    read c.toJson = .ok c := by
  simp [read, toJson, bind, Except.bind, ofRefusal]

/- A number of 64 bits is read back. -/
theorem GlobalSettings.readSeconds_ofNat (n : UInt64) :
    readSeconds (.ofNat n.toNat : Json) = .ok n := by
  have hRange : (0 : Int) ≤ n.toNat ∧
      (n.toNat : Int) < Nat.pow 2 64 := by
    have hBound : n.toNat < 2 ^ 64 := n.toNat_lt
    exact ⟨Int.natCast_nonneg _, by exact_mod_cast hBound⟩
  rw [readSeconds, unsigned_eq_ok rfl hRange,
    Int.toNat_natCast]
  simp [Except.map]

------------------------------------------------------------
-- Identifiers
------------------------------------------------------------

theorem MemberId.new_self (m : MemberId) :
    new m.memberClass m.memberCode = .ok m := by
  rw [new, checkPart_eq_ok m.isClass, checkPart_eq_ok m.isCode]
  rfl

theorem ClientId.new_self (c : ClientId) :
    new c.member.memberClass c.member.memberCode
      c.subsystemCode = .ok c := by
  rcases c with ⟨member, _ | code, hCode⟩
  · rw [new, MemberId.new_self]
    rfl
  · rw [new, MemberId.new_self]
    dsimp only [bind, Except.bind]
    rw [subsystem, checkPart_eq_ok (hCode code rfl)]
    rfl

/- The parts of a member are taken, whatever stands beside them. -/
theorem MemberId.takes_record
    {m : MemberId}
    {members : Json.Members}
    (hClass : members.lookup "memberClass" =
      some (.string m.memberClass))
    (hCode : members.lookup "memberCode" =
      some (.string m.memberCode)) :
    record.Takes members (m.memberClass, m.memberCode) :=
  Record.takes_pure _ _
    |>.required hClass (text_string _)
    |>.required hCode (text_string _)

/- A member is read from its parts among other values. -/
theorem MemberId.readEntries_eq_ok
    {m : MemberId}
    {entries : Json.Members}
    (hKeys : (entries.map Prod.fst).Nodup)
    (hClass : entries.lookup "memberClass" =
      some (.string m.memberClass))
    (hCode : entries.lookup "memberCode" =
      some (.string m.memberCode)) :
    readEntries entries = .ok m := by
  rw [readEntries, (takes_record hClass hCode).readEntries
    (fun _ _ => rfl) hKeys]
  simp [bind, Except.bind, new_self, ofRefusal]

@[simp] theorem MemberId.read_toJson (m : MemberId) :
    read m.toJson = .ok m := by
  have hObject : m.toJson = .ofMembers m.members := rfl
  have hTaken : record.read "RawMemberId" false
      (Json.ofMembers m.members) =
        .ok (m.memberClass, m.memberCode) :=
    (takes_record rfl rfl).read_ofMembers (by simp [members])
  rw [read, hObject, hTaken]
  simp [bind, Except.bind, new_self, ofRefusal]

/- The parts of a client, with its subsystem if it has one. -/
def ClientId.members (c : ClientId) : Json.Members :=
  c.member.members ++
    c.subsystemCode.toList.map fun code =>
      ("subsystemCode", .string code)

theorem ClientId.toJson_eq (c : ClientId) :
    c.toJson = .ofMembers c.members := by
  rcases c with ⟨member, _ | code, hCode⟩ <;> rfl

/- The parts of a client are taken, whatever texts they are. -/
theorem ClientId.takes_record
    (memberClass memberCode : String)
    (subsystemCode : Option String) :
    record.Takes
      ([ ("memberClass", Json.string memberClass),
         ("memberCode", Json.string memberCode) ] ++
        subsystemCode.toList.map fun code =>
          ("subsystemCode", Json.string code))
      (memberClass, memberCode, subsystemCode) :=
  Record.takes_pure _ _
    |>.required rfl (text_string _)
    |>.required rfl (text_string _)
    |>.withOptional
      (by cases subsystemCode <;> rfl)
      text_string nofun

@[simp] theorem ClientId.read_toJson (c : ClientId) :
    read c.toJson = .ok c := by
  have hKeys : (c.members.map Prod.fst).Nodup := by
    rcases c with ⟨member, _ | code, hCode⟩ <;>
      simp [members, MemberId.members]
  have hTaken : record.Takes c.members
      (c.member.memberClass, c.member.memberCode,
        c.subsystemCode) :=
    takes_record _ _ _
  rw [read, toJson_eq, hTaken.read_ofMembers hKeys]
  simp [bind, Except.bind, new_self, ofRefusal]

------------------------------------------------------------
-- Members
------------------------------------------------------------

@[simp] theorem MemberClass.read_toJson (c : MemberClass) :
    read c.toJson = .ok c :=
  Record.Takes.read_ofMembers
    (Record.takes_pure _ _
      |>.required rfl (text_string _)
      |>.withDefault rfl (text_string _))
    (by simp)

/- The parts of its identifier stand beside a member's own. -/
@[simp] theorem Member.read_toJson (m : Member) :
    read m.toJson = .ok m := by
  have hKeys : ((m.id.members ++
      [ ("name", .string m.name),
        ("subsystems", Json.ofList .string m.subsystems) ]).map
          Prod.fst).Nodup := by
    simp [MemberId.members]
  refine Record.Takes.readShared_ofMembers
    (Record.takes_pure _ _
      |>.required rfl (text_string _)
      |>.withDefault rfl (list_ofList text_string _))
    hKeys ?_
  apply MemberId.readEntries_eq_ok
  · exact (Table.ofList_isOrdered _).nodup_keys.sublist
      (List.filter_sublist.map Prod.fst)
  · rw [Table.lookup_filter_of_kept (fun _ => rfl),
      Table.lookup_ofList hKeys]
    rfl
  · rw [Table.lookup_filter_of_kept (fun _ => rfl),
      Table.lookup_ofList hKeys]
    rfl

------------------------------------------------------------
-- Security Servers
------------------------------------------------------------

@[simp] theorem SecurityServer.read_toJson
    (s : SecurityServer) :
    read s.toJson = .ok s :=
  Record.Takes.read_ofMembers
    (Record.takes_pure _ _
      |>.required rfl s.owner.read_toJson
      |>.required rfl (text_string _)
      |>.required rfl (text_string _)
      |>.withDefault rfl
        (list_ofList CertificateBytes.read_toJson _)
      |>.withDefault rfl (list_ofList ClientId.read_toJson _))
    (by simp)

------------------------------------------------------------
-- Trust Services
------------------------------------------------------------

@[simp] theorem OcspResponder.read_toJson
    (r : OcspResponder) :
    read r.toJson = .ok r :=
  Record.Takes.read_ofMembers
    (Record.takes_pure _ _
      |>.required rfl (text_string _)
      |>.withOptional (by cases r.cert <;> rfl)
        CertificateBytes.read_toJson nofun)
    (by cases r.cert <;> simp)

@[simp] theorem CaInfo.read_toJson (c : CaInfo) :
    read c.toJson = .ok c :=
  Record.Takes.read_ofMembers
    (Record.takes_pure _ _
      |>.required rfl c.cert.read_toJson
      |>.withDefault rfl
        (list_ofList OcspResponder.read_toJson _))
    (by simp)

@[simp] theorem CertificationAuthority.read_toJson
    (a : CertificationAuthority) :
    read a.toJson = .ok a :=
  Record.Takes.read_ofMembers
    (Record.takes_pure _ _
      |>.required rfl (text_string _)
      |>.withDefault rfl (flag_bool _)
      |>.required rfl a.topCa.read_toJson
      |>.withDefault rfl (list_ofList CaInfo.read_toJson _)
      |>.withOptional (by cases a.certificateProfileInfo <;> rfl)
        text_string nofun)
    (by cases a.certificateProfileInfo <;> simp)

@[simp] theorem TimestampingAuthority.read_toJson
    (a : TimestampingAuthority) :
    read a.toJson = .ok a :=
  Record.Takes.read_ofMembers
    (Record.takes_pure _ _
      |>.required rfl (text_string _)
      |>.required rfl (text_string _)
      |>.required rfl a.cert.read_toJson)
    (by simp)

------------------------------------------------------------
-- Groups and Configuration
------------------------------------------------------------

@[simp] theorem GlobalGroup.read_toJson (g : GlobalGroup) :
    read g.toJson = .ok g :=
  Record.Takes.read_ofMembers
    (Record.takes_pure _ _
      |>.required rfl (text_string _)
      |>.withDefault rfl (text_string _)
      |>.withDefault rfl (list_ofList ClientId.read_toJson _))
    (by simp)

@[simp] theorem ConfigurationSource.read_toJson
    (s : ConfigurationSource) :
    read s.toJson = .ok s :=
  Record.Takes.read_ofMembers
    (Record.takes_pure _ _
      |>.required rfl (text_string _)
      |>.withDefault rfl
        (list_ofList CertificateBytes.read_toJson _))
    (by simp)

@[simp] theorem ManagementService.read_toJson
    (m : ManagementService) :
    read m.toJson = .ok m :=
  Record.Takes.read_ofMembers
    (Record.takes_pure _ _
      |>.required rfl (text_string _)
      |>.required rfl m.authCertRegServiceCert.read_toJson
      |>.required rfl m.serviceProvider.read_toJson
      |>.withOptional (by cases m.securityServer <;> rfl)
        text_string nofun)
    (by cases m.securityServer <;> simp)

@[simp] theorem GlobalSettings.read_toJson
    (s : GlobalSettings) :
    read s.toJson = .ok s :=
  Record.Takes.read_ofMembers
    (Record.takes_pure _ _
      |>.withDefault rfl (readSeconds_ofNat _)
      |>.withDefault rfl (readSeconds_ofNat _))
    (by simp)

------------------------------------------------------------
-- Registries
------------------------------------------------------------

/- Every registry is read back from its JSON form. -/
theorem Registry.reads_back (r : Registry) :
    read r.toJson = .ok r :=
  Record.Takes.read_ofMembers
    (Record.takes_pure _ _
      |>.required rfl (text_string _)
      |>.withDefault rfl (list_ofList MemberClass.read_toJson _)
      |>.withDefault rfl (list_ofList Member.read_toJson _)
      |>.withDefault rfl
        (list_ofList SecurityServer.read_toJson _)
      |>.withDefault rfl
        (list_ofList CertificationAuthority.read_toJson _)
      |>.withDefault rfl
        (list_ofList TimestampingAuthority.read_toJson _)
      |>.withDefault rfl (list_ofList GlobalGroup.read_toJson _)
      |>.withDefault rfl
        (list_ofList ConfigurationSource.read_toJson _)
      |>.required rfl r.managementService.read_toJson
      |>.withDefault rfl r.globalSettings.read_toJson)
    (by simp)

end Federation
