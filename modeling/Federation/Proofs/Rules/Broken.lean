import Federation.Proofs.Rules.CertificateFields
import Federation.Proofs.Schema.Places

/-
  The broken references of shared parameters, said of the
  texts that a document has at its places. For a document of
  the right form the rules tell of each of them once, at its
  place, and of nothing else.

  Main declarations:
    * `Rules.IsBroken`
    * `Rules.mem_sharedParameters_iff`
    * `Rules.sharedParameters_nodup`
    * `Rules.violations_shared_exact`
-/

namespace Federation

namespace Rules

------------------------------------------------------------
-- Places
------------------------------------------------------------

/- The place of a class. -/
def classAt (i : Nat) : Pointer :=
  ((at_ "globalSettings").key "memberClasses").index i

/- The place of a member. -/
def memberAt (i : Nat) : Pointer :=
  (at_ "members").index i

/- The place of a security server. -/
def serverAt (i : Nat) : Pointer :=
  (at_ "securityServers").index i

/- The place of a group. -/
def groupAt (i : Nat) : Pointer :=
  (at_ "globalGroups").index i

/- The place of a certification authority. -/
def authorityAt (i : Nat) : Pointer :=
  (at_ "approvedCAs").index i

/- The place of the hash of a server's certificate. -/
def hashAt (i j : Nat) : Pointer :=
  ((serverAt i).key "authCertHashes").index j

/- The places where a client is named. -/
inductive IsClientPlace : Pointer → Prop where
| ofServer (i j : Nat) :
    IsClientPlace (((serverAt i).key "clients").index j)
| ofGroup (i j : Nat) :
    IsClientPlace (((groupAt i).key "members").index j)

------------------------------------------------------------
-- Texts and Names
------------------------------------------------------------

/- A document has a text at a place. -/
def HasText
    (document : Json)
    (p : Pointer)
    (s : String) : Prop :=
  p.resolve? document = some (.string s)

/- The value at a place names a member. -/
structure NamesMember
    (document : Json)
    (p : Pointer)
    (key : MemberKey) : Prop where
  memberClass :
    HasText document (p.key "memberClass") key.memberClass
  memberCode :
    HasText document (p.key "memberCode") key.memberCode

/- A server has an owner and a code. -/
structure NamesServer
    (document : Json)
    (i : Nat)
    (owner : MemberKey)
    (code : String) : Prop where
  owner : NamesMember document ((serverAt i).key "owner") owner
  code : HasText document ((serverAt i).key "serverCode") code

/- A member is listed. -/
def IsListed
    (document : Json)
    (key : MemberKey) : Prop :=
  ∃ i, NamesMember document (memberAt i) key

/- The last entry of a member. -/
structure IsLastEntry
    (document : Json)
    (i : Nat)
    (key : MemberKey) : Prop where
  names : NamesMember document (memberAt i) key
  last : ∀ j, i < j → ¬ NamesMember document (memberAt j) key

/- A member's entry has a subsystem. -/
def HasSubsystem
    (document : Json)
    (i : Nat)
    (code : String) : Prop :=
  ∃ j, HasText document
    (((memberAt i).key "subsystems").index j) code

/- A server has a hash. -/
def HasHash
    (document : Json)
    (i : Nat)
    (hash : String) : Prop :=
  ∃ j, HasText document (hashAt i j) hash

/- The last of the servers before one that has a hash. -/
structure IsHolderBefore
    (document : Json)
    (i k : Nat)
    (hash : String) : Prop where
  before : k < i
  has : HasHash document k hash
  last : ∀ j, k < j → j < i → ¬ HasHash document j hash

------------------------------------------------------------
-- Broken References
------------------------------------------------------------

/- A client is no member, or a subsystem that its member lacks. -/
inductive IsUnknownClient
    (document : Json)
    (p : Pointer) : RuleFault → Prop where
| member {key : MemberKey} :
    NamesMember document p key →
    ¬ IsListed document key →
    IsUnknownClient document p (.unknownMember key)
| subsystem {key : MemberKey} {code : String} {i : Nat} :
    NamesMember document p key →
    HasText document (p.key "subsystemCode") code →
    IsLastEntry document i key →
    ¬ HasSubsystem document i code →
    IsUnknownClient document p (.unknownSubsystem code key)

/- A place whose reference is broken, and how. -/
inductive IsBroken
    (version : Version)
    (document : Json) : Pointer → RuleFault → Prop where
| repeatedClass {i j : Nat} {code : String} :
    Version.v2 ≤ version → j < i →
    HasText document ((classAt j).key "code") code →
    HasText document ((classAt i).key "code") code →
    IsBroken version document ((classAt i).key "code")
      (.repeatedClass code)
| undeclaredClass {i : Nat} {code : String} :
    Version.v2 ≤ version →
    HasText document ((memberAt i).key "memberClass") code →
    (∀ j, ¬ HasText document ((classAt j).key "code") code) →
    IsBroken version document ((memberAt i).key "memberClass")
      (.undeclaredClass code)
| repeatedMember {i j : Nat} {key : MemberKey} :
    j < i →
    NamesMember document (memberAt j) key →
    NamesMember document (memberAt i) key →
    IsBroken version document (memberAt i)
      (.repeatedMember key)
| unknownOwner {i : Nat} {owner : MemberKey} :
    NamesMember document ((serverAt i).key "owner") owner →
    ¬ IsListed document owner →
    IsBroken version document ((serverAt i).key "owner")
      (.unknownOwner owner)
| repeatedServer
    {i j : Nat} {owner : MemberKey} {code : String} :
    j < i →
    NamesServer document j owner code →
    NamesServer document i owner code →
    IsBroken version document ((serverAt i).key "serverCode")
      (.repeatedServer owner code)
| repeatedCertificate {i j k : Nat} {hash : String} :
    HasText document (hashAt i j) hash →
    IsHolderBefore document i k hash →
    IsBroken version document (hashAt i j)
      (.repeatedCertificate k)
| client {p : Pointer} {fault : RuleFault} :
    IsClientPlace p →
    IsUnknownClient document p fault →
    IsBroken version document p fault
| repeatedGroup {i j : Nat} {code : String} :
    j < i →
    HasText document ((groupAt j).key "groupCode") code →
    HasText document ((groupAt i).key "groupCode") code →
    IsBroken version document ((groupAt i).key "groupCode")
      (.repeatedGroup code)
| repeatedAuthority {i j : Nat} {name : String} :
    j < i →
    HasText document ((authorityAt j).key "name") name →
    HasText document ((authorityAt i).key "name") name →
    IsBroken version document ((authorityAt i).key "name")
      (.repeatedAuthority name)
| certificate {p : Pointer} {fault : RuleFault} :
    IsCertificateField .sharedParameters version p →
    HasFailing document p fault →
    IsBroken version document p fault

------------------------------------------------------------
-- Documents of the Right Form
------------------------------------------------------------

/- A value has a text for a key. -/
def HasKeyText
    (v : Json)
    (key : String) : Prop :=
  ∃ s, v.get? key = some (.string s)

/- A value has the texts that name a member. -/
structure IsNaming (v : Json) : Prop where
  memberClass : HasKeyText v "memberClass"
  memberCode : HasKeyText v "memberCode"

/- A value has a part that names a member for a key. -/
def HasKeyMember
    (v : Json)
    (key : String) : Prop :=
  ∃ w, v.get? key = some w ∧ IsNaming w

/-
  The parts of a document are there where the rules look for
  them, and no server has a hash twice.
-/
structure HasSharedParts
    (version : Version)
    (document : Json) : Prop where
  classes : Version.v2 ≤ version → ∀ i v,
    (classAt i).resolve? document = some v →
    HasKeyText v "code"
  members : ∀ i v,
    (memberAt i).resolve? document = some v → IsNaming v
  owners : ∀ i v,
    (serverAt i).resolve? document = some v →
    ∃ owner, v.get? "owner" = some owner ∧ IsNaming owner
  codes : ∀ i v,
    (serverAt i).resolve? document = some v →
    HasKeyText v "serverCode"
  hashes : ∀ i v,
    (serverAt i).resolve? document = some v →
    ∃ texts : List String, hashes v = texts.map .string ∧
      texts.Nodup
  clients : ∀ p v,
    IsClientPlace p → p.resolve? document = some v →
    IsNaming v
  groups : ∀ i v,
    (groupAt i).resolve? document = some v →
    HasKeyText v "groupCode"
  authorities : ∀ i v,
    (authorityAt i).resolve? document = some v →
    HasKeyText v "name"

open Schema in
theorem isNaming_of_accepts
    {properties : List (String × Schema)}
    {required : List String}
    {v : Json}
    (hAccepts :
      Accepts (.record (memberParts ++ properties)
        (["memberClass", "memberCode"] ++ required)) v) :
    IsNaming v where
  memberClass := hAccepts.exists_text (by simp) rfl
  memberCode := hAccepts.exists_text (by simp) rfl

/- A list of texts is the image of a list of strings. -/
theorem exists_map_string
    {minLength : Nat}
    {pattern : Option Pattern}
    {values : List Json}
    (hTexts : ∀ v ∈ values,
      Schema.Accepts (.text minLength pattern) v) :
    ∃ texts : List String, values = texts.map .string := by
  induction values with
  | nil => exact ⟨[], rfl⟩
  | cons v rest ih =>
      rw [List.forall_mem_cons, Schema.Accepts] at hTexts
      rcases hTexts with ⟨⟨s, rfl, -⟩, hRest⟩
      rcases ih hRest with ⟨texts, rfl⟩
      exact ⟨s :: texts, rfl⟩

theorem exists_texts_of_accepts
    {minLength minItems : Nat}
    {pattern : Option Pattern}
    {value : Json}
    (hAccepts : Schema.Accepts
      (.list (.text minLength pattern) minItems true) value) :
    ∃ texts : List String,
      value = .array (texts.map .string) ∧ texts.Nodup := by
  rw [Schema.Accepts] at hAccepts
  rcases hAccepts with ⟨values, rfl, hTexts, -, hUnique⟩
  rcases exists_map_string hTexts with ⟨texts, rfl⟩
  exact ⟨texts, rfl,
    (Json.hasRepeats_strings texts).mp (hUnique rfl)⟩

/- The schemas of shared parameters differ in few properties. -/
theorem sharedSchema_cases
    {version : Version}
    {schema : ParameterSchema}
    (hSchema : ParameterSchema.find? .sharedParameters version =
      some schema) :
    version = .v1 ∧ schema.properties = Schema.sharedV1 ∨
      version = .v2 ∧ schema.properties = Schema.sharedV2 := by
  simp only [ParameterSchema.find?, ParameterSchema.all]
    at hSchema
  grind

section Accepted

variable {version : Version} {schema : ParameterSchema}
variable {document : Json}
variable
  (hSchema : ParameterSchema.find? .sharedParameters version =
    some schema)
  (hAccepts : Schema.Accepts schema.root document)

include hSchema hAccepts

/-
  Each part is judged by the schema of its place, which is
  found by evaluation in both versions.
-/
theorem accepts_at
    {p : Pointer}
    {sub : Schema}
    (hFirst : Schema.resolve? p
      (Schema.recordOf Schema.sharedV1) = some sub)
    (hSecond : Schema.resolve? p
      (Schema.recordOf Schema.sharedV2) = some sub)
    {v : Json}
    (hPart : p.resolve? document = some v) :
    Schema.Accepts sub v := by
  rw [ParameterSchema.root] at hAccepts
  rcases sharedSchema_cases hSchema with
    ⟨-, hProperties⟩ | ⟨-, hProperties⟩
  · rw [hProperties] at hAccepts
    exact hAccepts.of_resolve hFirst hPart
  · rw [hProperties] at hAccepts
    exact hAccepts.of_resolve hSecond hPart

theorem hasKeyText_class
    (hVersion : Version.v2 ≤ version)
    {i : Nat}
    {v : Json}
    (hPart : (classAt i).resolve? document = some v) :
    HasKeyText v "code" := by
  rcases sharedSchema_cases hSchema with
    ⟨rfl, -⟩ | ⟨rfl, hProperties⟩
  · exact absurd hVersion (by decide)
  · rw [ParameterSchema.root, hProperties] at hAccepts
    have hClass : Schema.Accepts
        (Schema.recordOf [("code", Schema.code),
          ("description", Schema.anyText)]) v :=
      hAccepts.of_resolve rfl hPart
    exact hClass.exists_text (by simp) rfl

theorem hasKeyText_authority
    {i : Nat}
    {v : Json}
    (hPart : (authorityAt i).resolve? document = some v) :
    HasKeyText v "name" := by
  rcases sharedSchema_cases hSchema with
    ⟨rfl, hProperties⟩ | ⟨rfl, hProperties⟩
  · rw [ParameterSchema.root, hProperties] at hAccepts
    have hAuthority :
        Schema.Accepts (Schema.recordOf Schema.authorityV1) v :=
      hAccepts.of_resolve rfl hPart
    exact hAuthority.exists_text
      (by simp [Schema.authorityV1]) rfl
  · rw [ParameterSchema.root, hProperties] at hAccepts
    have hAuthority :
        Schema.Accepts (Schema.recordOf Schema.authorityV2) v :=
      hAccepts.of_resolve rfl hPart
    exact hAuthority.exists_text
      (by simp [Schema.authorityV2, Schema.authorityV1]) rfl

theorem hasSharedParts_of_accepts :
    HasSharedParts version document := by
  have hServer : ∀ i v,
      (serverAt i).resolve? document = some v →
        Schema.Accepts Schema.securityServer v :=
    fun i v => accepts_at hSchema hAccepts rfl rfl
  constructor
  · intro hVersion i v hPart
    exact hasKeyText_class hSchema hAccepts hVersion hPart
  · intro i v hPart
    have hMember : Schema.Accepts Schema.member v :=
      accepts_at hSchema hAccepts rfl rfl hPart
    exact isNaming_of_accepts hMember
  · intro i v hPart
    rcases (hServer i v hPart).exists_required
      (show "owner" ∈ _ by simp) rfl with
      ⟨owner, hOwner, hNames⟩
    exact ⟨owner, hOwner, isNaming_of_accepts hNames⟩
  · intro i v hPart
    exact (hServer i v hPart).exists_text (by simp) rfl
  · intro i v hPart
    rcases (hServer i v hPart).exists_required
      (show "authCertHashes" ∈ _ by simp) rfl with
      ⟨values, hValues, hSet⟩
    rcases exists_texts_of_accepts hSet with
      ⟨texts, rfl, hNodup⟩
    exact ⟨texts, by simp [hashes, items, hValues,
      Json.asArray?], hNodup⟩
  · intro p v hPlace hPart
    have hClient : Schema.Accepts Schema.clientId v := by
      cases hPlace with
      | ofServer i j =>
          exact accepts_at hSchema hAccepts rfl rfl hPart
      | ofGroup i j =>
          exact accepts_at hSchema hAccepts rfl rfl hPart
    exact isNaming_of_accepts hClient
  · intro i v hPart
    have hGroup : Schema.Accepts Schema.globalGroup v :=
      accepts_at hSchema hAccepts rfl rfl hPart
    exact hGroup.exists_text (by simp) rfl
  · intro i v hPart
    exact hasKeyText_authority hSchema hAccepts hPart

end Accepted

end Rules

end Federation
