import Federation.Proofs.Rules.Once
import Federation.Proofs.Rules.Private
import Federation.Proofs.Validation

/-
  The broken references of private parameters, said of the
  texts that a document has at its places. For a document of
  the right form the rules tell of each of them once, at its
  place, and of nothing else.

  Main declarations:
    * `Rules.IsBrokenOperator`
    * `Rules.IsBrokenPrivate`
    * `Rules.mem_privateParameters_iff`
    * `Rules.violations_private_exact`
-/

namespace Federation

namespace Rules

------------------------------------------------------------
-- Places
------------------------------------------------------------

/- The place of the management service. -/
def managementAt : Pointer :=
  at_ "managementService"

/- The place of the provider of the management service. -/
def providerAt : Pointer :=
  managementAt.key "managementRequestServiceProviderId"

/- The place of the code of the management server. -/
def managementCodeAt : Pointer :=
  managementAt.key "managementRequestServiceServerCode"

------------------------------------------------------------
-- Broken References
------------------------------------------------------------

/- A reference between the operator and its servers is broken. -/
inductive IsBrokenOperator
    (document : Json) : Pointer → RuleFault → Prop where
| foreignServer {i : Nat} {owner operator : MemberKey} :
    NamesMember document ((serverAt i).key "owner") owner →
    NamesMember document (at_ "operator") operator →
    owner ≠ operator →
    IsBrokenOperator document ((serverAt i).key "owner")
      (.foreignServer owner operator)
| repeatedServerCode {i j : Nat} {code : String} :
    j < i →
    HasText document ((serverAt j).key "serverCode") code →
    HasText document ((serverAt i).key "serverCode") code →
    IsBrokenOperator document ((serverAt i).key "serverCode")
      (.repeatedServerCode code)
| foreignProvider {provider operator : MemberKey} :
    NamesMember document providerAt provider →
    NamesMember document (at_ "operator") operator →
    provider ≠ operator →
    IsBrokenOperator document providerAt
      (.foreignProvider provider operator)
| unlistedServer {code : String} :
    HasText document managementCodeAt code →
    (∀ i, ¬ HasText document ((serverAt i).key "serverCode")
      code) →
    IsBrokenOperator document managementCodeAt
      (.unlistedServer code)

/- A place of private parameters is broken, and how. -/
inductive IsBrokenPrivate
    (version : Version)
    (document : Json) : Pointer → RuleFault → Prop where
| operator {p : Pointer} {fault : RuleFault} :
    Version.v2 ≤ version →
    IsBrokenOperator document p fault →
    IsBrokenPrivate version document p fault
| certificate {p : Pointer} {fault : RuleFault} :
    IsCertificateField .privateParameters version p →
    HasFailing document p fault →
    IsBrokenPrivate version document p fault

/- The management server is one of the operator's servers. -/
structure IsOperated
    (document : Json)
    (operator : MemberKey)
    (code : String) : Prop where
  named : NamesMember document (at_ "operator") operator
  provides : NamesMember document providerAt operator
  placed : HasText document managementCodeAt code
  listed : ∃ i,
    HasText document ((serverAt i).key "serverCode") code
  owners : ∀ i server,
    (serverAt i).resolve? document = some server →
    NamesMember document ((serverAt i).key "owner") operator

------------------------------------------------------------
-- Documents of the Right Form
------------------------------------------------------------

/- The parts that the rules of the operator look at are there. -/
structure HasOperatorParts (document : Json) : Prop where
  operator : HasKeyMember document "operator"
  owners : ∀ i server,
    (serverAt i).resolve? document = some server →
    HasKeyMember server "owner"
  codes : ∀ i server,
    (serverAt i).resolve? document = some server →
    HasKeyText server "serverCode"
  management : ∃ m, document.get? "managementService" = some m
  provider : ∀ m,
    managementAt.resolve? document = some m →
    HasKeyMember m "managementRequestServiceProviderId"
  managementCode : ∀ m,
    managementAt.resolve? document = some m →
    HasKeyText m "managementRequestServiceServerCode"

theorem properties_of_privateSchema
    {version : Version}
    {schema : ParameterSchema}
    (hSchema : ParameterSchema.find? .privateParameters
      version = some schema)
    (hVersion : Version.v2 ≤ version) :
    schema.properties = Schema.privateV2 := by
  have hNotFirst : version ≠ .v1 := by
    rintro rfl
    exact absurd hVersion (by decide)
  simp only [ParameterSchema.find?, ParameterSchema.all]
    at hSchema
  grind

theorem hasOperatorParts_of_accepts
    {version : Version}
    {schema : ParameterSchema}
    {document : Json}
    (hSchema : ParameterSchema.find? .privateParameters
      version = some schema)
    (hVersion : Version.v2 ≤ version)
    (hAccepts : Schema.Accepts schema.root document) :
    HasOperatorParts document := by
  rw [ParameterSchema.root,
    properties_of_privateSchema hSchema hVersion] at hAccepts
  have hServer : ∀ i server,
      (serverAt i).resolve? document = some server →
        Schema.Accepts Schema.operatorServer server :=
    fun i server hPart => hAccepts.of_resolve rfl hPart
  have hManagement : ∀ m,
      managementAt.resolve? document = some m →
        Schema.Accepts
          (Schema.recordOf Schema.managementV2) m :=
    fun m hPart => hAccepts.of_resolve rfl hPart
  constructor
  · rcases hAccepts.exists_required
      (show "operator" ∈ _ by simp [Schema.privateV2]) rfl with
      ⟨v, hGet, hNames⟩
    exact ⟨v, hGet, isNaming_of_accepts hNames⟩
  · intro i server hPart
    rcases (hServer i server hPart).exists_required
      (show "owner" ∈ _ by simp) rfl with ⟨v, hGet, hNames⟩
    exact ⟨v, hGet, isNaming_of_accepts hNames⟩
  · intro i server hPart
    exact (hServer i server hPart).exists_text (by simp) rfl
  · rcases hAccepts.exists_required
      (show "managementService" ∈ _ by
        simp [Schema.privateV2]) rfl with ⟨m, hGet, -⟩
    exact ⟨m, hGet⟩
  · intro m hPart
    rcases (hManagement m hPart).exists_required
      (show "managementRequestServiceProviderId" ∈ _ by
        simp [Schema.managementV2, Schema.managementV1])
      rfl with ⟨v, hGet, hNames⟩
    exact ⟨v, hGet, isNaming_of_accepts hNames⟩
  · intro m hPart
    exact (hManagement m hPart).exists_text
      (by simp [Schema.managementV2]) rfl

------------------------------------------------------------
-- Texts and Names
------------------------------------------------------------

section Document

variable {document : Json}
variable (hParts : HasOperatorParts document)

include hParts

theorem operatorNames_iff {operator : MemberKey} :
    NamesMember document (at_ "operator") operator ↔
      memberKey (part "operator" document) = operator := by
  have hAt : at_ "operator" = Pointer.key [] "operator" := rfl
  rw [hAt, namesMember_key_iff]
  · simp
  · rintro v ⟨⟩
    exact hParts.operator

theorem ownerNames_iff
    {i : Nat}
    {owner : MemberKey} :
    NamesMember document ((serverAt i).key "owner") owner ↔
      ∃ server,
        (items "securityServers" document)[i]? =
          some server ∧
        memberKey (part "owner" server) = owner := by
  rw [namesMember_key_iff (hParts.owners i), resolve?_serverAt]

theorem serverCode_iff
    {i : Nat}
    {code : String} :
    HasText document ((serverAt i).key "serverCode") code ↔
      ∃ server,
        (items "securityServers" document)[i]? =
          some server ∧
        text "serverCode" server = code := by
  rw [hasText_key_iff (hParts.codes i), resolve?_serverAt]

theorem resolve?_managementAt :
    managementAt.resolve? document =
      some (part "managementService" document) := by
  rcases hParts.management with ⟨m, hGet⟩
  simp [managementAt, part, hGet]

theorem providerNames_iff {provider : MemberKey} :
    NamesMember document providerAt provider ↔
      memberKey
          (part "managementRequestServiceProviderId"
            (part "managementService" document)) =
        provider := by
  rw [providerAt, namesMember_key_iff hParts.provider,
    resolve?_managementAt hParts]
  simp

theorem managementCode_iff {code : String} :
    HasText document managementCodeAt code ↔
      text "managementRequestServiceServerCode"
        (part "managementService" document) = code := by
  rw [managementCodeAt, hasText_key_iff hParts.managementCode,
    resolve?_managementAt hParts]
  simp

------------------------------------------------------------
-- The Operator
------------------------------------------------------------

theorem mem_operatorServers_iff
    {p : Pointer}
    {fault : RuleFault} :
    (p, fault) ∈
        overItems
          (operatorServer
            (memberKey (part "operator" document)))
          (items "securityServers" document) ↔
      (∃ i owner operator,
        NamesMember document ((serverAt i).key "owner")
          owner ∧
        NamesMember document (at_ "operator") operator ∧
        owner ≠ operator ∧
        p = (serverAt i).key "owner" ∧
        fault = .foreignServer owner operator) ∨
      ∃ i j code, j < i ∧
        HasText document ((serverAt j).key "serverCode")
          code ∧
        HasText document ((serverAt i).key "serverCode")
          code ∧
        p = (serverAt i).key "serverCode" ∧
        fault = .repeatedServerCode code := by
  simp only [mem_overItems_iff, operatorServer,
    List.mem_append, mem_whenever_iff, Prod.mk.injEq,
    bne_iff_ne, List.contains_eq_mem, decide_eq_true_eq,
    List.mem_map, mem_take_reverse_iff, ownerNames_iff hParts,
    operatorNames_iff hParts, serverCode_iff hParts]
  constructor
  · rintro ⟨i, server, hItem, ⟨hOwner, rfl, rfl⟩ |
      ⟨⟨other, ⟨j, hBefore, hOther⟩, hSame⟩, rfl, rfl⟩⟩
    · exact Or.inl ⟨i, _, _, ⟨server, hItem, rfl⟩, rfl, hOwner,
        rfl, rfl⟩
    · exact Or.inr ⟨i, j, _, hBefore, ⟨other, hOther, hSame⟩,
        ⟨server, hItem, rfl⟩, rfl, rfl⟩
  · rintro (⟨i, _, _, ⟨server, hItem, rfl⟩, rfl, hOwner, rfl,
      rfl⟩ | ⟨i, j, _, hBefore, ⟨other, hOther, hSame⟩,
        ⟨server, hItem, rfl⟩, rfl, rfl⟩)
    · exact ⟨i, server, hItem, Or.inl ⟨hOwner, rfl, rfl⟩⟩
    · exact ⟨i, server, hItem, Or.inr
        ⟨⟨other, ⟨j, hBefore, hOther⟩, hSame⟩, rfl, rfl⟩⟩

theorem mem_managementService_iff
    {p : Pointer}
    {fault : RuleFault} :
    (p, fault) ∈
        managementService
          (memberKey (part "operator" document))
          (items "securityServers" document)
          (part "managementService" document) ↔
      (∃ provider operator,
        NamesMember document providerAt provider ∧
        NamesMember document (at_ "operator") operator ∧
        provider ≠ operator ∧
        p = providerAt ∧
        fault = .foreignProvider provider operator) ∨
      ∃ code, HasText document managementCodeAt code ∧
        (∀ i, ¬ HasText document
          ((serverAt i).key "serverCode") code) ∧
        p = managementCodeAt ∧
        fault = .unlistedServer code := by
  have hListed : ∀ code,
      code ∈ (items "securityServers" document).map
          (text "serverCode") ↔
        ∃ i, HasText document ((serverAt i).key "serverCode")
          code := by
    intro code
    rw [List.mem_map]
    simp only [serverCode_iff hParts, List.mem_iff_getElem?]
    grind
  simp only [managementService, List.mem_append,
    mem_whenever_iff, Prod.mk.injEq, bne_iff_ne,
    Bool.not_eq_true', List.contains_eq_mem,
    decide_eq_false_iff_not, hListed, not_exists,
    providerNames_iff hParts, operatorNames_iff hParts,
    managementCode_iff hParts, exists_eq_left',
    exists_and_left]
  rfl

/- The rules of the operator find exactly what is broken. -/
theorem mem_operatorParts_iff
    {p : Pointer}
    {fault : RuleFault} :
    (p, fault) ∈ operatorParts document ↔
      IsBrokenOperator document p fault := by
  rw [operatorParts, List.mem_append,
    mem_operatorServers_iff hParts,
    mem_managementService_iff hParts]
  constructor
  · rintro ((⟨i, owner, operator, hOwner, hOperator, hOther,
      rfl, rfl⟩ | ⟨i, j, code, hBefore, hFirst, hSecond, rfl,
      rfl⟩) | ⟨provider, operator, hProvider, hOperator,
      hOther, rfl, rfl⟩ | ⟨code, hCode, hNone, rfl, rfl⟩)
    · exact .foreignServer hOwner hOperator hOther
    · exact .repeatedServerCode hBefore hFirst hSecond
    · exact .foreignProvider hProvider hOperator hOther
    · exact .unlistedServer hCode hNone
  · intro hBroken
    cases hBroken with
    | foreignServer hOwner hOperator hOther =>
        exact Or.inl (Or.inl ⟨_, _, _, hOwner, hOperator,
          hOther, rfl, rfl⟩)
    | repeatedServerCode hBefore hFirst hSecond =>
        exact Or.inl (Or.inr ⟨_, _, _, hBefore, hFirst,
          hSecond, rfl, rfl⟩)
    | foreignProvider hProvider hOperator hOther =>
        exact Or.inr (Or.inl ⟨_, _, hProvider, hOperator,
          hOther, rfl, rfl⟩)
    | unlistedServer hCode hNone =>
        exact Or.inr (Or.inr ⟨_, hCode, hNone, rfl, rfl⟩)

/- Where the rules find nothing, the operator runs it all. -/
theorem exists_isOperated
    (hNone : operatorParts document = []) :
    ∃ operator code, IsOperated document operator code := by
  rcases (operatorParts_eq_nil_iff document).mp hNone with
    ⟨hOwners, -, hProvider, hListed⟩
  refine ⟨_, _, (operatorNames_iff hParts).mpr rfl,
    (providerNames_iff hParts).mpr hProvider,
    (managementCode_iff hParts).mpr rfl, ?_, ?_⟩
  · rcases List.mem_map.mp hListed with ⟨server, hMem, hSame⟩
    rcases List.mem_iff_getElem?.mp hMem with ⟨i, hItem⟩
    exact ⟨i, (serverCode_iff hParts).mpr
      ⟨server, hItem, hSame⟩⟩
  · intro i server hPart
    rw [resolve?_serverAt] at hPart
    exact (ownerNames_iff hParts).mpr ⟨server, hPart,
      hOwners server (List.mem_of_getElem? hPart)⟩

end Document

------------------------------------------------------------
-- Rules for One Part
------------------------------------------------------------

theorem tidy_source
    (version : Version)
    (place : Pointer)
    (v : Json) :
    IsTidy place (source version place v) := by
  unfold source
  split
  · exact (tidy_certificate _ _).of_key
  · exact (IsTidy.overItems
      (fun _ _ _ => tidy_certificate _ _) _).of_key

theorem tidy_privateCertificates
    (version : Version)
    (document : Json) :
    IsTidy [] (privateCertificates version document) := by
  have hSources : IsTidy
      ((at_ "configurationAnchor").key "sources")
      (sources version document) :=
    .overItems (fun _ _ v => tidy_source version _ v) _
  have hAnchor : IsTidy
      (Pointer.key [] "configurationAnchor")
      (sources version document) :=
    hSources.of_key
  have hManagement := tidy_certificate
    ((at_ "managementService").key "authCertRegServiceCert")
    ((part "managementService" document).get?
      "authCertRegServiceCert")
  have hService : IsTidy (Pointer.key [] "managementService") _ :=
    hManagement.of_key
  exact (hAnchor.under.append hService (by decide)).tidy

theorem tidy_operatorServer
    (operator : MemberKey)
    (earlier : List Json)
    (i : Nat)
    (server : Json) :
    IsTidy ((at_ "securityServers").index i)
      (operatorServer operator earlier i server) :=
  (IsTidy.whenever.under.append .whenever (by decide)).tidy

theorem tidy_managementService
    (operator : MemberKey)
    (servers : List Json)
    (management : Json) :
    IsTidy managementAt
      (managementService operator servers management) :=
  (IsTidy.whenever.under.append .whenever (by decide)).tidy

theorem tidy_operatorParts (document : Json) :
    IsTidy [] (operatorParts document) := by
  have hServers : IsTidy (Pointer.key [] "securityServers") _ :=
    IsTidy.overItems
      (tidy_operatorServer (memberKey (part "operator" document)))
      (items "securityServers" document)
  exact (hServers.under.append
    (tidy_managementService _ _ _) (by decide)).tidy

------------------------------------------------------------
-- Whole Documents
------------------------------------------------------------

/- No place of a certificate is one of the operator's rules. -/
theorem IsBrokenOperator.not_isCertificateField
    {version : Version}
    {document : Json}
    {p : Pointer}
    {fault : RuleFault}
    (hBroken : IsBrokenOperator document p fault) :
    ¬ IsCertificateField .privateParameters version p := by
  intro hField
  generalize hSame : p = q at hField
  cases hField <;> cases hBroken <;>
    simp [serverAt, providerAt, managementCodeAt,
      managementAt, at_, Pointer.key, Pointer.index] at hSame

/- The place of a broken reference is known from its text. -/
theorem IsBrokenPrivate.isNamed
    {version : Version}
    {document : Json}
    {p : Pointer}
    {fault : RuleFault}
    (hBroken : IsBrokenPrivate version document p fault) :
    p.IsNamed := by
  cases hBroken with
  | operator _ hOperator =>
      cases hOperator <;>
        simp [Pointer.IsNamed, PointerStep.IsNamed,
          Json.Number.isDigit, serverAt, providerAt,
          managementCodeAt, managementAt, at_, Pointer.key,
          Pointer.index]
  | certificate hField _ =>
      cases hField with
      | management =>
          simp [Pointer.IsNamed, PointerStep.IsNamed,
            Json.Number.isDigit]
      | source i hField =>
          cases hField <;>
            simp [Pointer.IsNamed, PointerStep.IsNamed,
              Json.Number.isDigit]

section Accepted

variable {version : Version} {schema : ParameterSchema}
variable {document : Json}
variable
  (hSchema : ParameterSchema.find? .privateParameters version =
    some schema)
  (hAccepts : Schema.Accepts schema.root document)

include hSchema hAccepts

/- The rules find exactly what is broken. -/
theorem mem_privateParameters_iff
    {p : Pointer}
    {fault : RuleFault} :
    (p, fault) ∈ privateParameters version document ↔
      IsBrokenPrivate version document p fault := by
  have hOperator :
      (p, fault) ∈
          (if Version.v2 ≤ version then operatorParts document
          else []) ↔
        Version.v2 ≤ version ∧
          IsBrokenOperator document p fault := by
    by_cases hVersion : Version.v2 ≤ version
    · have hParts :=
        hasOperatorParts_of_accepts hSchema hVersion hAccepts
      rw [if_pos hVersion, mem_operatorParts_iff hParts]
      simp [hVersion]
    · simp [hVersion]
  rw [privateParameters_eq, List.mem_append,
    mem_privateCertificates_iff, hOperator]
  constructor
  · rintro (⟨hField, hFailing⟩ | ⟨hVersion, hBroken⟩)
    · exact .certificate hField hFailing
    · exact .operator hVersion hBroken
  · intro hBroken
    cases hBroken with
    | operator hVersion hBroken =>
        exact Or.inr ⟨hVersion, hBroken⟩
    | certificate hField hFailing =>
        exact Or.inl ⟨hField, hFailing⟩

/- No two findings in private parameters are at one place. -/
theorem tidy_privateParameters :
    IsTidy [] (privateParameters version document) := by
  rw [privateParameters_eq]
  split
  · rename_i hVersion
    have hParts :=
      hasOperatorParts_of_accepts hSchema hVersion hAccepts
    refine (tidy_privateCertificates version document).append
      (tidy_operatorParts document) ?_
    rintro ⟨p, fault⟩ hMem ⟨q, other⟩ hOther hSame
    obtain rfl : p = q := hSame
    exact ((mem_operatorParts_iff hParts).mp
      hOther).not_isCertificateField
        (mem_privateCertificates_iff.mp hMem).1
  · rw [List.append_nil]
    exact tidy_privateCertificates version document

end Accepted

------------------------------------------------------------
-- Reports
------------------------------------------------------------

/-
  Parameters of an operator with one server, and of a
  management service at a server with some code.
-/
def operatedDocument (code : String) : Json :=
  let owner : List (String × Json) :=
    [ ("memberClass", .string "COM"),
      ("memberCode", .string "1") ]
  let cert := CertificateBytes.small.toJson
  let hash := String.ofList (List.replicate 64 '0')
  .object
    [ ("configurationAnchor",
        .object
          [ ("sources",
              .array
                [ .object
                    [ ("downloadUrl", .string "http://c"),
                      ("verificationCerts",
                        .array [cert]) ] ]) ]),
      ("generatedAt", .string "2024-01-01T00:00:00Z"),
      ("instanceIdentifier", .string "EE"),
      ("managementService",
        .object
          [ ("authCertRegServiceAddress", .string "http://m"),
            ("authCertRegServiceCert", cert),
            ("managementRequestServiceProviderId",
              .object owner),
            ("managementRequestServiceServerCode",
              .string code) ]),
      ("operator", .object owner),
      ("securityServers",
        .array
          [ .object
              [ ("address", .string "s1"),
                ("authCertHashes", .array [.string hash]),
                ("owner", .object owner),
                ("serverCode", .string "S1") ] ]),
      ("timeStampingIntervalSeconds", .integer 60),
      ("version", .integer 2) ]

/-
  The report on a document that has the form of private
  parameters holds one violation at the place of each broken
  part, with the wording of its fault, and no other. If
  the document is valid and of the second version, the
  management service is at a listed server, and all of them
  are the operator's.
-/
theorem violations_private_exact
    {version : Version}
    {schema : ParameterSchema}
    {document : Json}
    (hSchema : ParameterSchema.find? .privateParameters version =
      some schema)
    (hForm : schema.root.violations document = []) :
    (∀ p fault, IsBrokenPrivate version document p fault →
      (violations .privateParameters version document).filter
          (fun v => v.path = p.render) =
        [.located p fault.message]) ∧
    (∀ v ∈ violations .privateParameters version document,
      ∃ p fault, IsBrokenPrivate version document p fault ∧
        v = .located p fault.message) ∧
    (Version.v2 ≤ version →
      Validation.validate .privateParameters version
        document = .ok () →
      ∃ operator code,
        IsOperated document operator code) := by
  have hAccepts := Schema.violations_eq_nil_iff.mp hForm
  have hFound : ∀ p fault,
      (p, fault) ∈ findings .privateParameters version
          document ↔
        IsBrokenPrivate version document p fault :=
    fun _ _ => mem_privateParameters_iff hSchema hAccepts
  have hTidy : IsTidy []
      (findings .privateParameters version document) :=
    tidy_privateParameters hSchema hAccepts
  have hPaths := nodup_paths hTidy
    fun p fault hMem => ((hFound p fault).mp hMem).isNamed
  refine ⟨?_, ?_, ?_⟩
  · intro p fault hBroken
    exact filter_path_eq hPaths (List.mem_map.mpr
      ⟨(p, fault), (hFound p fault).mpr hBroken, rfl⟩)
  · intro v hMem
    rcases List.mem_map.mp hMem with ⟨⟨p, fault⟩, hOwn, rfl⟩
    exact ⟨p, fault, (hFound p fault).mp hOwn, rfl⟩
  · intro hVersion hValid
    rcases Validation.validate_eq_ok_iff.mp hValid with
      ⟨-, -, -, -, hNone⟩
    have hRules : privateParameters version document = [] :=
      hNone
    rw [privateParameters_eq, if_pos hVersion,
      List.append_eq_nil_iff] at hRules
    exact exists_isOperated
      (hasOperatorParts_of_accepts hSchema hVersion hAccepts)
      hRules.2

theorem violations_private_small :
    (∀ code ∈ ["S1", "S2"],
      (Schema.recordOf Schema.privateV2).violations
        (operatedDocument code) = []) ∧
      (violations .privateParameters .v2
          (operatedDocument "S2")).filter
        (fun v => v.path =
          "/managementService/managementRequestServiceServerCode")
        = [ ⟨"/managementService/managementRequestServiceServerCode",
              "server code \"S2\" does not reference a listed security server"⟩ ] ∧
      Validation.validate .privateParameters .v2
        (operatedDocument "S1") = .ok () ∧
      ∃ operator code,
        IsOperated (operatedDocument "S1") operator code := by
  have hForm : ∀ code ∈ ["S1", "S2"],
      (Schema.recordOf Schema.privateV2).violations
        (operatedDocument code) = [] := by
    decide +kernel
  have hBroken : IsBrokenPrivate .v2 (operatedDocument "S2")
      managementCodeAt (.unlistedServer "S2") := by
    refine .operator (by decide) (.unlistedServer rfl ?_)
    rintro (_ | i) hCode
    · have hSame : "S1" = "S2" :=
        Json.string.inj (Option.some.inj hCode)
      exact absurd hSame (by decide)
    · cases hCode
  have hValid : Validation.validate .privateParameters .v2
      (operatedDocument "S1") = .ok () := by
    decide +kernel
  have hSchema : ParameterSchema.find? .privateParameters
      .v2 = some ⟨.privateParameters, .v2,
        Schema.privateV2⟩ :=
    rfl
  have hPath : managementCodeAt.render =
      "/managementService/managementRequestServiceServerCode" := by
    decide +kernel
  have hReport := (violations_private_exact hSchema
    (hForm "S2" (by decide))).1 _ _ hBroken
  have hOperated := (violations_private_exact hSchema
    (hForm "S1" (by decide))).2.2 (by decide) hValid
  rw [Violation.located, hPath] at hReport
  exact ⟨hForm, hReport, hValid, hOperated⟩

end Rules

end Federation
