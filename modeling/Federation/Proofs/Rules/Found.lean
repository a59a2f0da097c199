import Federation.Proofs.Rules.Logged
import Federation.Proofs.Rules.Operator
import Federation.Proofs.Schema.Identifiers

/-
  In a document that has the form of its schema, every lookup
  of the rules finds a value of the form that it wants, but
  for the two that schemas leave out at will: the certificate
  of a responder and the subsystem of a client. No rule is
  passed over for a key that is spelled or nested otherwise.

  Main declarations:
    * `Rules.IsOptionalPlace`
    * `Rules.Lookup.IsFound`
    * `Rules.Looking.Succeeds`
    * `Rules.every_lookup_found`
-/

namespace Federation

namespace Rules

------------------------------------------------------------
-- Places That May Be Empty
------------------------------------------------------------

/- The places of an authority's certificates. -/
inductive IsInfoPlace : Pointer → Prop where
| top (i : Nat) :
    IsInfoPlace ((authorityAt i).key "topCA")
| intermediate (i k : Nat) :
    IsInfoPlace
      (((authorityAt i).key "intermediateCAs").index k)

/- The places at which there may be nothing. -/
inductive IsOptionalPlace : Pointer → Prop where
| subsystem {client : Pointer} :
    IsClientPlace client →
    IsOptionalPlace (client.key "subsystemCode")
| responder {info : Pointer} (m : Nat) :
    IsInfoPlace info →
    IsOptionalPlace (((info.key "ocsp").index m).key "cert")

------------------------------------------------------------
-- Found Values
------------------------------------------------------------

/-
  A lookup finds what the document has at its place, and that
  has the wanted form, or is missing where it may be.
-/
structure Lookup.IsFound
    (document : Json)
    (l : Lookup) : Prop where
  resolved : l.found = l.place.resolve? document
  fits : (∃ v, l.found = some v ∧ l.wanted.Fits v) ∨
    l.found = none ∧ IsOptionalPlace l.place

/- Every lookup of a look at a document finds its value. -/
def Looking.Succeeds
    {α : Type}
    (document : Json)
    (x : Looking α) : Prop :=
  ∀ l ∈ x.lookups, l.IsFound document

namespace Looking.Succeeds

variable {α β : Type} {document : Json}

theorem pure (a : α) :
    Succeeds document (Pure.pure a) :=
  fun _ hLookup => nomatch hLookup

theorem bind
    {x : Looking α}
    {next : α → Looking β}
    (hFirst : x.Succeeds document)
    (hNext : (next x.result).Succeeds document) :
    (x >>= next).Succeeds document := by
  intro l hLookup
  rw [lookups_bind, List.mem_append] at hLookup
  rcases hLookup with hLookup | hLookup
  · exact hFirst l hLookup
  · exact hNext l hLookup

/- What is made of a result alone looks at nothing more. -/
theorem map
    {x : Looking α}
    (hFirst : x.Succeeds document)
    (f : α → β) :
    Succeeds document (x >>= fun a => Pure.pure (f a)) :=
  hFirst.bind (pure _)

theorem single
    {a : α}
    {l : Lookup}
    (hFound : l.IsFound document) :
    Succeeds document (⟨a, [l]⟩ : Looking α) := by
  intro other hLookup
  rw [List.mem_singleton.mp hLookup]
  exact hFound

end Looking.Succeeds

------------------------------------------------------------
-- Parts with a Schema
------------------------------------------------------------

/- The form of the values that a schema accepts, if they have one. -/
def formOf : Schema → Option Form
| .text _ _ => some .text
| .list _ _ _ => some .list
| .record _ _ => some .record
| .flag | .whole _ | .constant _ => none

theorem fits_of_accepts
    {schema : Schema}
    {wanted : Form}
    {v : Json}
    (hForm : formOf schema = some wanted)
    (hAccepts : Schema.Accepts schema v) :
    wanted.Fits v := by
  cases schema with
  | text minLength pattern =>
      cases hForm
      rw [Schema.Accepts] at hAccepts
      rcases hAccepts with ⟨s, rfl, -⟩
      exact ⟨s, rfl⟩
  | list item minItems unique =>
      cases hForm
      rw [Schema.Accepts] at hAccepts
      rcases hAccepts with ⟨values, rfl, -⟩
      exact ⟨values, rfl⟩
  | record properties required =>
      cases hForm
      rw [Schema.Accepts] at hAccepts
      rcases hAccepts with ⟨members, rfl, -⟩
      exact ⟨members, rfl⟩
  | flag | whole _ | constant _ => cases hForm

/- A part is the document's, and a schema accepts it. -/
structure Part.IsAt
    (document : Json)
    (schema : Schema)
    (p : Part) : Prop where
  resolved : p.place.resolve? document = some p.value
  accepted : Schema.Accepts schema p.value

section Parts

variable {α : Type} {document : Json} {p : Part}
variable {properties : List (String × Schema)}
variable {required : List String} {key : String}

theorem found_of_accepted
    {place : Pointer}
    {wanted : Form}
    {sub : Schema}
    {v : Json}
    (hPart : place.resolve? document = some v)
    (hForm : formOf sub = some wanted)
    (hAccepts : Schema.Accepts sub v) :
    Lookup.IsFound document ⟨place, wanted, some v⟩ :=
  ⟨hPart.symm, Or.inl ⟨v, rfl, fits_of_accepts hForm hAccepts⟩⟩

theorem asText_succeeds
    {minLength : Nat}
    {pattern : Option Pattern}
    (hAt : p.IsAt document (.text minLength pattern)) :
    p.asText.Succeeds document :=
  .single (found_of_accepted hAt.resolved rfl hAt.accepted)

variable (hAt : p.IsAt document (.record properties required))

include hAt

theorem resolve?_of_isAt (key : String) :
    (p.place.key key).resolve? document =
      p.value.get? key := by
  rw [Pointer.resolve?_key, hAt.resolved, Option.bind_some]

/- A property that may be missing is looked up as a text. -/
theorem optionalText_succeeds
    {minLength : Nat}
    {pattern : Option Pattern}
    (hProperty : properties.lookup key =
      some (.text minLength pattern))
    (hOptional : IsOptionalPlace (p.place.key key)) :
    (p.text? key).Succeeds document := by
  have hPlace := resolve?_of_isAt hAt key
  apply Looking.Succeeds.map
  apply Looking.Succeeds.single
  cases hFound : p.value.get? key with
  | none =>
      rw [hFound] at hPlace
      exact ⟨hPlace.symm, Or.inr ⟨rfl, hOptional⟩⟩
  | some v =>
      rw [hFound] at hPlace
      rcases hAt.accepted.exists_of_step
          (show Pointer.step? (.key key) p.value = some v
            from hFound) with
        ⟨sub, hSub, hAccepts⟩
      have hSame : properties.lookup key = some sub := hSub
      rw [hProperty] at hSame
      cases hSame
      exact found_of_accepted hPlace rfl hAccepts

variable (hRequired : key ∈ required)

include hRequired

/- A required property is there, with its own schema. -/
theorem exists_child
    {sub : Schema}
    (hProperty : properties.lookup key = some sub) :
    ∃ v, p.value.get? key = some v ∧
      Part.IsAt document sub ⟨p.place.key key, v⟩ := by
  rcases hAt.accepted.exists_required hRequired hProperty with
    ⟨v, hFound, hAccepts⟩
  refine ⟨v, hFound, ?_, hAccepts⟩
  rw [resolve?_of_isAt hAt, hFound]

theorem look_succeeds
    {wanted : Form}
    {sub : Schema}
    (hProperty : properties.lookup key = some sub)
    (hForm : formOf sub = some wanted) :
    (p.look wanted key).Succeeds document := by
  rcases exists_child hAt hRequired hProperty with
    ⟨v, hFound, hChild⟩
  apply Looking.Succeeds.single
  rw [hFound]
  exact found_of_accepted hChild.resolved hForm hChild.accepted

theorem text?_succeeds
    {minLength : Nat}
    {pattern : Option Pattern}
    (hProperty : properties.lookup key =
      some (.text minLength pattern)) :
    (p.text? key).Succeeds document :=
  (look_succeeds hAt hRequired hProperty rfl).map _

theorem text_succeeds
    {minLength : Nat}
    {pattern : Option Pattern}
    (hProperty : properties.lookup key =
      some (.text minLength pattern)) :
    (p.text key).Succeeds document :=
  (text?_succeeds hAt hRequired hProperty).map _

/- Each item is looked at, at its own place. -/
theorem each_succeeds
    {item : Schema}
    {minItems : Nat}
    {unique : Bool}
    {look : Part → Looking α}
    (hProperty : properties.lookup key =
      some (.list item minItems unique))
    (hLook : ∀ q i,
      q.place = (p.place.key key).index i →
      q.IsAt document item → (look q).Succeeds document) :
    (p.each key look).Succeeds document := by
  rcases exists_child hAt hRequired hProperty with
    ⟨v, hFound, hChild⟩
  have hList := hChild.accepted
  rw [Schema.Accepts] at hList
  rcases hList with ⟨values, rfl, hItems, -⟩
  apply Looking.Succeeds.bind
  · exact (look_succeeds hAt hRequired hProperty rfl).map _
  · have hParts : (p.items key).result =
        Part.ofItems (p.place.key key) values := by
      simp only [Part.items, Part.look, Looking.result_bind,
        Looking.result_pure, hFound]
      rfl
    rw [hParts]
    intro l hLookup
    rcases List.mem_flatMap.mp hLookup with ⟨q, hq, hLookup⟩
    rcases List.mem_map.mp hq with ⟨⟨x, i⟩, hItem, rfl⟩
    have hx := List.mem_zipIdx_iff_getElem?.mp hItem
    refine hLook _ i rfl ⟨?_, hItems x
      (List.mem_of_getElem? hx)⟩ l hLookup
    rw [Pointer.resolve?_index, hChild.resolved]
    exact hx

variable (key)

/- A required part is found, with its own schema. -/
theorem part_succeeds
    {inner : List (String × Schema)}
    {innerRequired : List String}
    (hProperty : properties.lookup key =
      some (.record inner innerRequired)) :
    (p.part key).Succeeds document ∧
      (p.part key).result.IsAt document
        (.record inner innerRequired) := by
  rcases exists_child hAt hRequired hProperty with
    ⟨v, hFound, hChild⟩
  refine ⟨(look_succeeds hAt hRequired hProperty rfl).map _, ?_⟩
  have hResult : (p.part key).result =
      ⟨p.place.key key, v⟩ := by
    simp only [Part.part, Part.look, Looking.result_bind,
      Looking.result_pure, hFound, Option.getD_some]
  rw [hResult]
  exact hChild

end Parts

------------------------------------------------------------
-- Identifiers
------------------------------------------------------------

section Document

variable {document : Json} {p : Part}

/- Members, their identifiers and clients begin alike. -/
theorem memberKey_succeeds
    {properties : List (String × Schema)}
    {required : List String}
    (hAt : p.IsAt document
      (.record (Schema.memberParts ++ properties)
        (["memberClass", "memberCode"] ++ required))) :
    (MemberKey.look p).Succeeds document := by
  apply Looking.Succeeds.bind
  · exact text_succeeds hAt (by simp) rfl
  · apply Looking.Succeeds.map
    exact text_succeeds hAt (by simp) rfl

theorem client_succeeds
    (hPlace : IsClientPlace p.place)
    (hAt : p.IsAt document Schema.clientId) :
    (SeenClient.look p).Succeeds document := by
  apply Looking.Succeeds.bind (memberKey_succeeds hAt)
  apply Looking.Succeeds.map
  exact optionalText_succeeds hAt rfl (.subsystem hPlace)

------------------------------------------------------------
-- Shared Parameters
------------------------------------------------------------

theorem member_succeeds
    (hAt : p.IsAt document Schema.member) :
    (SeenMember.look p).Succeeds document := by
  apply Looking.Succeeds.bind (memberKey_succeeds hAt)
  apply Looking.Succeeds.map
  exact each_succeeds hAt (by decide) rfl
    fun q i _ hItem => asText_succeeds hItem

theorem server_succeeds
    {i : Nat}
    (hPlace : p.place = serverAt i)
    (hAt : p.IsAt document Schema.securityServer) :
    (SeenServer.look p).Succeeds document := by
  have hOwner := part_succeeds "owner" hAt (by decide) rfl
  apply hOwner.1.bind
  apply (memberKey_succeeds hOwner.2).bind
  apply Looking.Succeeds.bind
  · exact text_succeeds hAt (by decide) rfl
  · apply Looking.Succeeds.bind
    · exact each_succeeds hAt (by decide) rfl
        fun q j _ hItem => asText_succeeds hItem
    · apply Looking.Succeeds.map
      refine each_succeeds hAt (by decide) rfl ?_
      intro q j hClient hItem
      rw [hPlace] at hClient
      exact client_succeeds (hClient ▸ .ofServer i j) hItem

theorem group_succeeds
    {i : Nat}
    (hPlace : p.place = groupAt i)
    (hAt : p.IsAt document Schema.globalGroup) :
    (SeenGroup.look p).Succeeds document := by
  apply Looking.Succeeds.bind
  · exact text_succeeds hAt (by decide) rfl
  · apply Looking.Succeeds.map
    refine each_succeeds hAt (by decide) rfl ?_
    intro q j hClient hItem
    rw [hPlace] at hClient
    exact client_succeeds (hClient ▸ .ofGroup i j) hItem

theorem info_succeeds
    (hPlace : IsInfoPlace p.place)
    (hAt : p.IsAt document Schema.caInfo) :
    (SeenInfo.look p).Succeeds document := by
  apply Looking.Succeeds.bind
  · exact text?_succeeds hAt (by decide) rfl
  · apply Looking.Succeeds.map
    refine each_succeeds hAt (by decide) rfl ?_
    intro q m hResponder hItem
    refine optionalText_succeeds hItem rfl ?_
    rw [hResponder]
    exact .responder m hPlace

/- An authority has the parts of the first version, and maybe more. -/
theorem authority_succeeds
    {more : List (String × Schema)}
    {i : Nat}
    (hPlace : p.place = authorityAt i)
    (hAt : p.IsAt document
      (Schema.recordOf (Schema.authorityV1 ++ more))) :
    (SeenAuthority.look p).Succeeds document := by
  have hRequired : ∀ name ∈ ["name", "topCA",
      "intermediateCAs"], name ∈
        (Schema.authorityV1 ++ more).map Prod.fst := by
    simp [Schema.authorityV1]
  have hTop := part_succeeds "topCA" hAt
    (hRequired _ (by decide)) rfl
  have hTopPlace : IsInfoPlace (p.part "topCA").result.place := by
    change IsInfoPlace (p.place.key "topCA")
    rw [hPlace]
    exact .top i
  apply Looking.Succeeds.bind
  · exact text_succeeds hAt (hRequired _ (by decide)) rfl
  · apply hTop.1.bind
    apply (info_succeeds hTopPlace hTop.2).bind
    apply Looking.Succeeds.map
    refine each_succeeds hAt (hRequired _ (by decide)) rfl ?_
    intro q k hInfo hItem
    rw [hPlace] at hInfo
    exact info_succeeds (hInfo ▸ .intermediate i k) hItem

theorem timestamping_succeeds
    (hAt : p.IsAt document Schema.timestampingAuthority) :
    (p.text? "cert").Succeeds document :=
  text?_succeeds hAt (by decide) rfl

/-
  The parts of shared parameters that versions have in common
  are looked up with success if their own parts are.
-/
theorem shared_succeeds
    (more : List (String × Schema))
    {version : Version}
    {number : Nat}
    {settings : List (String × Schema)}
    (hAt : Part.IsAt document
      (Schema.recordOf
        (Schema.sharedWith number
          (Schema.authorityV1 ++ more) settings))
      ⟨[], document⟩)
    (hClasses : (lookClasses version
      ⟨[], document⟩).Succeeds document) :
    (SeenShared.look version ⟨[], document⟩).Succeeds
      document := by
  have hRequired : ∀ key ∈ ["members", "securityServers",
      "globalGroups", "approvedCAs", "approvedTSAs"],
      key ∈ (Schema.sharedWith number
        (Schema.authorityV1 ++ more) settings).map
          Prod.fst := by
    simp [Schema.sharedWith, Schema.envelope]
  apply hClasses.bind
  apply Looking.Succeeds.bind
  · exact each_succeeds hAt (hRequired _ (by decide)) rfl
      fun q i _ hItem => member_succeeds hItem
  · apply Looking.Succeeds.bind
    · exact each_succeeds hAt (hRequired _ (by decide)) rfl
        fun q i hPlace hItem => server_succeeds hPlace hItem
    · apply Looking.Succeeds.bind
      · exact each_succeeds hAt (hRequired _ (by decide)) rfl
          fun q i hPlace hItem => group_succeeds hPlace hItem
      · apply Looking.Succeeds.bind
        · exact each_succeeds hAt (hRequired _ (by decide))
            rfl fun q i hPlace hItem =>
              authority_succeeds hPlace hItem
        · apply Looking.Succeeds.map
          exact each_succeeds hAt (hRequired _ (by decide))
            rfl fun q i _ hItem => timestamping_succeeds hItem

/- Classes are declared from the second version on. -/
theorem classes_succeeds
    (hAt : Part.IsAt document
      (Schema.recordOf Schema.sharedV2) ⟨[], document⟩) :
    (lookClasses .v2 ⟨[], document⟩).Succeeds document := by
  have hSettings := part_succeeds "globalSettings" hAt
    (by decide) rfl
  apply hSettings.1.bind
  apply Looking.Succeeds.map
  refine each_succeeds hSettings.2 (by decide) rfl ?_
  intro q i _ hItem
  exact text_succeeds hItem (by decide) rfl

------------------------------------------------------------
-- Private Parameters
------------------------------------------------------------

theorem operatorServer_succeeds
    (hAt : p.IsAt document Schema.operatorServer) :
    (SeenOperatorServer.look p).Succeeds document := by
  have hOwner := part_succeeds "owner" hAt (by decide) rfl
  apply hOwner.1.bind
  apply (memberKey_succeeds hOwner.2).bind
  apply Looking.Succeeds.map
  exact text_succeeds hAt (by decide) rfl

theorem operator_succeeds
    {management : Part}
    (hAt : Part.IsAt document
      (Schema.recordOf Schema.privateV2) ⟨[], document⟩)
    (hManagement : management.IsAt document
      (Schema.recordOf Schema.managementV2)) :
    (SeenOperator.look ⟨[], document⟩ management).Succeeds
      document := by
  have hOperator := part_succeeds "operator" hAt
    (by decide) rfl
  have hProvider := part_succeeds
    "managementRequestServiceProviderId" hManagement
    (by decide) rfl
  apply hOperator.1.bind
  apply (memberKey_succeeds hOperator.2).bind
  apply Looking.Succeeds.bind
  · exact each_succeeds hAt (by decide) rfl
      fun q i _ hItem => operatorServer_succeeds hItem
  · apply hProvider.1.bind
    apply (memberKey_succeeds hProvider.2).bind
    apply Looking.Succeeds.map
    exact text_succeeds hManagement (by decide) rfl

/- The first version has one certificate for each source. -/
theorem privateV1_succeeds
    (hAt : Part.IsAt document
      (Schema.recordOf Schema.privateV1) ⟨[], document⟩) :
    (SeenPrivate.look .v1 ⟨[], document⟩).Succeeds
      document := by
  have hAnchor := part_succeeds "configurationAnchor" hAt
    (by decide) rfl
  have hManagement := part_succeeds "managementService" hAt
    (by decide) rfl
  apply hAnchor.1.bind
  apply Looking.Succeeds.bind
  · refine each_succeeds hAnchor.2 (by decide) rfl ?_
    intro q i _ hItem
    exact (text?_succeeds hItem (by decide) rfl).map _
  · apply hManagement.1.bind
    apply Looking.Succeeds.bind
    · exact text?_succeeds hManagement.2 (by decide) rfl
    · exact (Looking.Succeeds.pure _).map _

/- The second version has a list of them, and the operator. -/
theorem privateV2_succeeds
    (hAt : Part.IsAt document
      (Schema.recordOf Schema.privateV2) ⟨[], document⟩) :
    (SeenPrivate.look .v2 ⟨[], document⟩).Succeeds
      document := by
  have hAnchor := part_succeeds "configurationAnchor" hAt
    (by decide) rfl
  have hManagement := part_succeeds "managementService" hAt
    (by decide) rfl
  apply hAnchor.1.bind
  apply Looking.Succeeds.bind
  · refine each_succeeds hAnchor.2 (by decide) rfl ?_
    intro q i _ hItem
    apply Looking.Succeeds.map
    exact each_succeeds hItem (by decide) rfl
      fun r j _ hCert => asText_succeeds hCert
  · apply hManagement.1.bind
    apply Looking.Succeeds.bind
    · exact text?_succeeds hManagement.2 (by decide) rfl
    · apply Looking.Succeeds.map
      exact (operator_succeeds hAt hManagement.2).map _

end Document

------------------------------------------------------------
-- Documents
------------------------------------------------------------

/- The schemas of a kind are those of the two versions. -/
theorem privateSchema_eq
    {version : Version}
    {schema : ParameterSchema}
    (hSchema : ParameterSchema.find? .privateParameters
      version = some schema) :
    version = .v1 ∧ schema.properties = Schema.privateV1 ∨
      version = .v2 ∧ schema.properties = Schema.privateV2 := by
  simp only [ParameterSchema.find?, ParameterSchema.all]
    at hSchema
  grind

/-
  In a document with the form of its schema every lookup finds
  what is at its place, and nothing is missing there but what
  may be. For every document, what comes of the lookups has
  just the findings of the rules, and it is decided by what
  the lookups tell: nothing else is looked at.
-/
theorem every_lookup_found
    {kind : DocumentKind}
    {version : Version}
    {schema : ParameterSchema}
    {document : Json}
    (hSchema : ParameterSchema.find? kind version =
      some schema)
    (hForm : schema.root.violations document = []) :
    (∀ other, (Seen.look kind version other).result.findings =
      findings kind version other) ∧
    (∀ first second,
      (Seen.look kind version first).glimpses =
          (Seen.look kind version second).glimpses →
        (Seen.look kind version first).result =
          (Seen.look kind version second).result) ∧
    ∀ l ∈ (Seen.look kind version document).lookups,
      l.IsFound document := by
  refine ⟨fun other => ?_,
    fun _ _ => result_eq_of_glimpses_eq, ?_⟩
  · rw [result_look, findings_of]
  · change (Seen.look kind version document).Succeeds document
    have hAccepts := Schema.violations_eq_nil_iff.mp hForm
    rw [ParameterSchema.root] at hAccepts
    cases kind with
    | privateParameters =>
        apply Looking.Succeeds.map
        rcases privateSchema_eq hSchema with
          ⟨rfl, hProperties⟩ | ⟨rfl, hProperties⟩
        · rw [hProperties] at hAccepts
          exact privateV1_succeeds ⟨rfl, hAccepts⟩
        · rw [hProperties] at hAccepts
          exact privateV2_succeeds ⟨rfl, hAccepts⟩
    | sharedParameters =>
        apply Looking.Succeeds.map
        rcases sharedSchema_cases hSchema with
          ⟨rfl, hProperties⟩ | ⟨rfl, hProperties⟩
        · rw [hProperties] at hAccepts
          exact shared_succeeds [] ⟨rfl, hAccepts⟩
            (.pure none)
        · rw [hProperties] at hAccepts
          exact shared_succeeds _ ⟨rfl, hAccepts⟩
            (classes_succeeds ⟨rfl, hAccepts⟩)

/-
  Shared parameters with an authority whose responder has no
  certificate of its own, and with a server whose client is
  its owner.
-/
def plainDocument : Json :=
  let owner : List (String × Json) :=
    [ ("memberClass", .string "COM"),
      ("memberCode", .string "1") ]
  .object
    [ ("approvedCAs",
        .array
          [ .object
              [ ("authenticationOnly", .bool false),
                ("intermediateCAs", .array []),
                ("name", .string "CA"),
                ("topCA",
                  .object
                    [ ("cert", CertificateBytes.small.toJson),
                      ("ocsp",
                        .array
                          [ .object
                              [ ("url",
                                  .string "http://o") ] ])
                    ]) ] ]),
      ("approvedTSAs", .array []),
      ("generatedAt", .string "2024-01-01T00:00:00Z"),
      ("globalGroups", .array []),
      ("globalSettings",
        .object [("ocspFreshnessSeconds", .integer 60)]),
      ("instanceIdentifier", .string "EE"),
      ("members",
        .array
          [ .object
              (owner ++
                [ ("name", .string "Acme"),
                  ("subsystems", .array []) ]) ]),
      ("securityServers",
        .array
          [ .object
              [ ("address", .string "s1"),
                ("authCertHashes", .array []),
                ("clients", .array [.object owner]),
                ("owner", .object owner),
                ("serverCode", .string "S1") ] ]),
      ("version", .integer 1) ]

/- In it, only the two places that may be empty are. -/
theorem every_lookup_found_plain :
    (Schema.recordOf Schema.sharedV1).violations
        plainDocument = [] ∧
      (∀ l ∈ (Seen.look .sharedParameters .v1
          plainDocument).lookups,
        l.IsFound plainDocument) ∧
      ((Seen.look .sharedParameters .v1
            plainDocument).lookups.filter
          (fun l => l.found.isNone)).map Lookup.place =
        [ (((serverAt 0).key "clients").index 0).key
            "subsystemCode",
          ((((authorityAt 0).key "topCA").key "ocsp").index
            0).key "cert" ] := by
  have hForm : (Schema.recordOf Schema.sharedV1).violations
      plainDocument = [] := by
    decide +kernel
  have hSchema : ParameterSchema.find? .sharedParameters .v1 =
      some ⟨.sharedParameters, .v1, Schema.sharedV1⟩ := rfl
  exact ⟨hForm, (every_lookup_found hSchema hForm).2.2,
    by decide +kernel⟩

end Rules

end Federation
