import Federation.Proofs.Rules.Exact
import Federation.Proofs.Sorting

/-
  The rules of shared parameters find nothing twice at one
  place, so a document of the right form is told of each of
  its broken references once.

  Main declarations:
    * `Rules.tidy_sharedParameters`
    * `Rules.IsBroken.isNamed`
    * `Rules.violations_shared_exact`
-/

namespace Federation

namespace Rules

------------------------------------------------------------
-- Rules for One Item
------------------------------------------------------------

theorem tidy_certificate
    (place : Pointer)
    (value : Option Json) :
    IsTidy place (certificate place value) := by
  unfold certificate
  split
  · split
    · exact .single
    · exact .whenever
  · exact .nil

theorem tidy_member
    (declared : Option (List String))
    (earlier : List Json)
    (i : Nat)
    (v : Json) :
    IsTidy ((at_ "members").index i)
      (member declared earlier i v) := by
  refine IsTidy.append (IsTidy.of_key .whenever) .whenever ?_
  intro f hMem g hOther
  rw [(mem_whenever_iff.mp hMem).2,
    (mem_whenever_iff.mp hOther).2]
  simp [Pointer.key]

theorem tidy_client
    (members : List Json)
    (place : Pointer)
    (v : Json) :
    IsTidy place (client members place v) := by
  cases hEntry : registeredMember? members (memberKey v) with
  | none =>
      simp only [client, hEntry]
      exact .single
  | some entry =>
      cases hCode :
          (v.get? "subsystemCode").bind Json.asString? with
      | none =>
          simp only [client, hEntry, hCode]
          exact .nil
      | some code =>
          simp only [client, hEntry, hCode]
          exact .whenever

theorem tidy_clients
    (members : List Json)
    (place : Pointer)
    (values : List Json) :
    IsTidy place (clients members place values) :=
  .overItems (fun _ _ v => tidy_client members _ v) values

theorem tidy_certificateHash
    (servers : List Json)
    (place : Pointer)
    (earlier : List Json)
    (j : Nat)
    (hash : Json) :
    IsTidy (place.index j)
      (certificateHash servers place earlier j hash) := by
  unfold certificateHash
  split
  · exact .nil
  · split_ifs
    · exact .nil
    · split
      · exact .nil
      · exact .single

theorem tidy_securityServer
    (members earlier : List Json)
    (i : Nat)
    (server : Json) :
    IsTidy ((at_ "securityServers").index i)
      (securityServer members earlier i server) := by
  have hHashes := IsTidy.overItems
    (tidy_certificateHash earlier
      (((at_ "securityServers").index i).key
        "authCertHashes"))
    (hashes server)
  have hClients := tidy_clients members
    (((at_ "securityServers").index i).key "clients")
    (items "clients" server)
  exact (((IsTidy.whenever.under.append .whenever
    (by decide)).append hHashes (by decide)).append hClients
      (by decide)).tidy

theorem tidy_globalGroup
    (members earlier : List Json)
    (i : Nat)
    (group : Json) :
    IsTidy ((at_ "globalGroups").index i)
      (globalGroup members earlier i group) :=
  (IsTidy.whenever.under.append (tidy_clients members _ _)
    (by decide)).tidy

theorem tidy_authorityCertificates
    (place : Pointer)
    (v : Json) :
    IsTidy place (authorityCertificates place v) := by
  have hResponders : IsTidy (place.key "ocsp")
      (overItems
        (fun _ i responder =>
          certificate
            (((place.key "ocsp").index i).key "cert")
            (responder.get? "cert"))
        (items "ocsp" v)) :=
    .overItems
      (fun _ _ _ => IsTidy.of_key (tidy_certificate _ _)) _
  exact ((tidy_certificate _ _).under.append hResponders
    (by decide)).tidy

theorem tidy_authority
    (earlier : List Json)
    (i : Nat)
    (v : Json) :
    IsTidy ((at_ "approvedCAs").index i)
      (authority earlier i v) := by
  have hInfos := IsTidy.overItems
    (fun (_ : List Json) k info => tidy_authorityCertificates
      ((((at_ "approvedCAs").index i).key
        "intermediateCAs").index k) info)
    (items "intermediateCAs" v)
  exact ((IsTidy.whenever.under.append
    (tidy_authorityCertificates _ _) (by decide)).append hInfos
      (by decide)).tidy

------------------------------------------------------------
-- Whole Documents
------------------------------------------------------------

theorem tidy_classes
    (version : Version)
    (document : Json) :
    IsTidy (at_ "globalSettings") (classes version document) := by
  unfold classes
  split
  · have hItems : IsTidy
        ((at_ "globalSettings").key "memberClasses")
        (overItems memberClass (memberClasses document)) :=
      .overItems (fun _ _ _ => IsTidy.of_key .whenever) _
    exact hItems.of_key
  · exact .nil

/- No two findings in shared parameters are at one place. -/
theorem tidy_sharedParameters
    (version : Version)
    (document : Json) :
    IsTidy [] (sharedParameters version document) := by
  have hClasses : IsTidy (Pointer.key [] "globalSettings") _ :=
    tidy_classes version document
  exact (((((hClasses.under.append
    (.overItems (tidy_member _) _) (by decide)).append
    (.overItems (tidy_securityServer _) _)
      (by decide)).append
    (.overItems (tidy_globalGroup _) _) (by decide)).append
    (.overItems tidy_authority _) (by decide)).append
    (.overItems
      (fun _ _ _ => IsTidy.of_key (tidy_certificate _ _)) _)
      (by decide)).tidy

------------------------------------------------------------
-- Texts of Places
------------------------------------------------------------

/- The keys on the way to the parts of shared parameters. -/
def sharedKeys : List String :=
  [ "globalSettings", "memberClasses", "code", "members",
    "memberClass", "securityServers", "owner", "serverCode",
    "authCertHashes", "clients", "globalGroups", "groupCode",
    "approvedCAs", "name", "topCA", "intermediateCAs", "ocsp",
    "cert", "approvedTSAs" ]

theorem isNamed_of_mem_sharedKeys :
    ∀ key ∈ sharedKeys, (PointerStep.key key).IsNamed := by
  simp [sharedKeys, PointerStep.IsNamed, Json.Number.isDigit]

/- The keys of a pointer are ones of shared parameters. -/
def HasSharedKeys (p : Pointer) : Prop :=
  ∀ key, PointerStep.key key ∈ p → key ∈ sharedKeys

theorem HasSharedKeys.isNamed
    {p : Pointer}
    (hKeys : HasSharedKeys p) :
    p.IsNamed := by
  intro step hMem
  cases step with
  | key name =>
      exact isNamed_of_mem_sharedKeys name (hKeys name hMem)
  | index i => trivial

theorem hasSharedKeys_of_isCertificateField
    {version : Version}
    {p : Pointer}
    (hField : IsCertificateField .sharedParameters version p) :
    HasSharedKeys p := by
  cases hField with
  | approved i hField =>
      rcases hField with hField | ⟨k, hField⟩ <;>
        cases hField <;> simp [HasSharedKeys, sharedKeys]
  | timestamping i => simp [HasSharedKeys, sharedKeys]

/- The place of a broken reference is known from its text. -/
theorem IsBroken.isNamed
    {version : Version}
    {document : Json}
    {p : Pointer}
    {fault : RuleFault}
    (hBroken : IsBroken version document p fault) :
    p.IsNamed := by
  apply HasSharedKeys.isNamed
  cases hBroken with
  | certificate hField _ =>
      exact hasSharedKeys_of_isCertificateField hField
  | client hPlace _ =>
      cases hPlace <;>
        simp [HasSharedKeys, sharedKeys, serverAt, groupAt,
          at_, Pointer.key, Pointer.index]
  | _ =>
      simp [HasSharedKeys, sharedKeys, classAt, memberAt,
        serverAt, hashAt, groupAt, authorityAt, at_,
        Pointer.key, Pointer.index]

------------------------------------------------------------
-- Reports
------------------------------------------------------------

/- Of violations at different places one is at the place of each. -/
theorem filter_path_eq
    {found : List Violation}
    {v : Violation}
    (hOwn : (found.map Violation.path).Nodup)
    (hMem : v ∈ found) :
    found.filter (fun w => w.path = v.path) = [v] :=
  filter_key_eq_singleton Violation.path hOwn hMem

/- Findings at different named places are told at different paths. -/
theorem nodup_paths
    {kind : DocumentKind}
    {version : Version}
    {document : Json}
    (hTidy : IsTidy [] (findings kind version document))
    (hNamed : ∀ p fault,
      (p, fault) ∈ findings kind version document →
      p.IsNamed) :
    ((violations kind version document).map
      Violation.path).Nodup := by
  have hPaths :
      (violations kind version document).map
          Violation.path =
        ((findings kind version document).map
          Prod.fst).map Pointer.render := by
    simp [violations, Violation.located]
  rw [hPaths]
  have hPlaces : ∀ p ∈ (findings kind version document).map
      Prod.fst, p.IsNamed := by
    intro p hMem
    rcases List.mem_map.mp hMem with ⟨⟨q, fault⟩, hFound, rfl⟩
    exact hNamed q fault hFound
  refine List.Nodup.map_on (fun p hp q hq hSame => ?_)
    hTidy.own
  exact Pointer.render_injective (hPlaces p hp)
    (hPlaces q hq) hSame

theorem nodup_violations
    {version : Version}
    {document : Json}
    (hParts : HasSharedParts version document) :
    ((violations .sharedParameters version document).map
      Violation.path).Nodup :=
  nodup_paths (tidy_sharedParameters version document)
    fun _ _ hFound =>
      ((mem_sharedParameters_iff hParts).mp hFound).isNamed

/- Parameters with one group, whose only member is not listed. -/
def smallDocument : Json :=
  .object
    [ ("approvedCAs", .array []),
      ("approvedTSAs", .array []),
      ("generatedAt", .string "2024-01-01T00:00:00Z"),
      ("globalGroups",
        .array
          [ .object
              [ ("description", .string ""),
                ("groupCode", .string "owners"),
                ("members",
                  .array
                    [ .object
                        [ ("memberClass", .string "COM"),
                          ("memberCode", .string "12345") ]
                    ]) ] ]),
      ("globalSettings",
        .object [("ocspFreshnessSeconds", .integer 60)]),
      ("instanceIdentifier", .string "EE"),
      ("members", .array []),
      ("securityServers", .array []),
      ("version", .integer 1) ]

/-
  The report on a document that has the form of shared
  parameters holds one violation at the place of each broken
  reference, with the wording of its fault, and no other.
-/
theorem violations_shared_exact
    {version : Version}
    {schema : ParameterSchema}
    {document : Json}
    (hSchema : ParameterSchema.find? .sharedParameters version =
      some schema)
    (hForm : schema.root.violations document = []) :
    (∀ p fault, IsBroken version document p fault →
      (violations .sharedParameters version document).filter
          (fun v => v.path = p.render) =
        [.located p fault.message]) ∧
    ∀ v ∈ violations .sharedParameters version document,
      ∃ p fault, IsBroken version document p fault ∧
        v = .located p fault.message := by
  have hParts := hasSharedParts_of_accepts hSchema
    (Schema.violations_eq_nil_iff.mp hForm)
  constructor
  · intro p fault hBroken
    have hFound := (mem_sharedParameters_iff hParts).mpr hBroken
    exact filter_path_eq (nodup_violations hParts)
      (List.mem_map.mpr ⟨(p, fault), hFound, rfl⟩)
  · intro v hMem
    rcases List.mem_map.mp hMem with ⟨⟨p, fault⟩, hFound, rfl⟩
    exact ⟨p, fault,
      (mem_sharedParameters_iff hParts).mp hFound, rfl⟩

theorem violations_shared_small :
    (Schema.recordOf Schema.sharedV1).violations
        smallDocument = [] ∧
      (violations .sharedParameters .v1 smallDocument).filter
          (fun v => v.path = "/globalGroups/0/members/0") =
        [ ⟨"/globalGroups/0/members/0",
            "member COM/12345 is not registered"⟩ ] := by
  have hForm : (Schema.recordOf Schema.sharedV1).violations
      smallDocument = [] := by
    decide +kernel
  have hBroken : IsBroken .v1 smallDocument
      (((groupAt 0).key "members").index 0)
      (.unknownMember ⟨"COM", "12345"⟩) := by
    refine .client (.ofGroup 0 0) (.member ⟨rfl, rfl⟩ ?_)
    rintro ⟨i, hClass, -⟩
    have hNone : items "members" smallDocument = [] := rfl
    rw [HasText, memberAt, Pointer.resolve?_key,
      resolve?_index_at, hNone] at hClass
    cases hClass
  have hSchema : ParameterSchema.find? .sharedParameters .v1 =
      some ⟨.sharedParameters, .v1, Schema.sharedV1⟩ := rfl
  refine ⟨hForm, ?_⟩
  exact (violations_shared_exact hSchema hForm).1 _ _ hBroken

end Rules

end Federation
