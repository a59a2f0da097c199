import Federation.Proofs.Generation.Order
import Federation.Proofs.Ties

/-
  The order of services. Time-stamping authorities,
  responders and sources are sorted by what need not tell
  them apart. Registries that list them in different orders
  have the same parameters exactly if those that tie, which
  sorting leaves as they are registered, show the same.

  Main declarations:
    * `Registry.ReordersServices`
    * `Registry.TiesAlike`
    * `Content.authorities_eq_iff`
    * `Content.anchorJson_eq_iff`
    * `Generator.service_order_shown_iff`
-/

namespace Federation

------------------------------------------------------------
-- Services in Another Order
------------------------------------------------------------

/- A certificate with its responders in any order. -/
structure CaInfo.Reorders (c c' : CaInfo) : Prop where
  cert : c.cert = c'.cert
  ocsp : c.ocsp.Perm c'.ocsp

/- An authority, the responders of its certificates in any order. -/
structure CertificationAuthority.Reorders
    (a a' : CertificationAuthority) : Prop where
  name : a.name = a'.name
  authenticationOnly :
    a.authenticationOnly = a'.authenticationOnly
  topCa : a.topCa.Reorders a'.topCa
  intermediateCas : List.Forall₂ CaInfo.Reorders
    a.intermediateCas a'.intermediateCas
  profile :
    a.certificateProfileInfo = a'.certificateProfileInfo

/-
  Registries that differ in nothing but the order of
  time-stamping authorities, of the responders of a
  certificate, and of sources.
-/
structure Registry.ReordersServices
    (r r' : Registry) : Prop where
  instanceIdentifier :
    r.instanceIdentifier = r'.instanceIdentifier
  memberClasses : r.memberClasses = r'.memberClasses
  members : r.members = r'.members
  servers : r.securityServers = r'.securityServers
  authorities : List.Forall₂ CertificationAuthority.Reorders
    r.certificationAuthorities r'.certificationAuthorities
  timestamping : r.timestampingAuthorities.Perm
    r'.timestampingAuthorities
  groups : r.globalGroups = r'.globalGroups
  sources : r.configurationSources.Perm
    r'.configurationSources
  management : r.managementService = r'.managementService
  settings : r.globalSettings = r'.globalSettings

------------------------------------------------------------
-- Services That Tie
------------------------------------------------------------

/- Responders of one address show the same in one order. -/
def CaInfo.TiesAlike (c c' : CaInfo) : Prop :=
  Federation.TiesAlike OcspResponder.url OcspResponder.toJson
    c.ocsp c'.ocsp

/- Those of each certificate of an authority do. -/
structure CertificationAuthority.TiesAlike
    (a a' : CertificationAuthority) : Prop where
  topCa : a.topCa.TiesAlike a'.topCa
  intermediateCas : List.Forall₂ CaInfo.TiesAlike
    a.intermediateCas a'.intermediateCas

/- What a time-stamping authority is ordered by. -/
def TimestampingAuthority.key
    (a : TimestampingAuthority) : String × String :=
  (a.name, a.url)

/-
  How a version shows the certificates of a source: the first
  of them, or from the second version on all of them.
-/
def Content.certsFrom
    (version : Version) :
    CertificateBytes → List CertificateBytes →
      String × Json :=
  if version < .v2 then firstCert else allCerts

/-
  The services in parameters of a kind and version that tie
  with each other, and so are listed as they are registered,
  show the same in the same order.
-/
def Registry.TiesAlike
    (version : Version)
    (kind : DocumentKind)
    (r r' : Registry) : Prop :=
  match kind with
  | .privateParameters =>
      Federation.TiesAlike ConfigurationSource.downloadUrl
        (Content.sourceJson (Content.certsFrom version))
        r.configurationSources r'.configurationSources
  | .sharedParameters =>
      List.Forall₂ CertificationAuthority.TiesAlike
          r.certificationAuthorities
          r'.certificationAuthorities ∧
        Federation.TiesAlike TimestampingAuthority.key
          TimestampingAuthority.toJson
          r.timestampingAuthorities r'.timestampingAuthorities

------------------------------------------------------------
-- Objects of the Same Keys
------------------------------------------------------------

theorem Json.ofMembers_eq_iff
    {parts parts' : List (String × Json)}
    (hSame : parts.map Prod.fst = parts'.map Prod.fst)
    (hKeys : (parts.map Prod.fst).Nodup) :
    Json.ofMembers parts = Json.ofMembers parts' ↔
      parts = parts' := by
  rw [ofMembers, ofMembers, Json.object.injEq]
  exact Table.ofList_eq_iff hSame hKeys

theorem Json.ofList_eq_iff
    {α : Type}
    {toJson : α → Json}
    {xs ys : List α} :
    Json.ofList toJson xs = Json.ofList toJson ys ↔
      xs.map toJson = ys.map toJson := by
  rw [ofList, ofList, Json.array.injEq]

/- Lists are mapped to the same if their places are. -/
theorem map_eq_map_iff_of_forall₂
    {α β : Type}
    {Same Alike : α → α → Prop}
    {f : α → β}
    {xs ys : List α}
    (hSame : List.Forall₂ Same xs ys)
    (hAlike : ∀ a b, Same a b → (f a = f b ↔ Alike a b)) :
    xs.map f = ys.map f ↔ List.Forall₂ Alike xs ys := by
  induction hSame with
  | nil => simp
  | cons hHead _ ih =>
      rw [List.map_cons, List.map_cons, List.cons.injEq,
        List.forall₂_cons, hAlike _ _ hHead, ih]

------------------------------------------------------------
-- Certification Authorities
------------------------------------------------------------

theorem OcspResponder.get?_url (o : OcspResponder) :
    o.toJson.get? "url" = some (.string o.url) := by
  rw [OcspResponder.toJson, Json.get?_ofMembers]
  · simp
  · cases o.cert <;> simp

theorem OcspResponder.url_eq_of_toJson_eq
    {o o' : OcspResponder}
    (hSame : o.toJson = o'.toJson) :
    o.url = o'.url := by
  have hUrl := get?_url o
  rw [hSame, get?_url] at hUrl
  simpa using hUrl.symm

namespace Content

theorem caInfo_eq_iff
    {c c' : CaInfo}
    (hSame : c.Reorders c') :
    caInfo c = caInfo c' ↔ c.TiesAlike c' := by
  rw [caInfo, caInfo, Json.ofMembers_eq_iff (by rfl) (by simp),
    hSame.cert]
  simp only [List.cons.injEq, Prod.mk.injEq, true_and,
    and_true, Json.ofList_eq_iff, sortByText]
  exact map_sortBy_eq_iff fun _ _ _ _ =>
    OcspResponder.url_eq_of_toJson_eq

section Authorities

variable {a a' : CertificationAuthority}

theorem authorityParts_eq_iff
    (hSame : a.Reorders a') :
    authorityParts a = authorityParts a' ↔
      a.TiesAlike a' := by
  have hIntermediate := map_eq_map_iff_of_forall₂
    hSame.intermediateCas fun _ _ => caInfo_eq_iff
  rw [authorityParts, authorityParts, hSame.name,
    hSame.authenticationOnly]
  simp only [List.cons.injEq, Prod.mk.injEq, true_and,
    and_true, Json.ofList_eq_iff, caInfo_eq_iff hSame.topCa,
    hIntermediate]
  constructor
  · rintro ⟨hTop, hOthers⟩
    exact ⟨hTop, hOthers⟩
  · rintro ⟨hTop, hOthers⟩
    exact ⟨hTop, hOthers⟩

/-
  A version's way to show an authority: under its name, and
  with nothing else that depends on the order of responders.
-/
structure ShowsResponders
    (render : CertificationAuthority → Json) : Prop where
  name : ∀ a, (render a).get? "name" = some (.string a.name)
  ties : ∀ a a', a.Reorders a' →
    (render a = render a' ↔ a.TiesAlike a')

theorem showsResponders_authority :
    ShowsResponders authority where
  name a := by
    rw [authority, Json.get?_ofMembers
      (by simp [authorityParts])]
    simp [authorityParts]
  ties a a' hSame := by
    rw [authority, authority, Json.ofMembers_eq_iff (by rfl)
      (by simp [authorityParts]), authorityParts_eq_iff hSame]

theorem showsResponders_authorityWithProfile :
    ShowsResponders authorityWithProfile where
  name a := by
    rw [authorityWithProfile, Json.get?_ofMembers
      (by simp [authorityParts])]
    simp [authorityParts]
  ties a a' hSame := by
    rw [authorityWithProfile, authorityWithProfile,
      Json.ofMembers_eq_iff (by rfl) (by simp [authorityParts]),
      hSame.profile, List.append_cancel_right_eq,
      authorityParts_eq_iff hSame]

end Authorities

section Registries

variable {r r' : Registry}

/-
  Authorities keep their places, so that only what they show
  of their responders can differ.
-/
theorem authorities_eq_iff
    {render : CertificationAuthority → Json}
    (hRender : ShowsResponders render)
    (hSame : List.Forall₂ CertificationAuthority.Reorders
      r.certificationAuthorities
      r'.certificationAuthorities) :
    authorities render r = authorities render r' ↔
      List.Forall₂ CertificationAuthority.TiesAlike
        r.certificationAuthorities
        r'.certificationAuthorities := by
  have hShows : ∀ a b : CertificationAuthority,
      render a = render b → a.name = b.name := by
    intro a b hEqual
    have hName := hRender.name a
    rw [hEqual, hRender.name] at hName
    simpa using hName.symm
  have hNames := Reordered.map_eq_of_forall₂ hSame
    fun _ _ => CertificationAuthority.Reorders.name
  have hSorted := @map_sortBy_eq_iff _ _ _ _ Ord.compare _ _
    CertificationAuthority.name render
    r.certificationAuthorities r'.certificationAuthorities
    fun a _ b _ => hShows a b
  rw [authorities, authorities, Json.ofList_eq_iff,
    sortByText, sortByText, hSorted,
    ← map_eq_map_iff_of_forall₂ hSame hRender.ties]
  constructor
  · intro hTies
    exact hTies.map_eq hNames
  · intro hEqual
    exact TiesAlike.of_map_eq (fun a _ b _ => hShows a b)
      hEqual

------------------------------------------------------------
-- Time-Stamping Authorities
------------------------------------------------------------

/- Names are compared before addresses. -/
def compareTimestampingKeys
    (a b : String × String) : Ordering :=
  (Ord.compare a.1 b.1).then (Ord.compare a.2 b.2)

instance : Std.TransCmp compareTimestampingKeys :=
  transCmp_then (transCmp_on Ord.compare Prod.fst)
    (transCmp_on Ord.compare Prod.snd)

instance : Std.LawfulEqCmp compareTimestampingKeys where
  compare_self {a} := by simp [compareTimestampingKeys]
  eq_of_compare {a b} hSame := by
    rw [compareTimestampingKeys, Ordering.then_eq_eq] at hSame
    rcases hSame with ⟨hName, hUrl⟩
    exact Prod.ext (Std.LawfulEqCmp.eq_of_compare hName)
      (Std.LawfulEqCmp.eq_of_compare hUrl)

theorem key_eq_of_toJson_eq
    {a b : TimestampingAuthority}
    (hSame : a.toJson = b.toJson) :
    a.key = b.key := by
  rw [TimestampingAuthority.toJson,
    TimestampingAuthority.toJson,
    Json.ofMembers_eq_iff (by rfl) (by simp)] at hSame
  simp only [List.cons.injEq, Prod.mk.injEq,
    Json.string.injEq, true_and] at hSame
  exact Prod.ext hSame.1 hSame.2.1

theorem timestamping_eq_iff :
    timestamping r = timestamping r' ↔
      TiesAlike TimestampingAuthority.key
        TimestampingAuthority.toJson
        r.timestampingAuthorities
        r'.timestampingAuthorities := by
  rw [timestamping, timestamping, Json.ofList_eq_iff]
  exact @map_sortBy_eq_iff _ _ _ _ compareTimestampingKeys _ _
    TimestampingAuthority.key TimestampingAuthority.toJson _ _
    fun _ _ _ _ => key_eq_of_toJson_eq

------------------------------------------------------------
-- Sources
------------------------------------------------------------

section Sources

variable
  {render : CertificateBytes → List CertificateBytes →
    String × Json}

/- The places of sources are not shown. -/
theorem map_sortedSources
    {β : Type}
    (f : ConfigurationSource → β)
    (r : Registry) :
    (sortedSources r).map (fun entry => f entry.1) =
      (sortByText ConfigurationSource.downloadUrl
        r.configurationSources).map f := by
  have hPlaces : r.configurationSources.zipIdx.map
      (fun entry => (entry.1.downloadUrl, f entry.1)) =
      r.configurationSources.map
        fun s => (s.downloadUrl, f s) := by
    have hFirst := congrArg
      (List.map fun s => (s.downloadUrl, f s))
      (List.zipIdx_map_fst 0 r.configurationSources)
    rwa [List.map_map] at hFirst
  rw [sortedSources, sortByText, sortByText,
    map_sortBy _ _ r.configurationSources.zipIdx,
    map_sortBy _ _ r.configurationSources, hPlaces]

theorem downloadUrl_eq_of_sourceJson_eq
    {s s' : ConfigurationSource}
    (hKey : ∀ cert certs,
      (render cert certs).1 ≠ "downloadUrl")
    (hFirst : s.verificationCerts ≠ [])
    (hSecond : s'.verificationCerts ≠ [])
    (hSame : sourceJson render s = sourceJson render s') :
    s.downloadUrl = s'.downloadUrl := by
  have hUrl : ∀ t : ConfigurationSource,
      t.verificationCerts ≠ [] →
      (sourceJson render t).get? "downloadUrl" =
        some (.string t.downloadUrl) := by
    intro t hSome
    rcases List.exists_cons_of_ne_nil hSome with
      ⟨cert, certs, hCerts⟩
    have hOther := (hKey cert certs).symm
    rw [sourceJson, hCerts]
    dsimp only
    rw [Json.get?_ofMembers (by simp [hOther])]
    simp
  have hShown := hUrl s hFirst
  rw [hSame, hUrl s' hSecond] at hShown
  simpa using hShown.symm

theorem anchorJson_eq_iff
    (hKey : ∀ cert certs,
      (render cert certs).1 ≠ "downloadUrl")
    (hFirst : ∀ s ∈ r.configurationSources,
      s.verificationCerts ≠ [])
    (hSecond : ∀ s ∈ r'.configurationSources,
      s.verificationCerts ≠ []) :
    anchorJson render r = anchorJson render r' ↔
      TiesAlike ConfigurationSource.downloadUrl
        (sourceJson render) r.configurationSources
        r'.configurationSources := by
  rw [anchorJson, anchorJson,
    Json.ofMembers_eq_iff (by rfl) (by simp)]
  simp only [List.cons.injEq, Prod.mk.injEq, true_and,
    and_true, Json.array.injEq, map_sortedSources, sortByText]
  exact map_sortBy_eq_iff fun s hs s' hs' =>
    downloadUrl_eq_of_sourceJson_eq hKey (hFirst s hs)
      (hSecond s' hs')

end Sources

------------------------------------------------------------
-- Contents
------------------------------------------------------------

theorem sharedParts_eq_iff
    {render : CertificationAuthority → Json}
    {settings : Json.Members}
    (version : Version)
    (hRender : ShowsResponders render)
    (hSame : r.ReordersServices r') :
    sharedParts render settings r =
        sharedParts render settings r' ↔
      r.TiesAlike version .sharedParameters r' := by
  simp only [sharedParts, members, securityServers,
    globalGroups, hSame.instanceIdentifier, hSame.members,
    hSame.servers, hSame.groups, hSame.settings,
    List.cons.injEq, Prod.mk.injEq, true_and, and_true,
    authorities_eq_iff hRender hSame.authorities,
    timestamping_eq_iff, Registry.TiesAlike]

/- Registries with the same sources have the same parts. -/
theorem hasPrivateParts_of_reorders
    (hSame : r.ReordersServices r')
    (hParts : HasPrivateParts r) :
    HasPrivateParts r' where
  sources := by
    have hSources := hSame.sources.symm
    intro hNone
    rw [hNone] at hSources
    exact hParts.sources hSources.nil_eq.symm
  interval := hSame.settings ▸ hParts.interval
  certificates s hs :=
    hParts.certificates s (hSame.sources.mem_iff.mpr hs)

theorem anchorJson_eq_iff_of_reorders
    (version : Version)
    (hSame : r.ReordersServices r')
    (hParts : HasPrivateParts r) :
    anchorJson (certsFrom version) r =
        anchorJson (certsFrom version) r' ↔
      r.TiesAlike version .privateParameters r' := by
  refine anchorJson_eq_iff ?_ hParts.certificates
    (hasPrivateParts_of_reorders hSame hParts).certificates
  intro cert certs
  unfold certsFrom
  split <;> simp [firstCert, allCerts]

theorem privatePartsV1_eq_iff
    (hSame : r.ReordersServices r')
    (hParts : HasPrivateParts r) :
    privatePartsV1 r = privatePartsV1 r' ↔
      r.TiesAlike .v1 .privateParameters r' := by
  rw [← anchorJson_eq_iff_of_reorders .v1 hSame hParts]
  simp only [privatePartsV1, hSame.instanceIdentifier,
    hSame.management, hSame.settings, List.cons.injEq,
    Prod.mk.injEq, true_and, and_true]
  exact Iff.rfl

theorem operatorServers_eq_of_services
    (hSame : r.ReordersServices r') :
    operatorServers r = operatorServers r' := by
  rw [operatorServers, operatorServers, Registry.operator,
    Registry.operator, hSame.servers, hSame.management]

theorem privatePartsV2_eq_iff
    {code : String}
    (hSame : r.ReordersServices r')
    (hParts : HasPrivateParts r) :
    privatePartsV2 r code = privatePartsV2 r' code ↔
      r.TiesAlike .v2 .privateParameters r' := by
  rw [← anchorJson_eq_iff_of_reorders .v2 hSame hParts]
  simp only [privatePartsV2, hSame.instanceIdentifier,
    operatorServers_eq_of_services hSame, Registry.operator,
    hSame.management, hSame.settings, List.cons.injEq,
    Prod.mk.injEq, true_and, and_true]
  exact Iff.rfl

end Registries

end Content

------------------------------------------------------------
-- Small Registries
------------------------------------------------------------

namespace Registry

/- The small registry with an authority that has responders. -/
def smallAuthority (ocsp : List OcspResponder) : Registry :=
  { Registry.small .small with
    certificationAuthorities :=
      [⟨"CA", false, ⟨.small, ocsp⟩, [], none⟩] }

theorem reorders_smallAuthority
    {ocsp ocsp' : List OcspResponder}
    (hPerm : ocsp.Perm ocsp') :
    (smallAuthority ocsp).ReordersServices
      (smallAuthority ocsp') where
  instanceIdentifier := rfl
  memberClasses := rfl
  members := rfl
  servers := rfl
  authorities :=
    .cons ⟨rfl, rfl, ⟨rfl, hPerm⟩, .nil, rfl⟩ .nil
  timestamping := .nil
  groups := rfl
  sources := .refl _
  management := rfl
  settings := rfl

theorem tiesAlike_smallAuthority_iff
    {version : Version}
    {ocsp ocsp' : List OcspResponder} :
    (smallAuthority ocsp).TiesAlike version .sharedParameters
        (smallAuthority ocsp') ↔
      Federation.TiesAlike OcspResponder.url
        OcspResponder.toJson ocsp ocsp' := by
  have hNone : Federation.TiesAlike TimestampingAuthority.key
      TimestampingAuthority.toJson [] [] :=
    fun _ => rfl
  constructor
  · rintro ⟨hAuthorities, -⟩
    exact (List.forall₂_cons.mp hAuthorities).1.topCa
  · intro hTies
    exact ⟨.cons ⟨hTies, .nil⟩ .nil, hNone⟩

theorem isSharable_smallAuthority
    {ocsp : List OcspResponder}
    (hUrls : ∀ o ∈ ocsp, Schema.IsUrl o.url)
    (hCerts : ∀ o ∈ ocsp, ∀ cert ∈ o.cert, cert = .small) :
    (smallAuthority ocsp).IsSharable := by
  have hDer : CertificateBytes.small.IsDer :=
    CertificateBytes.isSome_ofDer?_small
  have hSmall := isSharable_small .small
  exact { hSmall with
    authorities := List.forall_mem_singleton.mpr
      ⟨by simp, List.forall_mem_singleton.mpr
        ⟨hDer, hUrls, fun o ho cert hCert =>
          hCerts o ho cert hCert ▸ hDer⟩⟩
    authorityNames := List.nodup_singleton _
    servers := fun s hs =>
      have hServer := hSmall.servers s hs
      ⟨hServer.code, hServer.address, hServer.owner,
        hServer.clients⟩
    groups := fun _ hGroup =>
      absurd hGroup List.not_mem_nil }

theorem hasValidParts_smallAuthority
    (ocsp : List OcspResponder) :
    (smallAuthority ocsp).HasValidParts
      Content.firstCerts := by
  have hDer : CertificateBytes.small.IsDer :=
    CertificateBytes.isSome_ofDer?_small
  have hInstance : Schema.IsCode "EE" :=
    ⟨by decide, by decide⟩
  have hSource : Schema.IsUrl "http://c" := by
    unfold Schema.IsUrl
    decide
  have hManagement : Schema.IsUrl "http://m" := by
    unfold Schema.IsUrl
    decide
  exact ⟨hInstance,
    List.forall_mem_singleton.mpr hSource,
    List.forall_mem_singleton.mpr
      (List.forall_mem_singleton.mpr hDer),
    hManagement, hDer⟩

/- Two responders of different addresses, in either order. -/
def smallResponders : Registry :=
  smallAuthority [⟨"http://o", none⟩, ⟨"http://p", none⟩]

def smallRespondersBackward : Registry :=
  smallAuthority [⟨"http://p", none⟩, ⟨"http://o", none⟩]

/-
  Two responders of one address, of which one has a
  certificate, in either order.
-/
def smallTied : Registry :=
  smallAuthority
    [⟨"http://o", none⟩, ⟨"http://o", some .small⟩]

def smallTiedBackward : Registry :=
  smallAuthority
    [⟨"http://o", some .small⟩, ⟨"http://o", none⟩]

end Registry

------------------------------------------------------------
-- Generators
------------------------------------------------------------

namespace Generator

variable {g : Generator} {kind : DocumentKind}
variable {now later : Instant} {r r' : Registry}
variable {d : Document kind}

/-
  What a document at another instant, and of a registry in
  another order, shows: the same content and digest exactly
  if some condition holds.
-/
def ShowsOrder
    (g : Generator)
    (later : Instant)
    (r' : Registry)
    (d : Document kind)
    (Alike : Prop) : Prop :=
  ∃ e, g.generate kind later r' = .ok e ∧
    (d.SameContent e ↔ Alike) ∧
    ∃ digest, d.digest = .ok digest ∧
      (Alike → e.digest = .ok digest)

/- Contents of the same keys are compared by their parts. -/
theorem showsOrder_of_parts
    {version : Version}
    {content : DocumentKind → Registry →
      Except GenerationFault Json.Members}
    {parts parts' : List (String × Json)}
    {Alike : Prop}
    (hFirst : content kind r = .ok (Table.ofList parts))
    (hSecond : content kind r' = .ok (Table.ofList parts'))
    (hSame : parts.map Prod.fst = parts'.map Prod.fst)
    (hKeys : (Document.envelopeKeys ++
      parts.map Prod.fst).Nodup)
    (hExact : ∀ part ∈ parts, part.2.IsExact)
    (hAlike : parts = parts' ↔ Alike)
    (hGenerate :
      (ofContent version content).generate kind now r =
        .ok d) :
    (ofContent version content).ShowsOrder later r' d
      Alike := by
  rcases generate_ofContent_iff.mp hGenerate with
    ⟨members, hMembers, rfl⟩
  rw [hFirst] at hMembers
  rcases Except.ok.inj hMembers with rfl
  rcases Document.digest_new_isOk kind version now hExact with
    ⟨digest, hDigest⟩
  refine ⟨Document.new kind version later
      (Table.ofList parts'),
    generate_ofContent_iff.mpr ⟨_, hSecond, rfl⟩, ?_,
    digest, hDigest, ?_⟩
  · have hContent : ∀ t t' : Json.Members,
        (Document.new kind version now t).SameContent
            (Document.new kind version later t') ↔
          (Document.new kind version now t).content =
            (Document.new kind version later t').content :=
      fun _ _ => and_iff_right rfl
    rw [hContent,
      Document.new_content kind version now hKeys,
      Document.new_content kind version later
        (hSame ▸ hKeys),
      Table.ofList_eq_iff hSame
        (List.nodup_append.mp hKeys).2.1, hAlike]
  · intro hTies
    rw [← hAlike.mpr hTies]
    exact hDigest

/- Shared parameters of some form. -/
theorem showsOrder_shared
    {version : Version}
    {content : DocumentKind → Registry →
      Except GenerationFault Json.Members}
    {render : CertificationAuthority → Json}
    {settings : Json.Members}
    {d : Document .sharedParameters}
    (hRender : Content.ShowsResponders render)
    (hExact : ∀ a, (render a).IsExact)
    (hSettings : ∀ part ∈ settings, part.2.IsExact)
    (hFirst : content .sharedParameters r =
      Content.shared render settings r)
    (hSecond : content .sharedParameters r' =
      Content.shared render settings r')
    (hSame : r.ReordersServices r')
    (hGenerate : (ofContent version content).generate
      .sharedParameters now r = .ok d) :
    (ofContent version content).ShowsOrder later r' d
      (r.TiesAlike version .sharedParameters r') := by
  rcases generate_ofContent_iff.mp hGenerate with
    ⟨members, hMembers, -⟩
  rw [hFirst] at hMembers
  rcases Content.shared_eq_ok_iff.mp hMembers with
    ⟨hSeconds, rfl⟩
  have hAgain : Content.shared render settings r' = .ok _ :=
    Content.shared_eq_ok_iff.mpr
      ⟨hSame.settings ▸ hSeconds, rfl⟩
  exact showsOrder_of_parts (hFirst.trans hMembers)
    (hSecond.trans hAgain) rfl
    (Content.envelope_sharedParts_nodup render settings r)
    (Content.isExact_sharedParts r hExact hSettings)
    (Content.sharedParts_eq_iff version hRender hSame)
    hGenerate

theorem showsOrder_privateV1
    {d : Document .privateParameters}
    (hSame : r.ReordersServices r')
    (hGenerate :
      v1.generate .privateParameters now r = .ok d) :
    v1.ShowsOrder later r' d
      (r.TiesAlike .v1 .privateParameters r') := by
  rcases generate_ofContent_iff.mp hGenerate with
    ⟨members, hMembers, -⟩
  rcases Content.privateV1_eq_ok_iff.mp hMembers with
    ⟨hParts, rfl⟩
  have hAgain : Content.privateV1 r' = .ok _ :=
    Content.privateV1_eq_ok_iff.mpr
      ⟨Content.hasPrivateParts_of_reorders hSame hParts, rfl⟩
  exact showsOrder_of_parts hMembers hAgain rfl
    (Content.envelope_privatePartsV1_nodup r)
    (Content.isExact_privatePartsV1 r)
    (Content.privatePartsV1_eq_iff hSame hParts) hGenerate

theorem showsOrder_privateV2
    {d : Document .privateParameters}
    (hSame : r.ReordersServices r')
    (hGenerate :
      v2.generate .privateParameters now r = .ok d) :
    v2.ShowsOrder later r' d
      (r.TiesAlike .v2 .privateParameters r') := by
  rcases generate_ofContent_iff.mp hGenerate with
    ⟨members, hMembers, -⟩
  rcases Content.privateV2_eq_ok_iff.mp hMembers with
    ⟨hParts, code, hCode, rfl⟩
  have hServers :=
    Content.operatorServers_eq_of_services hSame
  rw [Content.managementServer_congr hSame.management
    (by rw [hServers])] at hCode
  have hAgain : Content.privateV2 r' = .ok _ :=
    Content.privateV2_eq_ok_iff.mpr
      ⟨Content.hasPrivateParts_of_reorders hSame hParts,
        code, hCode, rfl⟩
  exact showsOrder_of_parts hMembers hAgain rfl
    (Content.envelope_privatePartsV2_nodup r code)
    (Content.isExact_privatePartsV2 r code)
    (Content.privatePartsV2_eq_iff hSame hParts) hGenerate

/-
  What is generated of a registry is generated at any instant
  of one with the same services in another order. It has the
  same content and the same digest if services that tie show
  the same in both, and another content if they do not: the
  order of registration of services with one address is what
  the documents show of it, and all that they show.
-/
theorem service_order_shown_iff
    (hBuiltin : g = .v1 ∨ g = .v2)
    (hSame : r.ReordersServices r')
    (hGenerate : g.generate kind now r = .ok d) :
    ∃ e, g.generate kind later r' = .ok e ∧
      (d.SameContent e ↔ r.TiesAlike g.version kind r') ∧
      ∃ digest, d.digest = .ok digest ∧
        (r.TiesAlike g.version kind r' →
          e.digest = .ok digest) := by
  rcases hBuiltin with rfl | rfl
  · cases kind with
    | privateParameters =>
        exact showsOrder_privateV1 hSame hGenerate
    | sharedParameters =>
        exact showsOrder_shared
          Content.showsResponders_authority
          Content.isExact_authority (List.forall_mem_nil _)
          rfl rfl hSame hGenerate
  · cases kind with
    | privateParameters =>
        exact showsOrder_privateV2 hSame hGenerate
    | sharedParameters =>
        have hClasses : Content.memberClasses r' =
            Content.memberClasses r := by
          rw [Content.memberClasses, Content.memberClasses,
            hSame.memberClasses]
        have hSecond : Content.sharedV2 r' =
            Content.shared Content.authorityWithProfile
              [("memberClasses", Content.memberClasses r)]
              r' := by
          rw [Content.sharedV2, hClasses]
        exact showsOrder_shared
          Content.showsResponders_authorityWithProfile
          Content.isExact_authorityWithProfile
          (List.forall_mem_singleton.mpr
            (Content.isExact_memberClasses r))
          rfl hSecond hSame hGenerate

theorem exists_generate_smallAuthority
    (now : Instant)
    (ocsp : List OcspResponder) :
    (∃ p, v1.generate .privateParameters now
        (.smallAuthority ocsp) = .ok p) ∧
      ∃ d, v1.generate .sharedParameters now
        (.smallAuthority ocsp) = .ok d := by
  have hSettings :
      (Registry.smallAuthority ocsp).globalSettings =
        .initial :=
    rfl
  have hPrivate :
      Content.privateV1 (.smallAuthority ocsp) = .ok _ :=
    Content.privateV1_eq_ok_iff.mpr
      ⟨⟨by simp [Registry.smallAuthority, Registry.small],
        hSettings ▸ by decide,
        List.forall_mem_singleton.mpr (by simp)⟩, rfl⟩
  have hShared :
      Content.sharedV1 (.smallAuthority ocsp) = .ok _ :=
    Content.shared_eq_ok_iff.mpr
      ⟨hSettings ▸ by decide, rfl⟩
  exact ⟨⟨_, generate_ofContent_iff.mpr ⟨_, hPrivate, rfl⟩⟩,
    _, generate_ofContent_iff.mpr ⟨_, hShared, rfl⟩⟩

/-
  Two responders of different addresses are registered in one
  order and in the other. The shared parameters of the start
  of 2025 and of the start of 2026 do not tell which.
-/
theorem service_order_shown_small :
    Registry.smallResponders.ReordersServices
        .smallRespondersBackward ∧
    ∃ d e, v1.generate .sharedParameters ⟨1735689600, 0⟩
          Registry.smallResponders = .ok d ∧
        v1.generate .sharedParameters ⟨1767225600, 0⟩
          Registry.smallRespondersBackward = .ok e ∧
        d.SameContent e ∧
        ∃ digest, d.digest = .ok digest ∧
          e.digest = .ok digest := by
  have hSwap : List.Perm
      [⟨"http://o", none⟩, ⟨"http://p", none⟩]
      [⟨"http://p", none⟩, (⟨"http://o", none⟩ :
        OcspResponder)] :=
    .swap _ _ _
  have hSame : Registry.smallResponders.ReordersServices
      .smallRespondersBackward :=
    Registry.reorders_smallAuthority hSwap
  have hTies : Registry.smallResponders.TiesAlike .v1
      .sharedParameters .smallRespondersBackward :=
    Registry.tiesAlike_smallAuthority_iff.mpr
      (TiesAlike.of_nodup hSwap (by decide))
  rcases (exists_generate_smallAuthority ⟨1735689600, 0⟩
    _).2 with ⟨d, hGenerate⟩
  rcases service_order_shown_iff (Or.inl rfl) hSame
      hGenerate with
    ⟨e, hAgain, hShows, digest, hDigest, hDigests⟩
  exact ⟨hSame, d, e, hGenerate, hAgain, hShows.mpr hTies,
    digest, hDigest, hDigests hTies⟩

/-
  One of two responders of one address has a certificate. The
  documents of the registry are valid, and with the responders
  the other way round the shared ones have another content.
-/
theorem service_order_shown_tied :
    Registry.smallTied.ReordersServices .smallTiedBackward ∧
    ∃ p d e,
      v1.generate .privateParameters ⟨1735689600, 0⟩
          Registry.smallTied = .ok p ∧
        v1.validate .privateParameters p = .ok () ∧
        v1.generate .sharedParameters ⟨1735689600, 0⟩
          Registry.smallTied = .ok d ∧
        v1.validate .sharedParameters d = .ok () ∧
        v1.generate .sharedParameters ⟨1735689600, 0⟩
          Registry.smallTiedBackward = .ok e ∧
        ¬ d.SameContent e := by
  have hNow : Instant.IsPlain ⟨1735689600, 0⟩ :=
    ⟨by decide, by decide⟩
  have hUrl : Schema.IsUrl "http://o" := by
    unfold Schema.IsUrl
    decide
  have hSame : Registry.smallTied.ReordersServices
      .smallTiedBackward :=
    Registry.reorders_smallAuthority (.swap _ _ _)
  have hSharable : Registry.smallTied.IsSharable :=
    Registry.isSharable_smallAuthority (by simp [hUrl])
      (by simp)
  rcases exists_generate_smallAuthority ⟨1735689600, 0⟩ _ with
    ⟨⟨p, hPrivate⟩, d, hShared⟩
  rcases showsOrder_shared Content.showsResponders_authority
      Content.isExact_authority (List.forall_mem_nil _) rfl rfl
      hSame hShared with
    ⟨e, hAgain, hShows, -⟩
  refine ⟨hSame, p, d, e, hPrivate,
    (valid_generated_privateV1 hNow hPrivate).2.mpr
      (Registry.hasValidParts_smallAuthority _),
    hShared,
    (valid_generated_sharedV1 hNow hShared).2.mpr hSharable,
    hAgain, ?_⟩
  intro hContent
  have hTies := Registry.tiesAlike_smallAuthority_iff.mp
    (hShows.mp hContent) "http://o"
  -- The first of them has a certificate in one of the two.
  exact absurd hTies (by decide)

end Generator

end Federation
