import Federation.Proofs.Certificate.Gate
import Federation.Proofs.Generation.Documents
import Federation.Proofs.Pointer
import Federation.Proofs.Rules.Places

/-
  The certificates of a registry and their labels: each
  place of a certificate is listed once, its label is the
  path to the certificate's text in the registry's JSON form,
  and the check of all of them names the first that fails.

  Main declarations:
    * `CertPlace`
    * `Registry.certAt?`
    * `Registry.mem_certificates_iff`
    * `Registry.resolve?_pointer`
    * `Registry.verifyAll_eq_error_iff`
    * `Registry.certificates_exact`
-/

namespace Federation

------------------------------------------------------------
-- Places
------------------------------------------------------------

/- The topmost entry of an authority, or an intermediate one. -/
inductive InfoPlace where
| top
| intermediate (k : Nat)
deriving DecidableEq, Repr

/- A place where a registry may hold a certificate. -/
inductive CertPlace where
| source (i j : Nat)
| management
| server (i j : Nat)
| authority (i : Nat) (info : InfoPlace)
| responder (i : Nat) (info : InfoPlace) (m : Nat)
| timestamping (i : Nat)
deriving DecidableEq, Repr

/- The entry of an authority at a place. -/
def CertificationAuthority.infoAt?
    (a : CertificationAuthority) : InfoPlace → Option CaInfo
| .top => some a.topCa
| .intermediate k => a.intermediateCas[k]?

/- The certificate that a registry holds at a place. -/
def Registry.certAt?
    (r : Registry) : CertPlace → Option CertificateBytes
| .source i j => do
    let source ← r.configurationSources[i]?
    source.verificationCerts[j]?
| .management =>
    some r.managementService.authCertRegServiceCert
| .server i j => do
    let server ← r.securityServers[i]?
    server.authCerts[j]?
| .authority i info => do
    let authority ← r.certificationAuthorities[i]?
    let entry ← authority.infoAt? info
    some entry.cert
| .responder i info m => do
    let authority ← r.certificationAuthorities[i]?
    let entry ← authority.infoAt? info
    let responder ← entry.ocsp[m]?
    responder.cert
| .timestamping i => do
    let authority ← r.timestampingAuthorities[i]?
    some authority.cert

/- The way from an authority to one of its entries. -/
def InfoPlace.pointer : InfoPlace → Pointer
| .top => [.key "topCa"]
| .intermediate k => [.key "intermediateCas", .index k]

/- The way from a registry to a certificate. -/
def CertPlace.pointer : CertPlace → Pointer
| .source i j =>
    [ .key "configurationSources", .index i,
      .key "verificationCerts", .index j ]
| .management =>
    [.key "managementService", .key "authCertRegServiceCert"]
| .server i j =>
    [ .key "securityServers", .index i,
      .key "authCerts", .index j ]
| .authority i info =>
    .key "certificationAuthorities" :: .index i ::
      (info.pointer ++ [.key "cert"])
| .responder i info m =>
    .key "certificationAuthorities" :: .index i ::
      (info.pointer ++
        [.key "ocsp", .index m, .key "cert"])
| .timestamping i =>
    [ .key "timestampingAuthorities", .index i,
      .key "cert" ]

------------------------------------------------------------
-- Labels of Places
------------------------------------------------------------

/- The keys on the way to a certificate have no marks. -/
theorem CertPlace.hasPlainKeys_pointer
    (place : CertPlace) :
    place.pointer.HasPlainKeys := by
  have hInfo : ∀ info : InfoPlace,
      info.pointer.HasPlainKeys := by
    intro info
    cases info <;> simp [InfoPlace.pointer] <;> decide
  cases place <;> simp [pointer, hInfo] <;> decide

/- A label is read as the path that it was written for. -/
theorem CertPlace.ofLabel?_label
    (place : CertPlace) :
    Pointer.ofLabel? place.pointer.label =
      some place.pointer := by
  have hPlain := place.hasPlainKeys_pointer
  cases place <;> exact Pointer.ofLabel?_label hPlain

/- The ways to two entries part where the entries differ. -/
theorem InfoPlace.pointer_append_inj
    {info other : InfoPlace}
    {rest more : Pointer}
    (hEqual : info.pointer ++ rest = other.pointer ++ more) :
    info = other ∧ rest = more := by
  cases info <;> cases other <;>
    simp_all [InfoPlace.pointer]

theorem CertPlace.pointer_injective
    {first second : CertPlace}
    (hPointer : first.pointer = second.pointer) :
    first = second := by
  cases first with
  | authority i info =>
      cases second with
      | authority k other =>
          simp only [pointer, List.cons.injEq, true_and,
            PointerStep.index.injEq] at hPointer
          rcases hPointer with ⟨hIndex, hRest⟩
          have hInfo := InfoPlace.pointer_append_inj hRest
          rw [hIndex, hInfo.1]
      | responder k other m =>
          simp only [pointer, List.cons.injEq, true_and]
            at hPointer
          have hInfo :=
            InfoPlace.pointer_append_inj hPointer.2
          simp at hInfo
      | source _ _ | management | server _ _
      | timestamping _ => simp [pointer] at hPointer
  | responder i info m =>
      cases second with
      | authority k other =>
          simp only [pointer, List.cons.injEq, true_and]
            at hPointer
          have hInfo :=
            InfoPlace.pointer_append_inj hPointer.2
          simp at hInfo
      | responder k other l =>
          simp only [pointer, List.cons.injEq, true_and,
            PointerStep.index.injEq] at hPointer
          rcases hPointer with ⟨hIndex, hRest⟩
          rcases InfoPlace.pointer_append_inj hRest with
            ⟨hInfo, hLast⟩
          cases hLast
          rw [hIndex, hInfo]
      | source _ _ | management | server _ _
      | timestamping _ => simp [pointer] at hPointer
  | source _ _ | management | server _ _ | timestamping _ =>
      cases second <;> simp_all [pointer]

/- Different places have different labels. -/
theorem CertPlace.label_injective
    {first second : CertPlace}
    (hLabel : first.pointer.label = second.pointer.label) :
    first = second := by
  have hRead := congrArg Pointer.ofLabel? hLabel
  rw [ofLabel?_label, ofLabel?_label] at hRead
  exact pointer_injective (Option.some.inj hRead)

------------------------------------------------------------
-- Listed Occurrences
------------------------------------------------------------

namespace Occurrence

theorem mem_inItems_iff
    {α : Type}
    {place : Pointer}
    {occurrences : Pointer → α → List Occurrence}
    {items : List α}
    {o : Occurrence} :
    o ∈ inItems place occurrences items ↔
      ∃ i item, items[i]? = some item ∧
        o ∈ occurrences (place.index i) item := by
  unfold inItems
  rw [List.mem_flatMap]
  constructor
  · rintro ⟨⟨item, i⟩, hItem, hMem⟩
    exact ⟨i, item, List.mem_zipIdx_iff_getElem?.mp hItem,
      hMem⟩
  · rintro ⟨i, item, hItem, hMem⟩
    exact ⟨(item, i), List.mem_zipIdx_iff_getElem?.mpr hItem,
      hMem⟩

theorem mem_inCerts_iff
    {place p : Pointer}
    {key : String}
    {certs : List CertificateBytes}
    {cert : CertificateBytes} :
    (p, cert) ∈ inCerts place key certs ↔
      ∃ j, certs[j]? = some cert ∧
        p = (place.key key).index j := by
  unfold inCerts
  rw [mem_inItems_iff]
  simp only [single, List.mem_singleton, Prod.mk.injEq]
  grind

end Occurrence

theorem CaInfo.mem_certificates_iff
    {c : CaInfo}
    {place p : Pointer}
    {cert : CertificateBytes} :
    (p, cert) ∈ c.certificates place ↔
      (p = place.key "cert" ∧ c.cert = cert) ∨
      ∃ m responder, c.ocsp[m]? = some responder ∧
        responder.cert = some cert ∧
        p = ((place.key "ocsp").index m).key "cert" := by
  unfold certificates
  rw [List.mem_cons, Occurrence.mem_inItems_iff]
  simp only [OcspResponder.certificates, List.mem_map,
    Option.mem_toList, Prod.mk.injEq]
  grind

/- An authority's certificates are those of its entries. -/
theorem CertificationAuthority.mem_certificates_iff
    {a : CertificationAuthority}
    {place : Pointer}
    {o : Occurrence} :
    o ∈ a.certificates place ↔
      ∃ info entry, a.infoAt? info = some entry ∧
        o ∈ entry.certificates (place ++ info.pointer) := by
  unfold certificates
  rw [List.mem_append, Occurrence.mem_inItems_iff]
  constructor
  · rintro (hTop | ⟨k, entry, hEntry, hMem⟩)
    · exact ⟨.top, a.topCa, rfl, hTop⟩
    · refine ⟨.intermediate k, entry, hEntry, ?_⟩
      simpa [InfoPlace.pointer, Pointer.key, Pointer.index]
        using hMem
  · rintro ⟨info, entry, hEntry, hMem⟩
    cases info with
    | top =>
        cases hEntry
        exact Or.inl hMem
    | intermediate k =>
        refine Or.inr ⟨k, entry, hEntry, ?_⟩
        simpa [InfoPlace.pointer, Pointer.key, Pointer.index]
          using hMem

/-
  What is listed is the certificates at all places, by cases
  on the part of the registry that the place is in.
-/
theorem Registry.mem_certificates_iff
    {r : Registry}
    {p : Pointer}
    {cert : CertificateBytes} :
    (p, cert) ∈ r.certificates ↔
      ∃ place, r.certAt? place = some cert ∧
        p = place.pointer := by
  unfold certificates
  simp only [List.mem_append, Occurrence.mem_inItems_iff,
    Occurrence.mem_inCerts_iff, List.mem_singleton,
    Occurrence.single, Prod.mk.injEq,
    CertificationAuthority.mem_certificates_iff,
    CaInfo.mem_certificates_iff]
  constructor
  · rintro ((((⟨i, source, hSource, j, hCert, rfl⟩ |
      ⟨rfl, rfl⟩) |
      ⟨i, server, hServer, j, hCert, rfl⟩) |
      ⟨i, authority, hAuthority, info, entry, hEntry,
        ⟨rfl, rfl⟩ |
        ⟨m, responder, hResponder, hCert, rfl⟩⟩) |
      ⟨i, authority, hAuthority, rfl, rfl⟩)
    · exact ⟨.source i j, by simp [certAt?, hSource, hCert],
        rfl⟩
    · exact ⟨.management, rfl, rfl⟩
    · exact ⟨.server i j, by simp [certAt?, hServer, hCert],
        rfl⟩
    · exact ⟨.authority i info,
        by simp [certAt?, hAuthority, hEntry],
        by simp [CertPlace.pointer, Pointer.key,
          Pointer.index]⟩
    · exact ⟨.responder i info m,
        by simp [certAt?, hAuthority, hEntry, hResponder,
          hCert],
        by simp [CertPlace.pointer, Pointer.key,
          Pointer.index]⟩
    · exact ⟨.timestamping i, by simp [certAt?, hAuthority],
        rfl⟩
  · rintro ⟨place, hCert, rfl⟩
    cases place <;>
      simp only [certAt?, Option.bind_eq_bind,
        Option.bind_eq_some_iff, Option.some.injEq] at hCert
    case source i j =>
      rcases hCert with ⟨source, hSource, hCert⟩
      exact Or.inl (Or.inl (Or.inl (Or.inl
        ⟨i, source, hSource, j, hCert, rfl⟩)))
    case management =>
      exact Or.inl (Or.inl (Or.inl (Or.inr ⟨rfl, hCert.symm⟩)))
    case server i j =>
      rcases hCert with ⟨server, hServer, hCert⟩
      exact Or.inl (Or.inl (Or.inr
        ⟨i, server, hServer, j, hCert, rfl⟩))
    case authority i info =>
      rcases hCert with
        ⟨authority, hAuthority, entry, hEntry, hCert⟩
      refine Or.inl (Or.inr ⟨i, authority, hAuthority, info,
        entry, hEntry, Or.inl ⟨?_, hCert⟩⟩)
      simp [CertPlace.pointer, Pointer.key, Pointer.index]
    case responder i info m =>
      rcases hCert with ⟨authority, hAuthority, entry, hEntry,
        responder, hResponder, hCert⟩
      refine Or.inl (Or.inr ⟨i, authority, hAuthority, info,
        entry, hEntry,
        Or.inr ⟨m, responder, hResponder, hCert, ?_⟩⟩)
      simp [CertPlace.pointer, Pointer.key, Pointer.index]
    case timestamping i =>
      rcases hCert with ⟨authority, hAuthority, hCert⟩
      exact Or.inr ⟨i, authority, hAuthority, rfl, hCert.symm⟩

------------------------------------------------------------
-- No Place Twice
------------------------------------------------------------

namespace Occurrence

/- Occurrences below a place, no two of them at the same. -/
structure AreApart
    (place : Pointer)
    (found : List Occurrence) : Prop where
  below : ∀ o ∈ found, place <+: o.1
  own : (found.map Prod.fst).Nodup

namespace AreApart

variable {place : Pointer} {found : List Occurrence}

theorem single {cert : CertificateBytes} :
    AreApart place [(place, cert)] :=
  ⟨by simp, by simp⟩

theorem of_key
    {key : String}
    (hFound : AreApart (place.key key) found) :
    AreApart place found :=
  ⟨fun o hMem =>
      (List.prefix_append place _).trans (hFound.below o hMem),
    hFound.own⟩

/- What is found below different steps from a place. -/
theorem ofParts
    {parts : List (PointerStep × List Occurrence)}
    (hSteps : (parts.map Prod.fst).Nodup)
    (hParts : ∀ part ∈ parts,
      AreApart (place ++ [part.1]) part.2) :
    AreApart place (parts.flatMap Prod.snd) := by
  constructor
  · intro o hMem
    rcases List.mem_flatMap.mp hMem with ⟨part, hPart, hFound⟩
    exact (List.prefix_append place _).trans
      ((hParts part hPart).below o hFound)
  · induction parts with
    | nil => exact List.nodup_nil
    | cons part rest ih =>
        rw [List.map_cons, List.nodup_cons] at hSteps
        rw [List.forall_mem_cons] at hParts
        rw [List.flatMap_cons, List.map_append,
          List.nodup_append]
        refine ⟨hParts.1.own, ih hSteps.2 hParts.2, ?_⟩
        intro p hFirst q hSecond hSame
        rcases List.mem_map.mp hFirst with ⟨o, hMem, rfl⟩
        rcases List.mem_map.mp hSecond with ⟨x, hOther, rfl⟩
        rcases List.mem_flatMap.mp hOther with
          ⟨other, hLater, hFound⟩
        have hStep := Rules.eq_of_prefix_append
          (hParts.1.below o hMem)
          (hSame ▸ (hParts.2 other hLater).below x hFound)
        apply hSteps.1
        rw [hStep]
        exact List.mem_map_of_mem hLater

theorem inItems
    {α : Type}
    {occurrences : Pointer → α → List Occurrence}
    (hItem : ∀ i item,
      AreApart (place.index i)
        (occurrences (place.index i) item))
    (items : List α) :
    AreApart place (inItems place occurrences items) := by
  have hParts : Occurrence.inItems place occurrences items =
      (items.zipIdx.map fun entry =>
        (PointerStep.index entry.2,
          occurrences (place.index entry.2) entry.1)).flatMap
        Prod.snd := by
    rw [List.flatMap_map]
    rfl
  rw [hParts]
  apply ofParts
  · have hSteps : (items.zipIdx.map fun entry =>
        (PointerStep.index entry.2,
          occurrences (place.index entry.2) entry.1)).map
            Prod.fst =
        (List.range' 0 items.length).map .index := by
      rw [← List.zipIdx_map_snd 0 items, List.map_map,
        List.map_map]
      rfl
    rw [hSteps]
    exact (List.nodup_range' 1).map fun _ _ hSame =>
      PointerStep.index.inj hSame
  · intro part hPart
    rcases List.mem_map.mp hPart with ⟨⟨item, i⟩, -, rfl⟩
    exact hItem i item

theorem inCerts
    (place : Pointer)
    (key : String)
    (certs : List CertificateBytes) :
    AreApart (place.key key) (inCerts place key certs) :=
  inItems (fun _ _ => single) certs

end AreApart

end Occurrence

open Occurrence

theorem OcspResponder.areApart_certificates
    (place : Pointer)
    (responder : OcspResponder) :
    AreApart place (responder.certificates place) := by
  unfold certificates
  cases responder.cert with
  | none => exact ⟨nofun, List.nodup_nil⟩
  | some cert =>
      exact AreApart.single.of_key

theorem CaInfo.areApart_certificates
    (place : Pointer)
    (c : CaInfo) :
    AreApart place (c.certificates place) := by
  have hParts : c.certificates place =
      [ (PointerStep.key "cert", [(place.key "cert", c.cert)]),
        (.key "ocsp",
          inItems (place.key "ocsp")
            OcspResponder.certificates c.ocsp) ].flatMap
        Prod.snd := by
    simp [certificates]
  rw [hParts]
  apply AreApart.ofParts (by simp)
  simp only [List.forall_mem_cons]
  exact ⟨.single,
    .inItems (fun _ o => o.areApart_certificates _) _, nofun⟩

theorem CertificationAuthority.areApart_certificates
    (place : Pointer)
    (a : CertificationAuthority) :
    AreApart place (a.certificates place) := by
  have hParts : a.certificates place =
      [ (PointerStep.key "topCa",
          a.topCa.certificates (place.key "topCa")),
        (.key "intermediateCas",
          inItems (place.key "intermediateCas")
            CaInfo.certificates a.intermediateCas) ].flatMap
        Prod.snd := by
    simp [certificates]
  rw [hParts]
  apply AreApart.ofParts (by simp)
  simp only [List.forall_mem_cons]
  exact ⟨a.topCa.areApart_certificates _,
    .inItems (fun _ c => c.areApart_certificates _) _, nofun⟩

theorem Registry.areApart_certificates (r : Registry) :
    AreApart [] r.certificates := by
  have hParts : r.certificates =
      [ (PointerStep.key "configurationSources",
          inItems [.key "configurationSources"]
            (fun place source =>
              inCerts place "verificationCerts"
                source.verificationCerts)
            r.configurationSources),
        (.key "managementService",
          [ ( [.key "managementService",
                .key "authCertRegServiceCert"],
              r.managementService.authCertRegServiceCert ) ]),
        (.key "securityServers",
          inItems [.key "securityServers"]
            (fun place server =>
              inCerts place "authCerts" server.authCerts)
            r.securityServers),
        (.key "certificationAuthorities",
          inItems [.key "certificationAuthorities"]
            CertificationAuthority.certificates
            r.certificationAuthorities),
        (.key "timestampingAuthorities",
          inItems [.key "timestampingAuthorities"]
            (fun place authority =>
              Occurrence.single (place.key "cert")
                authority.cert)
            r.timestampingAuthorities) ].flatMap Prod.snd := by
    simp [certificates]
  rw [hParts]
  apply AreApart.ofParts (by simp)
  simp only [List.forall_mem_cons]
  refine ⟨?_, ?_, ?_, ?_, ?_, nofun⟩
  · exact .inItems (fun _ source =>
      (AreApart.inCerts _ _ source.verificationCerts).of_key) _
  · apply AreApart.of_key
    exact AreApart.single
  · exact .inItems (fun _ server =>
      (AreApart.inCerts _ _ server.authCerts).of_key) _
  · exact .inItems (fun _ a => a.areApart_certificates _) _
  · exact .inItems (fun _ _ => AreApart.single.of_key) _

/- Two certificates that are listed have different labels. -/
theorem Registry.nodup_labels (r : Registry) :
    (r.certificates.map fun o => o.1.label).Nodup := by
  have hPlaces := r.areApart_certificates.own
  have hLabels : (r.certificates.map Prod.fst).map
      Pointer.label =
      r.certificates.map fun o => o.1.label :=
    List.map_map
  rw [← hLabels]
  apply List.Nodup.map_on _ hPlaces
  intro p hFirst q hSecond hLabel
  rcases List.mem_map.mp hFirst with ⟨⟨p, c⟩, hp, rfl⟩
  rcases List.mem_map.mp hSecond with ⟨⟨q, d⟩, hq, rfl⟩
  rcases mem_certificates_iff.mp hp with ⟨place, -, rfl⟩
  rcases mem_certificates_iff.mp hq with ⟨other, -, rfl⟩
  exact congrArg CertPlace.pointer
    (CertPlace.label_injective hLabel)

------------------------------------------------------------
-- The JSON Form
------------------------------------------------------------

section Form

variable {v w : Json} {p : Pointer} {key : String}

theorem Pointer.resolve?_ofKey
    {part : Json}
    (hKey : v.get? key = some part)
    (hRest : p.resolve? part = some w) :
    resolve? (.key key :: p) v = some w := by
  rw [resolve?_cons, step?, hKey, Option.bind_some, hRest]

/- The way to an item of a list, and on from it. -/
theorem Pointer.resolve?_ofList
    {α : Type}
    {toJson : α → Json}
    {values : List α}
    {i : Nat}
    {a : α}
    (hKey : v.get? key = some (Json.ofList toJson values))
    (hItem : values[i]? = some a)
    (hRest : p.resolve? (toJson a) = some w) :
    resolve? (.key key :: .index i :: p) v = some w := by
  apply resolve?_ofKey hKey
  rw [resolve?_cons, step?, Json.ofList, Json.asArray?,
    Option.bind_some, List.getElem?_map, hItem]
  exact hRest

end Form

open Pointer

/- The way on from an entry of an authority. -/
theorem CertificationAuthority.resolve?_info
    {a : CertificationAuthority}
    {info : InfoPlace}
    {entry : CaInfo}
    {p : Pointer}
    {w : Json}
    (hEntry : a.infoAt? info = some entry)
    (hRest : p.resolve? entry.toJson = some w) :
    (info.pointer ++ p).resolve? a.toJson = some w := by
  have hKeys : ∀ key, a.toJson.get? key =
      List.lookup key
        ([ ("name", .string a.name),
            ("authenticationOnly", .bool a.authenticationOnly),
            ("topCa", a.topCa.toJson),
            ("intermediateCas",
              Json.ofList CaInfo.toJson a.intermediateCas) ] ++
          a.certificateProfileInfo.toList.map fun profile =>
            ("certificateProfileInfo", .string profile)) := by
    intro key
    apply Json.get?_ofMembers
    cases a.certificateProfileInfo <;> simp
  cases info with
  | top =>
      cases hEntry
      exact resolve?_ofKey (hKeys "topCa") hRest
  | intermediate k =>
      exact resolve?_ofList (hKeys "intermediateCas") hEntry
        hRest

theorem CaInfo.get?_toJson
    (c : CaInfo)
    (key : String) :
    c.toJson.get? key =
      List.lookup key
        [ ("cert", c.cert.toJson),
          ("ocsp", Json.ofList OcspResponder.toJson c.ocsp) ] :=
  Json.get?_ofMembers (by simp) key

theorem OcspResponder.get?_toJson_cert
    {responder : OcspResponder}
    {cert : CertificateBytes}
    (hCert : responder.cert = some cert) :
    responder.toJson.get? "cert" = some cert.toJson := by
  unfold toJson
  rw [hCert, Json.get?_ofMembers (by simp)]
  rfl

theorem Registry.get?_toJson
    (r : Registry)
    (key : String) :
    r.toJson.get? key =
      List.lookup key
        [ ("instanceIdentifier", .string r.instanceIdentifier),
          ("memberClasses",
            Json.ofList MemberClass.toJson r.memberClasses),
          ("members", Json.ofList Member.toJson r.members),
          ("securityServers",
            Json.ofList SecurityServer.toJson
              r.securityServers),
          ("certificationAuthorities",
            Json.ofList CertificationAuthority.toJson
              r.certificationAuthorities),
          ("timestampingAuthorities",
            Json.ofList TimestampingAuthority.toJson
              r.timestampingAuthorities),
          ("globalGroups",
            Json.ofList GlobalGroup.toJson r.globalGroups),
          ("configurationSources",
            Json.ofList ConfigurationSource.toJson
              r.configurationSources),
          ("managementService", r.managementService.toJson),
          ("globalSettings", r.globalSettings.toJson) ] :=
  Json.get?_ofMembers (by simp) key

/-
  The way to a certificate leads to its text, by cases on the
  part of the registry that the certificate is in.
-/
theorem Registry.resolve?_pointer
    {r : Registry}
    {place : CertPlace}
    {cert : CertificateBytes}
    (hCert : r.certAt? place = some cert) :
    place.pointer.resolve? r.toJson = some cert.toJson := by
  cases place <;>
    simp only [certAt?, Option.bind_eq_bind,
      Option.bind_eq_some_iff, Option.some.injEq] at hCert
  case source i j =>
    rcases hCert with ⟨source, hSource, hCert⟩
    apply resolve?_ofList (r.get?_toJson _) hSource
    exact resolve?_ofList
      (Json.get?_ofMembers (by simp) "verificationCerts") hCert
      rfl
  case management =>
    apply resolve?_ofKey (r.get?_toJson _)
    apply resolve?_ofKey
    · apply Json.get?_ofMembers
      cases r.managementService.securityServer <;> simp
    · rw [← hCert]
      rfl
  case server i j =>
    rcases hCert with ⟨server, hServer, hCert⟩
    apply resolve?_ofList (r.get?_toJson _) hServer
    exact resolve?_ofList
      (Json.get?_ofMembers (by simp) "authCerts") hCert rfl
  case authority i info =>
    rcases hCert with
      ⟨authority, hAuthority, entry, hEntry, rfl⟩
    apply resolve?_ofList (r.get?_toJson _) hAuthority
    apply authority.resolve?_info hEntry
    exact resolve?_ofKey (entry.get?_toJson "cert") rfl
  case responder i info m =>
    rcases hCert with ⟨authority, hAuthority, entry, hEntry,
      responder, hResponder, hCert⟩
    apply resolve?_ofList (r.get?_toJson _) hAuthority
    apply authority.resolve?_info hEntry
    apply resolve?_ofList (entry.get?_toJson "ocsp") hResponder
    exact resolve?_ofKey
      (OcspResponder.get?_toJson_cert hCert) rfl
  case timestamping i =>
    rcases hCert with ⟨authority, hAuthority, rfl⟩
    apply resolve?_ofList (r.get?_toJson _) hAuthority
    exact resolve?_ofKey
      (Json.get?_ofMembers (by simp) "cert") rfl

------------------------------------------------------------
-- The Gate
------------------------------------------------------------

/- An error of the gate is about the file that is asked for. -/
theorem Certificate.filename_of_accept_eq_error
    {check : Check}
    {filename : String}
    {bytes : Bytes}
    {e : CertificateError}
    (hError : accept check filename bytes = .error e) :
    e.filename = filename := by
  unfold accept judge at hError
  split at hError
  · cases hError
    rfl
  · split at hError
    · cases hError
      rfl
    · split at hError
      · cases hError
        rfl
      · cases hError

/-
  The check of a list ends at its first item that the gate
  does not accept. By induction on the list.
-/
theorem Registry.verifyAll_eq_error_iff
    {found : List Occurrence}
    {e : CertificateError} :
    verifyAll found = .error e ↔
      ∃ before o after, found = before ++ o :: after ∧
        (∀ b ∈ before, b.2.IsAccepted) ∧
        Certificate.accept Check.general o.1.label
          o.2.bytes = .error e := by
  induction found with
  | nil => simp [verifyAll]
  | cons first rest ih =>
      rcases first with ⟨place, c⟩
      unfold verifyAll
      cases hGate : Certificate.accept Check.general
          place.label c.bytes with
      | error fault =>
          constructor
          · intro hError
            cases hError
            exact ⟨[], (place, c), rest, rfl,
              List.forall_mem_nil _, hGate⟩
          · rintro ⟨before, o, after, hSplit, hBefore, hError⟩
            cases before with
            | nil =>
                cases hSplit
                cases hGate.symm.trans hError
                rfl
            | cons b before =>
                cases hSplit
                rcases hBefore _ List.mem_cons_self with
                  ⟨cert, hAll⟩
                rw [hAll] at hGate
                cases hGate
      | ok cert =>
          refine ih.trans ⟨?_, ?_⟩
          · rintro ⟨before, o, after, rfl, hBefore, hError⟩
            refine ⟨(place, c) :: before, o, after, rfl,
              List.forall_mem_cons.mpr ⟨?_, hBefore⟩, hError⟩
            exact CertificateBytes.isAccepted_of_accept hGate
          · rintro ⟨before, o, after, hSplit, hBefore, hError⟩
            cases before with
            | nil =>
                cases hSplit
                rw [hGate] at hError
                cases hError
            | cons b before =>
                cases hSplit
                exact ⟨before, o, after, rfl,
                  (List.forall_mem_cons.mp hBefore).2, hError⟩

------------------------------------------------------------
-- Registries
------------------------------------------------------------

/-
  Every certificate of a registry is listed once, under a
  label of its own that is the path to its text in the
  registry's JSON form. So the check succeeds exactly if the
  gate accepts all of them, and it names the first in the
  list that the gate does not accept.
-/
theorem Registry.certificates_exact (r : Registry) :
    (∀ place cert, r.certAt? place = some cert →
      r.certificates.filter
          (fun o => o.1.label = place.pointer.label) =
        [(place.pointer, cert)]) ∧
    (∀ place other : CertPlace,
      place.pointer.label = other.pointer.label →
        place = other) ∧
    (r.certificates.map fun o => o.1.label).Nodup ∧
    (∀ o ∈ r.certificates, ∃ place,
      r.certAt? place = some o.2 ∧
      Pointer.ofLabel? o.1.label = some place.pointer ∧
      place.pointer.resolve? r.toJson =
        some (.string o.2.toBase64)) ∧
    (r.verify = .ok () ↔
      ∀ place cert, r.certAt? place = some cert →
        cert.IsAccepted) ∧
    ∀ e, r.verify = .error e →
      ∃ before o after,
        r.certificates = before ++ o :: after ∧
        (∀ b ∈ before, b.2.IsAccepted) ∧
        ¬ o.2.IsAccepted ∧ e.filename = o.1.label := by
  refine ⟨?_, fun _ _ => CertPlace.label_injective,
    r.nodup_labels, ?_, ?_, ?_⟩
  · intro place cert hCert
    have hMem : (place.pointer, cert) ∈ r.certificates :=
      mem_certificates_iff.mpr ⟨place, hCert, rfl⟩
    exact filter_key_eq_singleton
      (fun o : Occurrence => o.1.label) r.nodup_labels hMem
  · rintro ⟨p, cert⟩ hMem
    rcases mem_certificates_iff.mp hMem with
      ⟨place, hCert, rfl⟩
    exact ⟨place, hCert, place.ofLabel?_label,
      resolve?_pointer hCert⟩
  · rw [verify_eq_ok_iff]
    constructor
    · intro hAll place cert hCert
      exact hAll (place.pointer, cert)
        (mem_certificates_iff.mpr ⟨place, hCert, rfl⟩)
    · rintro hAll ⟨p, cert⟩ hMem
      rcases mem_certificates_iff.mp hMem with
        ⟨place, hCert, -⟩
      exact hAll place cert hCert
  · intro e hError
    rcases verifyAll_eq_error_iff.mp hError with
      ⟨before, o, after, hSplit, hBefore, hGate⟩
    refine ⟨before, o, after, hSplit, hBefore, ?_,
      Certificate.filename_of_accept_eq_error hGate⟩
    rintro ⟨cert, hAll⟩
    rw [hAll] at hGate
    cases hGate

/- The labels of the three certificates of a small registry. -/
example :
    (Registry.small .small).certificates.map
        (fun o => o.1.label) =
      [ "configurationSources[0].verificationCerts[0]",
        "managementService.authCertRegServiceCert",
        "securityServers[0].authCerts[0]" ] := by
  decide +kernel

end Federation
