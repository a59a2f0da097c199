import Federation.Proofs.Certificate.TextualForm
import Federation.Proofs.Generation.Documents

/-
  The hashes of certificates that documents show for security
  servers: they are the fingerprints of the certificates as
  long as these are registered in binary form. A certificate
  that is registered in textual form passes the gate too, but
  what is shown for it is the hash of its text.

  Main declarations:
    * `Content.ShowsHashes`
    * `Registry.shown_hash_eq_fingerprint_iff`
-/

namespace Federation

namespace Content

------------------------------------------------------------
-- Shown Hashes
------------------------------------------------------------

/- A document's entry for a server shows the given hashes. -/
def ShowsHashes
    (content : Json.Members)
    (s : SecurityServer)
    (hashes : List String) : Prop :=
  ∃ items entry,
    content.lookup "securityServers" = some (.array items) ∧
    entry ∈ items ∧
    entry.get? "owner" = some s.owner.toJson ∧
    entry.get? "serverCode" = some (.string s.serverCode) ∧
    entry.get? "authCertHashes" =
      some (Json.ofList .string hashes)

theorem showsHashes_of_mem
    {content : Json.Members}
    (servers : List SecurityServer)
    (render : SecurityServer → Json)
    {s : SecurityServer}
    (hServers : content.lookup "securityServers" =
      some (Json.ofList render servers))
    (hMem : s ∈ servers)
    (hOwner : (render s).get? "owner" = some s.owner.toJson)
    (hCode : (render s).get? "serverCode" =
      some (.string s.serverCode))
    (hHashes : (render s).get? "authCertHashes" =
      some (Json.ofList .string (certHashes s))) :
    ShowsHashes content s (certHashes s) :=
  ⟨servers.map render, render s, hServers,
    List.mem_map.mpr ⟨s, hMem, rfl⟩, hOwner, hCode, hHashes⟩

/- Shared parameters show every server. -/
theorem showsHashes_shared
    {render : CertificationAuthority → Json}
    {settings : Json.Members}
    {r : Registry}
    {s : SecurityServer}
    (version : Version)
    (now : Instant)
    (hServer : s ∈ r.securityServers) :
    ShowsHashes
      (Document.new .sharedParameters version now
        (Table.ofList
          (sharedParts render settings r))).content
      s (certHashes s) := by
  have hKeys :
      (Document.envelopeKeys ++
        (sharedParts render settings r).map
          Prod.fst).Nodup := by
    simp [Document.envelopeKeys, sharedParts]
  rw [Document.new_content _ version now hKeys]
  have hParts := (List.nodup_append.mp hKeys).2.1
  have hEntry :
      ((serverParts s ++
        [("clients",
          Json.ofList ClientId.toJson
            (sortClients s.clients))]).map
        Prod.fst).Nodup := by
    simp [serverParts]
  refine showsHashes_of_mem
    (sortServers r.securityServers) securityServer
    ?_ (mem_sortBy.mpr hServer) ?_ ?_ ?_
  · rw [Table.lookup_ofList hParts]
    rfl
  · exact Json.get?_ofMembers hEntry "owner"
  · exact Json.get?_ofMembers hEntry "serverCode"
  · exact Json.get?_ofMembers hEntry "authCertHashes"

/- Private parameters show the operator's servers. -/
theorem showsHashes_privateV2
    {r : Registry}
    {s : SecurityServer}
    (code : String)
    (now : Instant)
    (hServer : IsOperatorServer r s) :
    ShowsHashes
      (Document.new .privateParameters .v2 now
        (Table.ofList (privatePartsV2 r code))).content
      s (certHashes s) := by
  have hKeys :
      (Document.envelopeKeys ++
        (privatePartsV2 r code).map Prod.fst).Nodup := by
    simp [Document.envelopeKeys, privatePartsV2]
  rw [Document.new_content _ .v2 now hKeys]
  have hParts := (List.nodup_append.mp hKeys).2.1
  have hEntry :
      ((serverParts s).map Prod.fst).Nodup := by
    simp [serverParts]
  refine showsHashes_of_mem (operatorServers r)
    operatorServer ?_
    (mem_operatorServers.mpr hServer) ?_ ?_ ?_
  · rw [Table.lookup_ofList hParts]
    rfl
  · exact Json.get?_ofMembers hEntry "owner"
  · exact Json.get?_ofMembers hEntry "serverCode"
  · exact Json.get?_ofMembers hEntry "authCertHashes"

end Content

/- So does a generator whose content is shared parameters. -/
theorem Generator.showsHashes_of_shared
    {version : Version}
    {content : DocumentKind → Registry →
      Except GenerationFault Json.Members}
    {render : CertificationAuthority → Json}
    {settings : Json.Members}
    {now : Instant}
    {r : Registry}
    {s : SecurityServer}
    {d : Document .sharedParameters}
    (hShared : content .sharedParameters r =
      Content.shared render settings r)
    (hServer : s ∈ r.securityServers)
    (hGenerate : (ofContent version content).generate
      .sharedParameters now r = .ok d) :
    Content.ShowsHashes d.content s (Content.certHashes s) := by
  rcases generate_ofContent_iff.mp hGenerate with
    ⟨members, hContent, rfl⟩
  rw [hShared] at hContent
  rcases Content.shared_eq_ok_iff.mp hContent with ⟨-, rfl⟩
  exact Content.showsHashes_shared version now hServer

------------------------------------------------------------
-- Fingerprints
------------------------------------------------------------

/-
  Of a certificate in binary form the hash is its fingerprint.
  Of one in textual form it is the fingerprint only if the
  text and the certificate, which differ, have one hash.
-/
theorem Certificate.fingerprint_eq_iff
    {c : CertificateBytes}
    {cert : Certificate}
    (hRead : Certificate.ofBytes? c.bytes = some cert) :
    c.fingerprint = cert.fingerprint ↔
      (Pem.looksLike c.bytes = true →
        c.bytes ≠ cert.der.bytes ∧
          Sha256.hexDigest c.bytes =
            Sha256.hexDigest cert.der.bytes) := by
  cases hText : Pem.looksLike c.bytes with
  | false =>
      rw [Certificate.ofBytes?_eq_ofDer? hText] at hRead
      have hSame := Certificate.der_of_ofDer? hRead
      simp [Certificate.fingerprint,
        CertificateBytes.fingerprint, hSame]
  | true =>
      have hDer : c.bytes ≠ cert.der.bytes := by
        intro hSame
        unfold Certificate.ofBytes? at hRead
        rw [if_pos hText] at hRead
        rcases Option.bind_eq_some_iff.mp hRead with
          ⟨content, -, hContent⟩
        have hNot :=
          Certificate.not_looksLike_of_ofDer? hContent
        rw [← Certificate.der_of_ofDer? hContent, ← hSame,
          hText] at hNot
        cases hNot
      simp [Certificate.fingerprint,
        CertificateBytes.fingerprint, hDer]

/- The gate accepts the small certificate. -/
theorem CertificateBytes.small_accepted :
    ∃ cert, ∀ filename,
      Certificate.accept Check.general filename
        CertificateBytes.small.bytes = .ok cert := by
  rcases Option.isSome_iff_exists.mp
    isSome_ofDer?_small with ⟨cert, hCert⟩
  have hBytes := Certificate.ofBytes?_eq_ofDer?
    (Certificate.not_looksLike_of_ofDer? hCert)
  exact ⟨cert, fun _ => Certificate.accept_general_iff.mpr
    ⟨by decide, hBytes.trans hCert⟩⟩

/-
  Every document shows for a server the hashes of all its
  certificates, and the hash that stands for a certificate is
  its fingerprint exactly if it is registered in binary form,
  two different byte strings with one hash aside.
-/
theorem Registry.shown_hash_eq_fingerprint_iff
    {r : Registry}
    (hVerify : r.verify = .ok ())
    {s : SecurityServer}
    (hServer : s ∈ r.securityServers) :
    (∀ g ∈ [Generator.v1, Generator.v2], ∀ now d,
      g.generate .sharedParameters now r = .ok d →
      Content.ShowsHashes d.content s
        (Content.sortTexts
          (s.authCerts.map CertificateBytes.fingerprint))) ∧
    (∀ now d,
      Generator.v2.generate .privateParameters now r =
        .ok d →
      s.owner = r.operator → s.authCerts ≠ [] →
      Content.ShowsHashes d.content s
        (Content.sortTexts
          (s.authCerts.map CertificateBytes.fingerprint))) ∧
    ∀ c ∈ s.authCerts, ∃ cert,
      (∀ filename,
        Certificate.accept Check.general filename c.bytes =
          .ok cert) ∧
      (c.fingerprint = cert.fingerprint ↔
        (Pem.looksLike c.bytes = true →
          c.bytes ≠ cert.der.bytes ∧
            Sha256.hexDigest c.bytes =
              Sha256.hexDigest cert.der.bytes)) := by
  refine ⟨?_, ?_, ?_⟩
  · intro g hGenerator now d hGenerate
    simp only [List.mem_cons, List.not_mem_nil,
      or_false] at hGenerator
    rcases hGenerator with rfl | rfl
    · exact Generator.showsHashes_of_shared rfl hServer
        hGenerate
    · exact Generator.showsHashes_of_shared rfl hServer
        hGenerate
  · intro now d hGenerate hOwner hCerts
    rcases Generator.generate_ofContent_iff.mp hGenerate with
      ⟨content, hContent, rfl⟩
    rcases Content.privateV2_eq_ok_iff.mp hContent with
      ⟨-, code, -, rfl⟩
    exact Content.showsHashes_privateV2 code now
      ⟨hServer, hOwner, hCerts⟩
  · intro c hCert
    rcases mem_certificates_of_authCert hServer hCert with
      ⟨place, hPlace⟩
    rcases (verify_eq_ok_iff r).mp hVerify _ hPlace with
      ⟨cert, hAccept⟩
    have hRead :=
      (Certificate.accept_general_iff.mp (hAccept "")).2
    exact ⟨cert, hAccept,
      Certificate.fingerprint_eq_iff hRead⟩

/-
  A registry passes the gate once the gate accepts the
  certificate of its server.
-/
theorem Registry.verify_small
    {auth : CertificateBytes}
    {cert : Certificate}
    (hAuth : ∀ filename,
      Certificate.accept Check.general filename auth.bytes =
        .ok cert) :
    (Registry.small auth).verify = .ok () := by
  rcases CertificateBytes.small_accepted with ⟨own, hOwn⟩
  rw [verify_eq_ok_iff]
  intro occurrence hMem
  have hBytes : occurrence.2 = .small ∨
      occurrence.2 = auth := by
    simp only [certificates, Registry.small,
      SecurityServer.small, Occurrence.inItems,
      Occurrence.inCerts, Occurrence.single] at hMem
    revert hMem
    simp +contextual [List.zipIdx, or_imp]
  rcases hBytes with hBytes | hBytes
  · rw [hBytes]
    exact ⟨own, hOwn⟩
  · rw [hBytes]
    exact ⟨cert, hAuth⟩

/- A server's certificate in binary form has its fingerprint. -/
theorem Registry.shown_hash_eq_fingerprint_small :
    ((Registry.small .small).verify = .ok () ∧
      SecurityServer.small .small ∈
        (Registry.small .small).securityServers) ∧
    ∃ cert,
      Certificate.accept Check.general "auth"
        CertificateBytes.small.bytes = .ok cert ∧
      CertificateBytes.small.fingerprint =
        cert.fingerprint := by
  rcases CertificateBytes.small_accepted with ⟨own, hOwn⟩
  have hVerify := verify_small hOwn
  have hServer : SecurityServer.small .small ∈
      (Registry.small .small).securityServers :=
    List.mem_singleton.mpr rfl
  rcases (shown_hash_eq_fingerprint_iff hVerify hServer).2.2
      .small (List.mem_singleton.mpr rfl) with
    ⟨cert, hAccept, hShown⟩
  refine ⟨⟨hVerify, hServer⟩, cert, hAccept "auth", ?_⟩
  refine hShown.mpr fun hText => ?_
  have hBinary :
      Pem.looksLike CertificateBytes.small.bytes = false := by
    decide
  rw [hBinary] at hText
  cases hText

/- The small certificate in textual form. -/
def CertificateBytes.smallText : CertificateBytes :=
  ⟨Text.toBytes
    ("-----BEGIN CERTIFICATE-----\n" ++
      CertificateBytes.small.toBase64 ++
      "\n-----END CERTIFICATE-----\n")⟩

/- All its symbols are in one line. -/
theorem CertificateBytes.smallText_eq_text :
    smallText.bytes =
      (Pem.Rendering.wrapped 200 .newline small.bytes).text := by
  decide +kernel

theorem CertificateBytes.looksLike_smallText :
    Pem.looksLike smallText.bytes = true := by
  rw [smallText_eq_text]
  exact Pem.Rendering.looksLike_text _

/- The gate accepts it as well, for the same certificate. -/
theorem CertificateBytes.smallText_accepted :
    ∃ cert, cert.fingerprint = small.fingerprint ∧
      ∀ filename,
        Certificate.accept Check.general filename
          smallText.bytes = .ok cert := by
  have hSize : smallText.bytes.length ≤ greatestSize := by
    decide +kernel
  rcases Option.isSome_iff_exists.mp
    isSome_ofDer?_small with ⟨cert, hCert⟩
  have hRead : Certificate.ofBytes? smallText.bytes =
      some cert := by
    rw [smallText_eq_text, Certificate.ofBytes?_text, hCert]
  refine ⟨cert, ?_, fun _ =>
    Certificate.accept_general_iff.mpr ⟨hSize, hRead⟩⟩
  rw [Certificate.fingerprint, fingerprint, fingerprint,
    Certificate.der_of_ofDer? hCert]

/-
  A registry with a certificate in textual form passes the
  gate, and the hash that is shown for the certificate is not
  its fingerprint.
-/
theorem Registry.shown_hash_ne_fingerprint :
    ∃ r s c cert d,
      Registry.verify r = .ok () ∧
      s ∈ r.securityServers ∧ s.authCerts = [c] ∧
      Certificate.accept Check.general "auth" c.bytes =
        .ok cert ∧
      Generator.v2.generate .sharedParameters ⟨0, 0⟩ r =
        .ok d ∧
      Content.ShowsHashes d.content s [c.fingerprint] ∧
      c.fingerprint ≠ cert.fingerprint := by
  rcases CertificateBytes.smallText_accepted with
    ⟨cert, hFingerprint, hAccept⟩
  have hServer : SecurityServer.small .smallText ∈
      (Registry.small .smallText).securityServers :=
    List.mem_singleton.mpr rfl
  have hHashes :
      Content.certHashes (SecurityServer.small .smallText) =
        [CertificateBytes.smallText.fingerprint] := by
    simp [Content.certHashes, SecurityServer.small,
      Content.sortTexts, sortOnce, sortBy, dropRepeats]
  refine ⟨.small .smallText, .small .smallText, .smallText,
    cert, _, verify_small hAccept, hServer, rfl,
    hAccept "auth",
    Generator.generate_ofContent_iff.mpr
      ⟨_, Content.shared_eq_ok_iff.mpr ⟨by decide, rfl⟩,
        rfl⟩,
    hHashes ▸
      Content.showsHashes_shared .v2 ⟨0, 0⟩ hServer, ?_⟩
  rw [hFingerprint]
  decide +kernel

end Federation
