import Federation.Proofs.Rules.Items
import Federation.Rules.Private

/-
  The rules of private parameters: what it is for each of
  them to find nothing in a document.

  Main declarations:
    * `Rules.IsAtOperator`
    * `Rules.privateParameters_eq_nil_iff`
-/

namespace Federation

namespace Rules

------------------------------------------------------------
-- Configuration Sources
------------------------------------------------------------

/- The certificates of a source in a version. -/
def sourceCertificates
    (version : Version)
    (v : Json) : List Json :=
  if version = .v1 then (v.get? "verificationCert").toList
  else items "verificationCerts" v

theorem source_eq_nil_iff
    (version : Version)
    (place : Pointer)
    (v : Json) :
    source version place v = [] ↔
      ∀ cert ∈ sourceCertificates version v,
        IsCertificateText cert := by
  unfold source sourceCertificates
  split
  · simp [certificate_eq_nil_iff]
  · exact certificates_eq_nil_iff _ _

theorem sources_eq_nil_iff
    (version : Version)
    (document : Json) :
    sources version document = [] ↔
      ∀ v ∈ items "sources"
          (part "configurationAnchor" document),
        ∀ cert ∈ sourceCertificates version v,
          IsCertificateText cert :=
  overItems_eq_nil_iff_forall
    (fun v => ∀ cert ∈ sourceCertificates version v,
      IsCertificateText cert)
    (fun _ _ v => source_eq_nil_iff version _ v) _

------------------------------------------------------------
-- The Operator
------------------------------------------------------------

theorem operatorServer_eq_nil_iff
    (operator : MemberKey)
    (earlier : List Json)
    (i : Nat)
    (server : Json) :
    operatorServer operator earlier i server = [] ↔
      memberKey (part "owner" server) = operator ∧
      ∀ y ∈ earlier,
        text "serverCode" y ≠ text "serverCode" server := by
  simp only [operatorServer, List.append_eq_nil_iff,
    whenever_eq_nil_iff]
  simp

theorem managementService_eq_nil_iff
    (operator : MemberKey)
    (servers : List Json)
    (management : Json) :
    managementService operator servers management = [] ↔
      memberKey
          (part "managementRequestServiceProviderId"
            management) = operator ∧
        text "managementRequestServiceServerCode"
            management ∈
          servers.map (text "serverCode") := by
  simp only [managementService, List.append_eq_nil_iff,
    whenever_eq_nil_iff]
  simp

/-
  The servers are the operator's, each with a code of its
  own, and the management service is the operator's too and
  at one of them.
-/
structure IsAtOperator (document : Json) : Prop where
  owners : ∀ server ∈ items "securityServers" document,
    memberKey (part "owner" server) =
      memberKey (part "operator" document)
  codes :
    ((items "securityServers" document).map
      (text "serverCode")).Nodup
  provider :
    memberKey
        (part "managementRequestServiceProviderId"
          (part "managementService" document)) =
      memberKey (part "operator" document)
  listed :
    text "managementRequestServiceServerCode"
        (part "managementService" document) ∈
      (items "securityServers" document).map
        (text "serverCode")

theorem operatorParts_eq_nil_iff (document : Json) :
    operatorParts document = [] ↔ IsAtOperator document := by
  simp only [operatorParts, List.append_eq_nil_iff,
    overItems_eq_nil_iff _ _ (operatorServer_eq_nil_iff _),
    managementService_eq_nil_iff]
  constructor
  · rintro ⟨⟨hOwners, hCodes⟩, hProvider, hListed⟩
    exact ⟨hOwners, List.pairwise_map.mpr hCodes, hProvider,
      hListed⟩
  · rintro ⟨hOwners, hCodes, hProvider, hListed⟩
    exact ⟨⟨hOwners, List.pairwise_map.mp hCodes⟩, hProvider,
      hListed⟩

------------------------------------------------------------
-- Documents
------------------------------------------------------------

/- The rules find nothing in just the documents in order. -/
theorem privateParameters_eq_nil_iff
    (version : Version)
    (document : Json) :
    privateParameters version document = [] ↔
      (∀ v ∈ items "sources"
          (part "configurationAnchor" document),
        ∀ cert ∈ sourceCertificates version v,
          IsCertificateText cert) ∧
      (∀ cert ∈
          (part "managementService" document).get?
            "authCertRegServiceCert",
        IsCertificateText cert) ∧
      (Version.v2 ≤ version → IsAtOperator document) := by
  rw [privateParameters, List.append_eq_nil_iff,
    List.append_eq_nil_iff, sources_eq_nil_iff,
    certificate_eq_nil_iff, and_assoc]
  refine and_congr_right fun _ => and_congr_right fun _ => ?_
  by_cases hVersion : Version.v2 ≤ version
  · simp [hVersion, operatorParts_eq_nil_iff]
  · simp [hVersion]

end Rules

end Federation
