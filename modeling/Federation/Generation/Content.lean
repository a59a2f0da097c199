import Federation.Document
import Federation.Registry.Basic

/-
  This file defines the parts of documents that more than one
  version has, and why there may be none. Every list has an
  order of its own, so that the order of the registry does
  not show.

  Key definitions include:
    * `GenerationFault`
    * `GenerationError`
    * `Content.members`
    * `Content.securityServers`
    * `Content.globalGroups`
    * `Content.authorities`
    * `Content.timestamping`
    * `Content.anchorSources`
-/

namespace Federation

------------------------------------------------------------
-- Faults
------------------------------------------------------------

/- What in a registry has no place in a document. -/
inductive GenerationFault where
| noOperatorServer (operator : MemberId)
| foreignServer (code : String) (operator : MemberId)
| noSource
| noCertificate (source : Nat)
| noInterval (setting : String)
| other (path reason : String)
deriving DecidableEq

namespace GenerationFault

/- Where in the registry a fault is. -/
def path : GenerationFault → String
| .noOperatorServer _ => "securityServers"
| .foreignServer _ _ => "managementService.securityServer"
| .noSource => "configurationSources"
| .noCertificate source => s!"configurationSources[{source}]"
| .noInterval setting => "globalSettings." ++ setting
| .other path _ => path

/- The wording of a fault. -/
def reason : GenerationFault → String
| .noOperatorServer operator =>
    s!"operator {operator} has no security server with an authentication certificate"
| .foreignServer code operator =>
    s!"server \"{code}\" is not a security server of operator {operator} with an authentication certificate"
| .noSource => "no configuration source is registered"
| .noCertificate _ =>
    "source has no verification certificate"
| .noInterval _ => "must be at least 1 second"
| .other _ reason => reason

end GenerationFault

/- Why a document is not generated. -/
structure GenerationError where
  kind : DocumentKind
  version : Version
  fault : GenerationFault
deriving DecidableEq

/- The wording of an error. -/
def GenerationError.message (e : GenerationError) : String :=
  s!"cannot generate {e.kind.name} parameters {e.version}: {e.fault.path}: {e.fault.reason}"

namespace Content

------------------------------------------------------------
-- Order
------------------------------------------------------------

/- Values in ascending order of a text. -/
def sortByText
    {α : Type}
    (key : α → String)
    (values : List α) : List α :=
  sortBy (fun a b => compare (key a) (key b)) values

/- Servers are ordered by owner and then by code. -/
def compareServers (a b : SecurityServer) : Ordering :=
  (a.owner.compare b.owner).then
    (compare a.serverCode b.serverCode)

/- Servers in ascending order. -/
def sortServers
    (servers : List SecurityServer) : List SecurityServer :=
  sortBy compareServers servers

/- Time-stamping authorities are ordered by name and address. -/
def compareTimestamping
    (a b : TimestampingAuthority) : Ordering :=
  (compare a.name b.name).then (compare a.url b.url)

/- Clients in ascending order, each once. -/
def sortClients (clients : List ClientId) : List ClientId :=
  sortOnce ClientId.compare clients

/- Texts in ascending order, each once. -/
def sortTexts (texts : List String) : List String :=
  sortOnce compare texts

/- The hashes of a server's certificates in ascending order. -/
def certHashes (server : SecurityServer) : List String :=
  sortTexts
    (server.authCerts.map CertificateBytes.fingerprint)

------------------------------------------------------------
-- Members
------------------------------------------------------------

/- A member with its subsystems in order. -/
def member (m : Member) : Json :=
  .ofMembers
    (m.id.members ++
      [ ("name", .string m.name),
        ("subsystems",
          Json.ofList .string (sortTexts m.subsystems)) ])

/- The members in order. -/
def members (r : Registry) : Json :=
  Json.ofList member
    (sortBy (fun a b => a.id.compare b.id) r.members)

/- A class of members. -/
def memberClass (c : MemberClass) : Json :=
  .ofMembers
    [ ("code", .string c.code),
      ("description", .string c.description) ]

/- The classes of members in order. -/
def memberClasses (r : Registry) : Json :=
  Json.ofList memberClass
    (sortByText MemberClass.code r.memberClasses)

------------------------------------------------------------
-- Security Servers
------------------------------------------------------------

/- What every version shows of a server. -/
def serverParts (s : SecurityServer) : Json.Members :=
  [ ("owner", s.owner.toJson),
    ("serverCode", .string s.serverCode),
    ("address", .string s.address),
    ("authCertHashes",
      Json.ofList .string (certHashes s)) ]

/- A server with its clients in order. -/
def securityServer (s : SecurityServer) : Json :=
  .ofMembers
    (serverParts s ++
      [ ("clients",
          Json.ofList ClientId.toJson
            (sortClients s.clients)) ])

/- The servers in order. -/
def securityServers (r : Registry) : Json :=
  Json.ofList securityServer (sortServers r.securityServers)

/- A server of the operator, without its clients. -/
def operatorServer (s : SecurityServer) : Json :=
  .ofMembers (serverParts s)

------------------------------------------------------------
-- Groups
------------------------------------------------------------

/- A group with its members in order. -/
def globalGroup (g : GlobalGroup) : Json :=
  .ofMembers
    [ ("groupCode", .string g.groupCode),
      ("description", .string g.description),
      ("members",
        Json.ofList ClientId.toJson (sortClients g.members)) ]

/- The groups in order. -/
def globalGroups (r : Registry) : Json :=
  Json.ofList globalGroup
    (sortByText GlobalGroup.groupCode r.globalGroups)

------------------------------------------------------------
-- Trust Services
------------------------------------------------------------

/- A certificate with its responders in order of address. -/
def caInfo (c : CaInfo) : Json :=
  .ofMembers
    [ ("cert", c.cert.toJson),
      ("ocsp",
        Json.ofList OcspResponder.toJson
          (sortByText OcspResponder.url c.ocsp)) ]

/- What every version shows of an authority. -/
def authorityParts
    (a : CertificationAuthority) : Json.Members :=
  [ ("name", .string a.name),
    ("authenticationOnly", .bool a.authenticationOnly),
    ("topCA", caInfo a.topCa),
    ("intermediateCAs",
      Json.ofList caInfo a.intermediateCas) ]

/- An authority without a profile. -/
def authority (a : CertificationAuthority) : Json :=
  .ofMembers (authorityParts a)

/- The profile of an authority that is registered without one. -/
def defaultProfile : String := "fedconf.profile.Default"

/- An authority with its profile. -/
def authorityWithProfile (a : CertificationAuthority) : Json :=
  .ofMembers
    (authorityParts a ++
      [ ("certificateProfileInfo",
          .string
            (a.certificateProfileInfo.getD defaultProfile)) ])

/- The authorities in order, each as it is to be shown. -/
def authorities
    (render : CertificationAuthority → Json)
    (r : Registry) : Json :=
  Json.ofList render
    (sortByText CertificationAuthority.name
      r.certificationAuthorities)

/- The time-stamping authorities in order. -/
def timestamping (r : Registry) : Json :=
  Json.ofList TimestampingAuthority.toJson
    (sortBy compareTimestamping r.timestampingAuthorities)

------------------------------------------------------------
-- Private Parameters
------------------------------------------------------------

/- The sources with their places, in order of address. -/
def sortedSources
    (r : Registry) : List (ConfigurationSource × Nat) :=
  sortByText (fun entry => entry.1.downloadUrl)
    r.configurationSources.zipIdx

/- A source with a fault if it has no certificate. -/
def anchorSource
    (render : CertificateBytes → List CertificateBytes →
      String × Json)
    (entry : ConfigurationSource × Nat) :
    Except GenerationFault Json :=
  match entry.1.verificationCerts with
  | [] => .error (.noCertificate entry.2)
  | cert :: certs =>
      .ok
        (.ofMembers
          [ ("downloadUrl", .string entry.1.downloadUrl),
            render cert certs ])

/- The sources in order, each as it is to be shown. -/
def anchorSources
    (render : CertificateBytes → List CertificateBytes →
      String × Json)
    (r : Registry) : Except GenerationFault Json := do
  let sources ← (sortedSources r).mapM (anchorSource render)
  return .ofMembers [("sources", .array sources)]

/- The first certificate of a source. -/
def firstCert
    (cert : CertificateBytes)
    (_ : List CertificateBytes) : String × Json :=
  ("verificationCert", cert.toJson)

/- All certificates of a source in order, each once. -/
def allCerts
    (cert : CertificateBytes)
    (certs : List CertificateBytes) : String × Json :=
  ( "verificationCerts",
    Json.ofList .string
      (sortTexts
        ((cert :: certs).map CertificateBytes.toBase64)) )

/- What every version shows of the management service. -/
def managementParts (m : ManagementService) : Json.Members :=
  [ ("authCertRegServiceAddress",
      .string m.authCertRegServiceAddress),
    ("authCertRegServiceCert",
      m.authCertRegServiceCert.toJson),
    ("managementRequestServiceProviderId",
      m.serviceProvider.toJson) ]

/- There is a source of configuration. -/
def requireSources
    (r : Registry) : Except GenerationFault Unit :=
  if r.configurationSources.isEmpty then .error .noSource
  else .ok ()

/- A number of seconds that is not zero. -/
def positiveSeconds
    (setting : String)
    (seconds : UInt64) : Except GenerationFault Json :=
  if seconds = 0 then .error (.noInterval setting)
  else .ok (.ofNat seconds.toNat)

end Content

end Federation
