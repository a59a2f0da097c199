import Federation.Certificate.Bytes
import Federation.Reading.Identity

/-
  This file defines the state of a federation's registry at
  one instant, its JSON form, and its reading.

  Key definitions include:
    * `Registry`
    * `Registry.operator`
    * `Registry.toJson`
    * `Registry.read`
-/

namespace Federation

open Reading

variable {σ : Type} [Source σ]

------------------------------------------------------------
-- Members
------------------------------------------------------------

/- A declared class of members. -/
structure MemberClass where
  code : String
  description : String
deriving DecidableEq

namespace MemberClass

/- A class as an object. -/
def toJson (c : MemberClass) : Json :=
  .ofMembers
    [ ("code", .string c.code),
      ("description", .string c.description) ]

/- Read a class; its description may be left out. -/
def read : Reader σ MemberClass :=
  (((Record.pure MemberClass.mk).required
      "code" text).withDefault
    "description" text "").read "MemberClass" false

end MemberClass

/- A registered member with its subsystems. -/
structure Member where
  id : MemberId
  name : String
  subsystems : List String
deriving DecidableEq

namespace Member

/- A member as an object that holds its identifier's parts. -/
def toJson (m : Member) : Json :=
  .ofMembers
    (m.id.members ++
      [ ("name", .string m.name),
        ("subsystems", Json.ofList .string m.subsystems) ])

/- The fields of a member beside its identifier. -/
def record : Record σ (MemberId → Member) :=
  ((Record.pure fun name subsystems id =>
      Member.mk id name subsystems).required
      "name" text).withDefault
    "subsystems" (list text) []

/- Read a member with its identifier's parts. -/
def read : Reader σ Member :=
  Record.readShared "Member" record MemberId.readEntries

end Member

------------------------------------------------------------
-- Security Servers
------------------------------------------------------------

/- A registered security server. -/
structure SecurityServer where
  owner : MemberId
  serverCode : String
  address : String
  authCerts : List CertificateBytes
  clients : List ClientId
deriving DecidableEq

namespace SecurityServer

/- A server as an object. -/
def toJson (s : SecurityServer) : Json :=
  .ofMembers
    [ ("owner", s.owner.toJson),
      ("serverCode", .string s.serverCode),
      ("address", .string s.address),
      ("authCerts",
        Json.ofList CertificateBytes.toJson s.authCerts),
      ("clients", Json.ofList ClientId.toJson s.clients) ]

/- The fields of a server. -/
def record : Record σ SecurityServer :=
  (((((Record.pure SecurityServer.mk).required
      "owner" MemberId.read).required
      "serverCode" text).required
      "address" text).withDefault
      "authCerts" (list CertificateBytes.read) []).withDefault
    "clients" (list ClientId.read) []

/- Read a server. -/
def read : Reader σ SecurityServer :=
  record.read "SecurityServer" false

end SecurityServer

------------------------------------------------------------
-- Trust Services
------------------------------------------------------------

/- A responder, with a certificate if it has one of its own. -/
structure OcspResponder where
  url : String
  cert : Option CertificateBytes
deriving DecidableEq

namespace OcspResponder

/- A responder as an object. -/
def toJson (r : OcspResponder) : Json :=
  .ofMembers
    (("url", .string r.url) ::
      r.cert.toList.map fun cert => ("cert", cert.toJson))

/- Read a responder. -/
def read : Reader σ OcspResponder :=
  (((Record.pure OcspResponder.mk).required
      "url" text).withDefault
    "cert" (optional CertificateBytes.read) none).read
      "OcspResponder" false

end OcspResponder

/- A certificate of an authority with its responders. -/
structure CaInfo where
  cert : CertificateBytes
  ocsp : List OcspResponder
deriving DecidableEq

namespace CaInfo

/- A certificate with its responders as an object. -/
def toJson (c : CaInfo) : Json :=
  .ofMembers
    [ ("cert", c.cert.toJson),
      ("ocsp", Json.ofList OcspResponder.toJson c.ocsp) ]

/- Read a certificate with its responders. -/
def read : Reader σ CaInfo :=
  (((Record.pure CaInfo.mk).required
      "cert" CertificateBytes.read).withDefault
    "ocsp" (list OcspResponder.read) []).read "CaInfo" false

end CaInfo

/- An approved certification authority. -/
structure CertificationAuthority where
  name : String
  authenticationOnly : Bool
  topCa : CaInfo
  intermediateCas : List CaInfo
  certificateProfileInfo : Option String
deriving DecidableEq

namespace CertificationAuthority

/- An authority as an object. -/
def toJson (a : CertificationAuthority) : Json :=
  .ofMembers
    ([ ("name", .string a.name),
        ("authenticationOnly", .bool a.authenticationOnly),
        ("topCa", a.topCa.toJson),
        ("intermediateCas",
          Json.ofList CaInfo.toJson a.intermediateCas) ] ++
      a.certificateProfileInfo.toList.map fun profile =>
        ("certificateProfileInfo", .string profile))

/- The fields of an authority. -/
def record : Record σ CertificationAuthority :=
  (((((Record.pure CertificationAuthority.mk).required
      "name" text).withDefault
      "authenticationOnly" flag false).required
      "topCa" CaInfo.read).withDefault
      "intermediateCas" (list CaInfo.read) []).withDefault
    "certificateProfileInfo" (optional text) none

/- Read an authority. -/
def read : Reader σ CertificationAuthority :=
  record.read "CertificationAuthority" false

end CertificationAuthority

/- An approved time-stamping authority. -/
structure TimestampingAuthority where
  name : String
  url : String
  cert : CertificateBytes
deriving DecidableEq

namespace TimestampingAuthority

/- An authority as an object. -/
def toJson (a : TimestampingAuthority) : Json :=
  .ofMembers
    [ ("name", .string a.name), ("url", .string a.url),
      ("cert", a.cert.toJson) ]

/- Read an authority. -/
def read : Reader σ TimestampingAuthority :=
  ((((Record.pure TimestampingAuthority.mk).required
      "name" text).required
      "url" text).required
    "cert" CertificateBytes.read).read
      "TimestampingAuthority" false

end TimestampingAuthority

------------------------------------------------------------
-- Groups
------------------------------------------------------------

/- A group of clients. -/
structure GlobalGroup where
  groupCode : String
  description : String
  members : List ClientId
deriving DecidableEq

namespace GlobalGroup

/- A group as an object. -/
def toJson (g : GlobalGroup) : Json :=
  .ofMembers
    [ ("groupCode", .string g.groupCode),
      ("description", .string g.description),
      ("members", Json.ofList ClientId.toJson g.members) ]

/- Read a group. -/
def read : Reader σ GlobalGroup :=
  ((((Record.pure GlobalGroup.mk).required
      "groupCode" text).withDefault
      "description" text "").withDefault
    "members" (list ClientId.read) []).read
      "GlobalGroup" false

end GlobalGroup

------------------------------------------------------------
-- Configuration
------------------------------------------------------------

/- A place from which configuration is downloaded. -/
structure ConfigurationSource where
  downloadUrl : String
  verificationCerts : List CertificateBytes
deriving DecidableEq

namespace ConfigurationSource

/- A source as an object. -/
def toJson (s : ConfigurationSource) : Json :=
  .ofMembers
    [ ("downloadUrl", .string s.downloadUrl),
      ("verificationCerts",
        Json.ofList CertificateBytes.toJson
          s.verificationCerts) ]

/- Read a source. -/
def read : Reader σ ConfigurationSource :=
  (((Record.pure ConfigurationSource.mk).required
      "downloadUrl" text).withDefault
    "verificationCerts" (list CertificateBytes.read) []).read
      "ConfigurationSource" false

end ConfigurationSource

/- The management service of the operator. -/
structure ManagementService where
  authCertRegServiceAddress : String
  authCertRegServiceCert : CertificateBytes
  serviceProvider : ClientId
  securityServer : Option String
deriving DecidableEq

namespace ManagementService

/- The management service as an object. -/
def toJson (m : ManagementService) : Json :=
  .ofMembers
    ([ ("authCertRegServiceAddress",
          .string m.authCertRegServiceAddress),
        ("authCertRegServiceCert",
          m.authCertRegServiceCert.toJson),
        ("serviceProvider", m.serviceProvider.toJson) ] ++
      m.securityServer.toList.map fun code =>
        ("securityServer", .string code))

/- Read the management service. -/
def read : Reader σ ManagementService :=
  (((((Record.pure ManagementService.mk).required
      "authCertRegServiceAddress" text).required
      "authCertRegServiceCert" CertificateBytes.read).required
      "serviceProvider" ClientId.read).withDefault
    "securityServer" (optional text) none).read
      "ManagementService" false

end ManagementService

/- The settings of the federation, in seconds. -/
structure GlobalSettings where
  ocspFreshnessSeconds : UInt64
  timeStampingIntervalSeconds : UInt64
deriving DecidableEq

namespace GlobalSettings

/- The settings of a registry that has none of its own. -/
def initial : GlobalSettings :=
  ⟨600, 60⟩

/- The settings as an object. -/
def toJson (s : GlobalSettings) : Json :=
  .ofMembers
    [ ("ocspFreshnessSeconds",
        .ofNat s.ocspFreshnessSeconds.toNat),
      ("timeStampingIntervalSeconds",
        .ofNat s.timeStampingIntervalSeconds.toNat) ]

/- Read a number of seconds. -/
def readSeconds : Reader σ UInt64 :=
  fun v => (unsigned 64 v).map UInt64.ofNat

/- Read the settings, any of which may be left out. -/
def read : Reader σ GlobalSettings :=
  (((Record.pure GlobalSettings.mk).withDefault
      "ocspFreshnessSeconds" readSeconds
        initial.ocspFreshnessSeconds).withDefault
    "timeStampingIntervalSeconds" readSeconds
      initial.timeStampingIntervalSeconds).read
        "GlobalSettings" false

end GlobalSettings

------------------------------------------------------------
-- Registries
------------------------------------------------------------

/- The state of a registry at one instant. -/
structure Registry where
  instanceIdentifier : String
  memberClasses : List MemberClass
  members : List Member
  securityServers : List SecurityServer
  certificationAuthorities : List CertificationAuthority
  timestampingAuthorities : List TimestampingAuthority
  globalGroups : List GlobalGroup
  configurationSources : List ConfigurationSource
  managementService : ManagementService
  globalSettings : GlobalSettings
deriving DecidableEq

namespace Registry

/- The member that provides the management service. -/
def operator (r : Registry) : MemberId :=
  r.managementService.serviceProvider.member

/- A registry as an object. -/
def toJson (r : Registry) : Json :=
  .ofMembers
    [ ("instanceIdentifier", .string r.instanceIdentifier),
      ("memberClasses",
        Json.ofList MemberClass.toJson r.memberClasses),
      ("members", Json.ofList Member.toJson r.members),
      ("securityServers",
        Json.ofList SecurityServer.toJson r.securityServers),
      ("certificationAuthorities",
        Json.ofList CertificationAuthority.toJson
          r.certificationAuthorities),
      ("timestampingAuthorities",
        Json.ofList TimestampingAuthority.toJson
          r.timestampingAuthorities),
      ("globalGroups",
        Json.ofList GlobalGroup.toJson r.globalGroups),
      ("configurationSources",
        Json.ofList ConfigurationSource.toJson
          r.configurationSources),
      ("managementService", r.managementService.toJson),
      ("globalSettings", r.globalSettings.toJson) ]

/- The fields of a registry; most lists may be left out. -/
def record : Record σ Registry :=
  ((((((((((Record.pure Registry.mk).required
      "instanceIdentifier" text).withDefault
      "memberClasses" (list MemberClass.read) []).withDefault
      "members" (list Member.read) []).withDefault
      "securityServers"
        (list SecurityServer.read) []).withDefault
      "certificationAuthorities"
        (list CertificationAuthority.read) []).withDefault
      "timestampingAuthorities"
        (list TimestampingAuthority.read) []).withDefault
      "globalGroups" (list GlobalGroup.read) []).withDefault
      "configurationSources"
        (list ConfigurationSource.read) []).required
      "managementService" ManagementService.read).withDefault
    "globalSettings" GlobalSettings.read
      GlobalSettings.initial

/- Read a registry. -/
def read : Reader σ Registry :=
  record.read "RegistrySnapshot" false

end Registry

end Federation
