import Federation.Schema.Mismatch

/-
  This file defines the schemas of private and shared
  parameters in each version that has one.

  Key definitions include:
    * `ParameterSchema`
    * `ParameterSchema.find?`
    * `ParameterSchema.versions`
    * `ParameterSchema.describeAll`
-/

namespace Federation

namespace Schema

------------------------------------------------------------
-- Patterns
------------------------------------------------------------

/- A decimal digit. -/
def digit : CharClass :=
  .oneOf [('0', '9')]

/- A hyphen. -/
def hyphen : Piece :=
  .one (.literal '-')

/- A colon. -/
def colon : Piece :=
  .one (.literal ':')

/- A date and a time of day in whole seconds. -/
def timestampPattern : Pattern :=
  [ .times digit 4, hyphen, .times digit 2, hyphen,
    .times digit 2, .one (.literal 'T'),
    .times digit 2, colon, .times digit 2, colon,
    .times digit 2, .one (.literal 'Z') ]

/- At least one character, and no slash. -/
def codePattern : Pattern :=
  [.some (.noneOf [('/', '/')])]

/- The name of a web protocol, and a text without space. -/
def urlPattern : Pattern :=
  [ .one (.literal 'h'), .one (.literal 't'),
    .one (.literal 't'), .one (.literal 'p'),
    ⟨.literal 's', 0, some 1⟩, colon,
    .one (.literal '/'), .one (.literal '/'),
    .some .notSpace ]

/- Sixty-four hexadecimal digits in lower case. -/
def hashPattern : Pattern :=
  [.times (.oneOf [('0', '9'), ('a', 'f')]) 64]

/- Symbols of base64 with at most two of padding. -/
def certificatePattern : Pattern :=
  [ .some
      (.oneOf
        [ ('A', 'Z'), ('a', 'z'), ('0', '9'),
          ('+', '+'), ('/', '/') ]),
    ⟨.literal '=', 0, some 2⟩ ]

------------------------------------------------------------
-- Values
------------------------------------------------------------

/- The instant of a document's generation. -/
def timestamp : Schema :=
  .text 0 (some timestampPattern)

/- A code of an identifier. -/
def code : Schema :=
  .text 1 (some codePattern)

/- The address of a service. -/
def url : Schema :=
  .text 0 (some urlPattern)

/- The hash of a certificate. -/
def hash : Schema :=
  .text 0 (some hashPattern)

/- A certificate. -/
def certificate : Schema :=
  .text 4 (some certificatePattern)

/- A text of at least one character. -/
def name : Schema :=
  .text 1 none

/- A text of any length. -/
def anyText : Schema :=
  .text 0 none

/- A list with any number of items. -/
def listOf (item : Schema) : Schema :=
  .list item 0 false

/- A list of different items. -/
def setOf (item : Schema) : Schema :=
  .list item 0 true

/- A record all of whose properties are required in order. -/
def recordOf (properties : List (String × Schema)) : Schema :=
  .record properties (properties.map Prod.fst)

/- A record with optional properties after required ones. -/
def recordWith
    (required optional : List (String × Schema)) : Schema :=
  .record (required ++ optional) (required.map Prod.fst)

------------------------------------------------------------
-- Identifiers
------------------------------------------------------------

/- The class and code of a member. -/
def memberParts : List (String × Schema) :=
  [("memberClass", code), ("memberCode", code)]

/- The identifier of a member. -/
def memberId : Schema :=
  recordOf memberParts

/- The identifier of a client. -/
def clientId : Schema :=
  recordWith memberParts [("subsystemCode", code)]

------------------------------------------------------------
-- Private Parameters
------------------------------------------------------------

/- The envelope of a document of a version. -/
def envelope (version : Nat) : List (String × Schema) :=
  [ ("version", .constant version),
    ("generatedAt", timestamp),
    ("instanceIdentifier", code) ]

/- The sources of configuration in the first version. -/
def anchorV1 : Schema :=
  recordOf
    [ ("sources",
        .list
          (recordOf
            [ ("downloadUrl", url),
              ("verificationCert", certificate) ])
          1 false) ]

/- The sources of configuration in the second version. -/
def anchorV2 : Schema :=
  recordOf
    [ ("sources",
        .list
          (recordOf
            [ ("downloadUrl", url),
              ("verificationCerts",
                .list certificate 1 false) ])
          1 false) ]

/- The management service in the first version. -/
def managementV1 : List (String × Schema) :=
  [ ("authCertRegServiceAddress", url),
    ("authCertRegServiceCert", certificate),
    ("managementRequestServiceProviderId", clientId) ]

/- The management service in the second version. -/
def managementV2 : List (String × Schema) :=
  managementV1 ++
    [("managementRequestServiceServerCode", code)]

/- A security server of the operator. -/
def operatorServer : Schema :=
  recordOf
    [ ("owner", memberId),
      ("serverCode", code),
      ("address", name),
      ("authCertHashes", .list hash 1 true) ]

/- Private parameters in the first version. -/
def privateV1 : List (String × Schema) :=
  envelope 1 ++
    [ ("configurationAnchor", anchorV1),
      ("managementService", recordOf managementV1),
      ("timeStampingIntervalSeconds", .whole 1) ]

/- Private parameters in the second version. -/
def privateV2 : List (String × Schema) :=
  envelope 2 ++
    [ ("operator", memberId),
      ("securityServers", .list operatorServer 1 false),
      ("configurationAnchor", anchorV2),
      ("managementService", recordOf managementV2),
      ("timeStampingIntervalSeconds", .whole 1) ]

------------------------------------------------------------
-- Shared Parameters
------------------------------------------------------------

/- A responder for the status of certificates. -/
def ocspResponder : Schema :=
  recordWith [("url", url)] [("cert", certificate)]

/- A certificate of an authority with its responders. -/
def caInfo : Schema :=
  recordOf
    [ ("cert", certificate),
      ("ocsp", listOf ocspResponder) ]

/- A certification authority in the first version. -/
def authorityV1 : List (String × Schema) :=
  [ ("name", name),
    ("authenticationOnly", .flag),
    ("topCA", caInfo),
    ("intermediateCAs", listOf caInfo) ]

/- A certification authority in the second version. -/
def authorityV2 : List (String × Schema) :=
  authorityV1 ++ [("certificateProfileInfo", name)]

/- A time-stamping authority. -/
def timestampingAuthority : Schema :=
  recordOf
    [("name", name), ("url", url), ("cert", certificate)]

/- A member with its subsystems. -/
def member : Schema :=
  recordOf
    (memberParts ++
      [("name", name), ("subsystems", setOf code)])

/- A security server with its clients. -/
def securityServer : Schema :=
  recordOf
    [ ("owner", memberId),
      ("serverCode", code),
      ("address", name),
      ("authCertHashes", setOf hash),
      ("clients", listOf clientId) ]

/- A group of clients. -/
def globalGroup : Schema :=
  recordOf
    [ ("groupCode", code),
      ("description", anyText),
      ("members", listOf clientId) ]

/- The settings in the first version. -/
def settingsV1 : List (String × Schema) :=
  [("ocspFreshnessSeconds", .whole 1)]

/- The settings in the second version. -/
def settingsV2 : List (String × Schema) :=
  settingsV1 ++
    [ ("memberClasses",
        listOf
          (recordOf
            [("code", code), ("description", anyText)])) ]

/- Shared parameters of a version with its own parts. -/
def sharedWith
    (version : Nat)
    (authority settings : List (String × Schema)) :
    List (String × Schema) :=
  envelope version ++
    [ ("approvedCAs", listOf (recordOf authority)),
      ("approvedTSAs", listOf timestampingAuthority),
      ("members", listOf member),
      ("securityServers", listOf securityServer),
      ("globalGroups", listOf globalGroup),
      ("globalSettings", recordOf settings) ]

/- Shared parameters in the first version. -/
def sharedV1 : List (String × Schema) :=
  sharedWith 1 authorityV1 settingsV1

/- Shared parameters in the second version. -/
def sharedV2 : List (String × Schema) :=
  sharedWith 2 authorityV2 settingsV2

end Schema

------------------------------------------------------------
-- Schemas of Documents
------------------------------------------------------------

/- The schema of the documents of a kind and version. -/
structure ParameterSchema where
  kind : DocumentKind
  version : Version
  properties : List (String × Schema)

namespace ParameterSchema

/- Every schema, by kind and then by version. -/
def all : List ParameterSchema :=
  [ ⟨.privateParameters, .v1, Schema.privateV1⟩,
    ⟨.privateParameters, .v2, Schema.privateV2⟩,
    ⟨.sharedParameters, .v1, Schema.sharedV1⟩,
    ⟨.sharedParameters, .v2, Schema.sharedV2⟩ ]

/- The schema of a kind and version, if there is one. -/
def find?
    (kind : DocumentKind)
    (version : Version) : Option ParameterSchema :=
  all.find? fun s => s.kind = kind ∧ s.version = version

/- The versions with a schema of a kind, in ascending order. -/
def versions (kind : DocumentKind) : List Version :=
  (all.filter fun s => s.kind = kind).map version

/- The schema of a whole document. -/
def root (s : ParameterSchema) : Schema :=
  Schema.recordOf s.properties

/- The names of the members that a document must have. -/
def required (s : ParameterSchema) : List String :=
  s.properties.map Prod.fst

/- The identifier of a schema. -/
def id (s : ParameterSchema) : String :=
  s!"https://schemas.fedconf.dev/{s.kind.name}-params/{s.version}.schema.json"

/- The name of a kind at the start of a title. -/
def titleName : DocumentKind → String
| .privateParameters => "Private"
| .sharedParameters => "Shared"

/- The title of a schema. -/
def title (s : ParameterSchema) : String :=
  s!"{titleName s.kind} parameters, configuration version {s.version.number}"

/- A description of all the schemas by their identifiers. -/
def describeAll : String :=
  let ids := all.map fun s => Text.quoted s.id
  "ParameterValidator \x7b schemas: [" ++
    ", ".intercalate ids ++ "] \x7d"

end ParameterSchema

end Federation
