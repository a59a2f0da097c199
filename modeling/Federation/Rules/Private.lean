import Federation.Rules.Basic

/-
  This file defines the rules of private parameters: every
  certificate is one, and the servers and the management
  service belong to the operator.

  Key definitions include:
    * `Rules.privateParameters`
-/

namespace Federation

namespace Rules

/- The certificates of a source of configuration. -/
def source
    (version : Version)
    (place : Pointer)
    (v : Json) : List Finding :=
  if version = .v1 then
    certificate (place.key "verificationCert")
      (v.get? "verificationCert")
  else
    certificates (place.key "verificationCerts")
      (items "verificationCerts" v)

/- The certificates of all sources of configuration. -/
def sources
    (version : Version)
    (document : Json) : List Finding :=
  overItems
    (fun _ i v =>
      source version
        (((at_ "configurationAnchor").key "sources").index i) v)
    (items "sources" (part "configurationAnchor" document))

/- A server is the operator's, and its code is its own. -/
def operatorServer
    (operator : MemberKey)
    (earlier : List Json)
    (i : Nat)
    (server : Json) : List Finding :=
  let place := (at_ "securityServers").index i
  let owner := memberKey (part "owner" server)
  let code := text "serverCode" server
  whenever (owner != operator) (place.key "owner")
      (.foreignServer owner operator) ++
    whenever
      ((earlier.map (text "serverCode")).contains code)
      (place.key "serverCode") (.repeatedServerCode code)

/- The management service is at a server of the operator. -/
def managementService
    (operator : MemberKey)
    (servers : List Json)
    (management : Json) : List Finding :=
  let place := at_ "managementService"
  let provider :=
    memberKey
      (part "managementRequestServiceProviderId" management)
  let code :=
    text "managementRequestServiceServerCode" management
  whenever (provider != operator)
      (place.key "managementRequestServiceProviderId")
      (.foreignProvider provider operator) ++
    whenever
      (!(servers.map (text "serverCode")).contains code)
      (place.key "managementRequestServiceServerCode")
      (.unlistedServer code)

/- What breaks the rules of the operator. -/
def operatorParts (document : Json) : List Finding :=
  let operator := memberKey (part "operator" document)
  let servers := items "securityServers" document
  overItems (operatorServer operator) servers ++
    managementService operator servers
      (part "managementService" document)

/- What breaks the rules of private parameters. -/
def privateParameters
    (version : Version)
    (document : Json) : List Finding :=
  sources version document ++
    certificate
        ((at_ "managementService").key "authCertRegServiceCert")
        ((part "managementService" document).get?
          "authCertRegServiceCert") ++
      if Version.v2 ≤ version then operatorParts document
      else []

end Rules

end Federation
