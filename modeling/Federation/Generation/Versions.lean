import Federation.Generation.Content

/-
  This file defines the content of the documents of each
  version that the library generates.

  The second version adds to private parameters every
  certificate of a source and the operator's own servers, and
  to shared parameters the profiles of authorities and the
  classes of members.

  Key definitions include:
    * `Content.privateV1`, `Content.privateV2`
    * `Content.sharedV1`, `Content.sharedV2`
-/

namespace Federation

namespace Content

------------------------------------------------------------
-- Private Parameters
------------------------------------------------------------

/- The interval between batches of time stamps. -/
def timestampingInterval
    (r : Registry) : Except GenerationFault Json :=
  positiveSeconds "timeStampingIntervalSeconds"
    r.globalSettings.timeStampingIntervalSeconds

/- The content of private parameters in the first version. -/
def privateV1
    (r : Registry) : Except GenerationFault Json.Members := do
  requireSources r
  let interval ← timestampingInterval r
  let anchor ← anchorSources firstCert r
  return Table.ofList
    [ ("instanceIdentifier", .string r.instanceIdentifier),
      ("configurationAnchor", anchor),
      ("managementService",
        .ofMembers (managementParts r.managementService)),
      ("timeStampingIntervalSeconds", interval) ]

/- The operator's servers that have a certificate, in order. -/
def operatorServers (r : Registry) : List SecurityServer :=
  sortServers
    (r.securityServers.filter fun s =>
      s.owner = r.operator ∧ s.authCerts ≠ [])

/-
  The code of the server with the management service: the
  registered one if it is the operator's, and else the first
  of the operator's servers.
-/
def managementServer
    (r : Registry) : Except GenerationFault String :=
  match operatorServers r with
  | [] => .error (.noOperatorServer r.operator)
  | first :: rest =>
      match r.managementService.securityServer with
      | none => .ok first.serverCode
      | some code =>
          if (first :: rest).any
              (fun s => s.serverCode == code) then
            .ok code
          else .error (.foreignServer code r.operator)

/- The content of private parameters in the second version. -/
def privateV2
    (r : Registry) : Except GenerationFault Json.Members := do
  let code ← managementServer r
  requireSources r
  let interval ← timestampingInterval r
  let anchor ← anchorSources allCerts r
  return Table.ofList
    [ ("instanceIdentifier", .string r.instanceIdentifier),
      ("operator", r.operator.toJson),
      ("securityServers",
        Json.ofList operatorServer (operatorServers r)),
      ("configurationAnchor", anchor),
      ("managementService",
        .ofMembers
          (managementParts r.managementService ++
            [ ("managementRequestServiceServerCode",
                .string code) ])),
      ("timeStampingIntervalSeconds", interval) ]

------------------------------------------------------------
-- Shared Parameters
------------------------------------------------------------

/- The greatest age of a certificate's status. -/
def ocspFreshness
    (r : Registry) : Except GenerationFault Json :=
  positiveSeconds "ocspFreshnessSeconds"
    r.globalSettings.ocspFreshnessSeconds

/- Shared parameters with a version's own parts. -/
def shared
    (render : CertificationAuthority → Json)
    (settings : Json.Members)
    (r : Registry) : Except GenerationFault Json.Members := do
  let freshness ← ocspFreshness r
  return Table.ofList
    [ ("instanceIdentifier", .string r.instanceIdentifier),
      ("approvedCAs", authorities render r),
      ("approvedTSAs", timestamping r),
      ("members", members r),
      ("securityServers", securityServers r),
      ("globalGroups", globalGroups r),
      ("globalSettings",
        .ofMembers
          (("ocspFreshnessSeconds", freshness) :: settings)) ]

/- The content of shared parameters in the first version. -/
def sharedV1
    (r : Registry) : Except GenerationFault Json.Members :=
  shared authority [] r

/- The content of shared parameters in the second version. -/
def sharedV2
    (r : Registry) : Except GenerationFault Json.Members :=
  shared authorityWithProfile
    [("memberClasses", memberClasses r)] r

end Content

end Federation
