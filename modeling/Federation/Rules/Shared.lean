import Federation.Rules.Basic

/-
  This file defines the rules of shared parameters: what is
  named is registered, what is registered is so once, and
  every certificate is one.

  Key definitions include:
    * `Rules.registeredMember?`
    * `Rules.client`
    * `Rules.sharedParameters`
-/

namespace Federation

namespace Rules

------------------------------------------------------------
-- Members
------------------------------------------------------------

/- A class is declared once. -/
def memberClass
    (earlier : List Json)
    (i : Nat)
    (v : Json) : List Finding :=
  let code := text "code" v
  whenever ((earlier.map (text "code")).contains code)
    ((((at_ "globalSettings").key "memberClasses").index
      i).key "code")
    (.repeatedClass code)

/- A member is of a declared class, if classes are, and once. -/
def member
    (declared : Option (List String))
    (earlier : List Json)
    (i : Nat)
    (v : Json) : List Finding :=
  let place := (at_ "members").index i
  let key := memberKey v
  let isUndeclared :=
    match declared with
    | none => false
    | some classes => !classes.contains key.memberClass
  whenever isUndeclared (place.key "memberClass")
      (.undeclaredClass key.memberClass) ++
    whenever ((earlier.map memberKey).contains key) place
      (.repeatedMember key)

/- The last entry of a member. -/
def registeredMember?
    (members : List Json)
    (key : MemberKey) : Option Json :=
  members.reverse.find? fun v => memberKey v = key

/- The codes of a member's subsystems. -/
def subsystems (v : Json) : List String :=
  (items "subsystems" v).filterMap Json.asString?

/- A client is a member, or a subsystem of one. -/
def client
    (members : List Json)
    (place : Pointer)
    (v : Json) : List Finding :=
  let key := memberKey v
  match registeredMember? members key with
  | none => [(place, .unknownMember key)]
  | some entry =>
      match (v.get? "subsystemCode").bind Json.asString? with
      | none => []
      | some code =>
          whenever (!(subsystems entry).contains code) place
            (.unknownSubsystem code key)

/- Each client of a list is registered. -/
def clients
    (members : List Json)
    (place : Pointer)
    (values : List Json) : List Finding :=
  overItems (fun _ i v => client members (place.index i) v)
    values

------------------------------------------------------------
-- Security Servers
------------------------------------------------------------

/- The hashes of a server's certificates. -/
def hashes (server : Json) : List Json :=
  items "authCertHashes" server

/- The place of the nearest of servers before with a hash. -/
def holder?
    (earlier : List Json)
    (hash : Json) : Option Nat :=
  (earlier.findIdx? fun server =>
      (hashes server).contains hash).map
    fun distance => earlier.length - 1 - distance

/-
  A hash is registered to no server before. One that the
  server itself has before counts as its own.
-/
def certificateHash
    (servers : List Json)
    (place : Pointer)
    (earlier : List Json)
    (j : Nat)
    (hash : Json) : List Finding :=
  match hash.asString? with
  | none => []
  | some _ =>
      if earlier.contains hash then []
      else
        match holder? servers hash with
        | none => []
        | some server =>
            [(place.index j, .repeatedCertificate server)]

/- The owner and code that name a server. -/
def serverKey (server : Json) : MemberKey × String :=
  (memberKey (part "owner" server), text "serverCode" server)

/- A server's owner is a member, and all in it is in order. -/
def securityServer
    (members : List Json)
    (earlier : List Json)
    (i : Nat)
    (server : Json) : List Finding :=
  let place := (at_ "securityServers").index i
  let (owner, code) := serverKey server
  whenever (registeredMember? members owner).isNone
      (place.key "owner") (.unknownOwner owner) ++
    whenever ((earlier.map serverKey).contains (owner, code))
      (place.key "serverCode") (.repeatedServer owner code) ++
    overItems
      (certificateHash earlier (place.key "authCertHashes"))
      (hashes server) ++
    clients members (place.key "clients")
      (items "clients" server)

------------------------------------------------------------
-- Groups
------------------------------------------------------------

/- A group's code is its own, and its members are registered. -/
def globalGroup
    (members : List Json)
    (earlier : List Json)
    (i : Nat)
    (group : Json) : List Finding :=
  let place := (at_ "globalGroups").index i
  let code := text "groupCode" group
  whenever ((earlier.map (text "groupCode")).contains code)
      (place.key "groupCode") (.repeatedGroup code) ++
    clients members (place.key "members")
      (items "members" group)

------------------------------------------------------------
-- Trust Services
------------------------------------------------------------

/- The certificates of an authority and its responders. -/
def authorityCertificates
    (place : Pointer)
    (v : Json) : List Finding :=
  certificate (place.key "cert") (v.get? "cert") ++
    overItems
      (fun _ i responder =>
        certificate
          (((place.key "ocsp").index i).key "cert")
          (responder.get? "cert"))
      (items "ocsp" v)

/- An authority's name is its own, and its certificates are ones. -/
def authority
    (earlier : List Json)
    (i : Nat)
    (v : Json) : List Finding :=
  let place := (at_ "approvedCAs").index i
  let name := text "name" v
  whenever ((earlier.map (text "name")).contains name)
      (place.key "name") (.repeatedAuthority name) ++
    authorityCertificates (place.key "topCA")
      (part "topCA" v) ++
    overItems
      (fun _ k info =>
        authorityCertificates
          ((place.key "intermediateCAs").index k) info)
      (items "intermediateCAs" v)

/- The certificate of a time-stamping authority. -/
def timestamping
    (i : Nat)
    (v : Json) : List Finding :=
  certificate (((at_ "approvedTSAs").index i).key "cert")
    (v.get? "cert")

------------------------------------------------------------
-- Documents
------------------------------------------------------------

/- The declared classes of members. -/
def memberClasses (document : Json) : List Json :=
  items "memberClasses" (part "globalSettings" document)

/- What breaks the rules of the declared classes. -/
def classes
    (version : Version)
    (document : Json) : List Finding :=
  if Version.v2 ≤ version then
    overItems memberClass (memberClasses document)
  else []

/- The codes of declared classes, in versions that have them. -/
def declaredClasses
    (version : Version)
    (document : Json) : Option (List String) :=
  if Version.v2 ≤ version then
    some ((memberClasses document).map (text "code"))
  else none

/- What breaks the rules of shared parameters. -/
def sharedParameters
    (version : Version)
    (document : Json) : List Finding :=
  let members := items "members" document
  classes version document ++
    overItems (member (declaredClasses version document))
      members ++
    overItems (securityServer members)
      (items "securityServers" document) ++
    overItems (globalGroup members)
      (items "globalGroups" document) ++
    overItems authority (items "approvedCAs" document) ++
    overItems (fun _ i v => timestamping i v)
      (items "approvedTSAs" document)

end Rules

end Federation
