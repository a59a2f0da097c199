import Federation.Generation.Generator

/-
  This file defines which of the registered versions is the
  current one: the highest that is eligible and not held
  back.

  Key definitions include:
    * `VersionPolicy`
    * `VersionPolicy.current`
    * `PolicyFault`
-/

namespace Federation

/- The versions held back, in ascending order and each once. -/
structure VersionPolicy where
  heldBack : List Version
deriving DecidableEq

/- No registered version may be the current one. -/
structure PolicyFault where
  registered : List Version
deriving DecidableEq

namespace PolicyFault

/- The registered versions with commas between them. -/
def listText (versions : List Version) : String :=
  if versions.isEmpty then "none"
  else ", ".intercalate (versions.map Version.display)

/- The wording of a fault. -/
def message (f : PolicyFault) : String :=
  s!"no configuration version is eligible to be current (registered: {listText f.registered})"

/- A fault as a value. -/
def toJson (f : PolicyFault) : Json :=
  .ofMembers
    [ ( "NoCurrentVersion",
        .ofMembers
          [ ( "registered",
              Json.ofList Version.toJson f.registered ) ] ) ]

end PolicyFault

namespace VersionPolicy

/- A list of versions with one more, kept ascending. -/
def insert
    (version : Version) : List Version → List Version
| [] => [version]
| v :: rest =>
    if version < v then version :: v :: rest
    else if version = v then v :: rest
    else v :: insert version rest

/- A policy that holds nothing back. -/
def empty : VersionPolicy :=
  ⟨[]⟩

/- Hold one more version back. -/
def holdBack
    (p : VersionPolicy)
    (version : Version) : VersionPolicy :=
  ⟨insert version p.heldBack⟩

/- A policy that holds versions back. -/
def ofList (versions : List Version) : VersionPolicy :=
  versions.foldl holdBack empty

/- Hold a version back no longer. -/
def release
    (p : VersionPolicy)
    (version : Version) : VersionPolicy :=
  ⟨p.heldBack.filter (· ≠ version)⟩

/- A version is held back. -/
def isHeldBack
    (p : VersionPolicy)
    (version : Version) : Bool :=
  p.heldBack.contains version

/- The highest version that is eligible and not held back. -/
def current
    (p : VersionPolicy)
    (s : GeneratorSet) : Except PolicyFault Version :=
  match s.generators.reverse.find? fun g =>
      g.isEligible && !p.isHeldBack g.version with
  | some generator => .ok generator.version
  | none => .error ⟨s.versions⟩

/- A policy as an object. -/
def toJson (p : VersionPolicy) : Json :=
  .ofMembers
    [("held_back", Json.ofList Version.toJson p.heldBack)]

/- Read a policy. -/
def read : Reading.Reader Json VersionPolicy :=
  ((Reading.Record.pure ofList).required "held_back"
    (Reading.list Version.read)).read "VersionPolicy" false

end VersionPolicy

end Federation
