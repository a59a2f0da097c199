import Federation.Validation

/-
  This file defines bundles, the two documents of a version
  that are published together, and what is recorded with
  them: the manifest of a bundle, and the index that names
  the current version.

  Key definitions include:
    * `Bundle`
    * `Bundle.new`
    * `Manifest`
    * `CurrentIndex`
-/

namespace Federation

open Reading

------------------------------------------------------------
-- Bundles
------------------------------------------------------------

/- Both documents of a version, with their digests. -/
structure Bundle where
  version : Version
  privateParameters : Document .privateParameters
  sharedParameters : Document .sharedParameters
  privateDigest : Digest
  sharedDigest : Digest
  private_declared : privateParameters.version = version
  shared_declared : sharedParameters.version = version

/-
  The bundle of a version. A document that declares another
  version is refused, the private one first.
-/
def Bundle.new
    (version : Version)
    (privateParameters : Document .privateParameters)
    (sharedParameters : Document .sharedParameters)
    (privateDigest sharedDigest : Digest) :
    Except ParameterError Bundle :=
  if hPrivate : privateParameters.version = version then
    if hShared : sharedParameters.version = version then
      .ok
        { version, privateParameters, sharedParameters
          privateDigest, sharedDigest
          private_declared := hPrivate
          shared_declared := hShared }
    else
      .error
        (.versionMismatch .sharedParameters
          (some sharedParameters.version) version)
  else
    .error
      (.versionMismatch .privateParameters
        (some privateParameters.version) version)

------------------------------------------------------------
-- Manifests
------------------------------------------------------------

variable {σ : Type} [Source σ]

/- Read the text of a digest. -/
def Digest.read : Reader σ Digest :=
  fun v => (text v).map Digest.mk

/- What is recorded of a published bundle. -/
structure Manifest where
  version : Version
  generatedAt : Instant
  publishedAt : Instant
  privateDigest : Digest
  sharedDigest : Digest
deriving DecidableEq

namespace Manifest

/- The manifest of a bundle that is published at an instant. -/
def ofBundle
    (b : Bundle)
    (publishedAt : Instant) : Manifest :=
  { version := b.version
    generatedAt := b.privateParameters.generatedAt
    publishedAt
    privateDigest := b.privateDigest
    sharedDigest := b.sharedDigest }

/- The members of a manifest as they are written. -/
def members (m : Manifest) : List (String × Json) :=
  [ ("version", m.version.toJson),
    ("generatedAt", .string m.generatedAt.display),
    ("publishedAt", .string m.publishedAt.display),
    ("privateDigest", m.privateDigest.toJson),
    ("sharedDigest", m.sharedDigest.toJson) ]

/- The fields of a manifest. -/
def record : Record σ Manifest :=
  (((((Record.pure Manifest.mk).required
      "version" Version.read).required
      "generatedAt" Document.readInstant).required
      "publishedAt" Document.readInstant).required
      "privateDigest" Digest.read).required
    "sharedDigest" Digest.read

/- Read a manifest. -/
def read : Reader σ Manifest :=
  record.read "Manifest" false

end Manifest

------------------------------------------------------------
-- The Current Version
------------------------------------------------------------

/- The version that is current, and since when. -/
structure CurrentIndex where
  currentVersion : Version
  updatedAt : Instant
deriving DecidableEq

namespace CurrentIndex

/- The members of an index as they are written. -/
def members (i : CurrentIndex) : List (String × Json) :=
  [ ("currentVersion", i.currentVersion.toJson),
    ("updatedAt", .string i.updatedAt.display) ]

/- Read an index. -/
def read : Reader σ CurrentIndex :=
  (((Record.pure CurrentIndex.mk).required
      "currentVersion" Version.read).required
    "updatedAt" Document.readInstant).read
      "CurrentIndex" false

end CurrentIndex

end Federation
