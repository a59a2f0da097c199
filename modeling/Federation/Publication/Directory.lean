import Federation.Json.Reader
import Federation.Publication.Basic

/-
  This file defines publication in a directory. The bundle
  of a version is written beside its place and then moved
  there, and the index is replaced by a file that is written
  beside it.

  Key definitions include:
    * `Publication.stage`
    * `Publication.swapIn`
    * `Publication.publish`
    * `Publication.markCurrent`
    * `Publication.current`
    * `Publisher.directory`
-/

namespace Federation

namespace Publication

------------------------------------------------------------
-- Names
------------------------------------------------------------

/- The file of a bundle's manifest. -/
def manifestFile : String := "manifest.json"

/- The file of the index. -/
def indexFile : String := "current.json"

/- The file in which a new index is written. -/
def newIndexFile : String := "current.json.tmp"

/- The directory of a version's bundle. -/
def versionDirectory
    (root : Path)
    (version : Version) : Path :=
  root.join version.display

/- The name of a directory in which a bundle is written. -/
def stagingName (version : Version) (fresh : String) : String :=
  s!".{version}.staging-{fresh}"

/- The name of a directory that holds an earlier bundle. -/
def retiredName (version : Version) (fresh : String) : String :=
  s!".{version}.retired-{fresh}"

------------------------------------------------------------
-- Steps
------------------------------------------------------------

/- Go on after an action, or end in the error of its fault. -/
def attempt
    {α β : Type}
    (action : StorageAction)
    (path : Path)
    (program : Program (Stored α))
    (next : α → Program (Published β)) : Program (Published β) :=
  program.bind fun
    | .ok value => next value
    | .error fault =>
        .done (.error (.storage action path fault))

/- The bytes of an object with a line for each member. -/
def fileBytes (members : List (String × Json)) : Bytes :=
  Text.toBytes (Json.indented (.object members))

/- The files of a bundle that is published at an instant. -/
def bundleFiles
    (b : Bundle)
    (publishedAt : Instant) : List (String × Bytes) :=
  [ (DocumentKind.privateParameters.fileName,
      fileBytes b.privateParameters.members),
    (DocumentKind.sharedParameters.fileName,
      fileBytes b.sharedParameters.members),
    (manifestFile,
      fileBytes (Manifest.ofBundle b publishedAt).members) ]

/- Write files into a directory, one after the other. -/
def writeFiles
    (directory : Path) :
    List (String × Bytes) → Program (Published Unit)
| [] => .done (.ok ())
| (name, content) :: rest =>
    let path := directory.join name
    attempt .write path
      (.write path content) fun _ =>
        writeFiles directory rest

/- Write a bundle into a new directory. -/
def stage
    (staging : Path)
    (b : Bundle) : Program (Published Unit) :=
  attempt .create staging
    (.create staging) fun _ => do
      let publishedAt ← Program.now
      writeFiles staging (bundleFiles b publishedAt)

/- Move the earlier bundle away and a new one to its place. -/
def replaceBundle
    (root staging target : Path)
    (version : Version) : Program (Published Unit) := do
  let fresh ← Program.freshName
  let retired := root.join (retiredName version fresh)
  attempt .rename target
    (.rename target retired) fun _ => do
      match ← Program.rename staging target with
      | .ok _ =>
          let _ ← Program.removeAll retired
          return .ok ()
      | .error fault =>
          match ← Program.rename retired target with
          | .ok _ =>
              return .error (.storage .rename staging fault)
          | .error lost =>
              return .error (.notRestored version retired lost)

/- Move a new bundle to the place of its version. -/
def swapIn
    (root staging target : Path)
    (version : Version) : Program (Published Unit) := do
  if ← Program.isPresent target then
    replaceBundle root staging target version
  else
    attempt .rename staging
      (.rename staging target) fun _ =>
        .done (.ok ())

/- Remove what an unsuccessful publication has written. -/
def discard (staging : Path) : Program Unit := do
  if ← Program.isPresent staging then
    let _ ← Program.removeAll staging
    return ()
  else return ()

/- Write a bundle and move it to the place of its version. -/
def install
    (root staging : Path)
    (b : Bundle) : Program (Published Unit) := do
  match ← stage staging b with
  | .error e => return .error e
  | .ok _ =>
      swapIn root staging (versionDirectory root b.version)
        b.version

------------------------------------------------------------
-- Publication
------------------------------------------------------------

/-
  Publish a bundle below a root, in place of an earlier
  bundle of its version.
-/
def publish
    (root : Path)
    (b : Bundle) : Program (Published Unit) :=
  attempt .create root
    (.createAll root) fun _ => do
      let fresh ← Program.freshName
      let staging := root.join (stagingName b.version fresh)
      match ← install root staging b with
      | .ok _ => return .ok ()
      | .error e =>
          discard staging
          return .error e

/- Make a version that has been published the current one. -/
def markCurrent
    (root : Path)
    (version : Version) : Program (Published Unit) := do
  let manifest :=
    (versionDirectory root version).join manifestFile
  if ← Program.isFile manifest then
    let updatedAt ← Program.now
    let index : CurrentIndex := ⟨version, updatedAt⟩
    let written := root.join newIndexFile
    attempt .write written
      (.write written (fileBytes index.members))
      fun _ =>
        attempt .rename written
          (.rename written (root.join indexFile))
          fun _ => .done (.ok ())
  else return .error (.notPublished version)

------------------------------------------------------------
-- Reading Back
------------------------------------------------------------

/- The value in the bytes of a file. -/
def decode?
    {α : Type}
    (reader : Reading.Reader Json.Draft α)
    (content : Bytes) : Option α := do
  let text ← Text.ofBytes? content
  let draft ← Json.Draft.ofText? text
  (reader draft).toOption

/- Read a file that may be missing. -/
def readFile
    {α : Type}
    (reader : Reading.Reader Json.Draft α)
    (path : Path) : Program (Published (Option α)) := do
  match ← Program.read path with
  | .error .notFound => return .ok none
  | .error fault => return .error (.storage .read path fault)
  | .ok content =>
      match decode? reader content with
      | none => return .error (.content path)
      | some value => return .ok (some value)

/- The version that the index names. -/
def current (root : Path) : Program (Published (Option Version)) := do
  match ← readFile CurrentIndex.read (root.join indexFile) with
  | .error e => return .error e
  | .ok index => return .ok (index.map (·.currentVersion))

/- The manifest of a version's bundle. -/
def manifest
    (root : Path)
    (version : Version) : Program (Published (Option Manifest)) :=
  readFile Manifest.read
    ((versionDirectory root version).join manifestFile)

end Publication

/- The publisher of a directory. -/
def Publisher.directory (root : Path) : Publisher :=
  { publish := Publication.publish root
    markCurrent := Publication.markCurrent root }

end Federation
