import Federation.Publication.Bundle
import Federation.Storage.Program

/-
  This file defines publishers, which publish bundles and
  name the current version, and the errors they give.

  Key definitions include:
    * `PublicationError`
    * `PublicationError.message`
    * `Published`
    * `Publisher`
-/

namespace Federation

------------------------------------------------------------
-- Errors
------------------------------------------------------------

/- What a publisher does with a file or directory. -/
inductive StorageAction where
| create
| write
| rename
| read
deriving DecidableEq, Repr

/- The name of an action. -/
def StorageAction.name : StorageAction → String
| .create => "create"
| .write => "write"
| .rename => "rename"
| .read => "read"

/- Why a bundle is not published, or an index not moved. -/
inductive PublicationError where
/- An action on a path fails. -/
| storage
    (action : StorageAction)
    (path : Path)
    (fault : StorageFault)
/- A file does not hold what it should. -/
| content (path : Path)
/- The earlier bundle is kept where it was moved to. -/
| notRestored
    (version : Version)
    (retired : Path)
    (fault : StorageFault)
/- A version to be current has no bundle. -/
| notPublished (version : Version)
deriving DecidableEq

/- The wording of an error. -/
def PublicationError.message : PublicationError → String
| .storage action path fault =>
    s!"{action.name} {path.text}: {fault.message}"
| .content path =>
    s!"serialization failed: {path.text}"
| .notRestored version retired fault =>
    s!"failed to restore previous publication of {version} from {retired.text}: {fault.message}"
| .notPublished version =>
    s!"configuration version {version} has not been published"

------------------------------------------------------------
-- Publishers
------------------------------------------------------------

/- A value, or an error of publication. -/
abbrev Published (α : Type) :=
  Except PublicationError α

/- A destination of bundles. -/
structure Publisher where
  publish : Bundle → Program (Published Unit)
  markCurrent : Version → Program (Published Unit)

end Federation
