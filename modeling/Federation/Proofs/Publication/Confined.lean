import Federation.Proofs.Publication.Names
import Federation.Proofs.Storage.Confined

/-
  What the publication of a bundle does, whether it succeeds
  or not: it works under the names of the version alone, and
  to write or to remove what stands beside the place of the
  version concerns that name only.

  Main declarations:
    * `Publication.behaves_stage`
    * `Publication.behaves_discard`
    * `Publication.behaves_publish`
-/

namespace Federation

namespace Publication

open Program (behaves_ask)

variable {root : Path}
variable {names : String → Prop}
variable {name : String}
variable {version : Version}

/- A program that does operations under some names only. -/
def WorksWithin
    {α : Type}
    (root : Path)
    (names : String → Prop)
    (p : Program α) : Prop :=
  p.Behaves (Operation.IsWithin root names) fun _ => True

theorem behaves_attempt
    {α β : Type}
    {action : StorageAction}
    {path : Path}
    {program : Program (Stored α)}
    {next : α → Program (Published β)}
    (hProgram : WorksWithin root names program)
    (hNext : ∀ a, WorksWithin root names (next a)) :
    WorksWithin root names
      (attempt action path program next) := by
  apply hProgram.bind
  intro a _
  cases a with
  | error fault => trivial
  | ok value => exact hNext value

theorem behaves_writeFiles
    (hName : names name)
    (files : List (String × Bytes)) :
    WorksWithin root names
      (writeFiles (root.join name) files) := by
  induction files with
  | nil => trivial
  | cons file files ih =>
      rcases file with ⟨file, content⟩
      refine behaves_attempt ?_ fun _ => ih
      exact behaves_ask (.write file content hName)

/- A bundle is written under one name. -/
theorem behaves_stage
    (b : Bundle)
    (hName : names name) :
    WorksWithin root names (stage (root.join name) b) := by
  refine behaves_attempt ?_ fun _ => ?_
  · exact behaves_ask (.create hName)
  apply (behaves_ask .now).bind
  intro publishedAt _
  exact behaves_writeFiles hName _

theorem behaves_discard
    (hName : names name) :
    WorksWithin root names (discard (root.join name)) := by
  apply (behaves_ask (.isPresent _)).bind
  intro isPresent _
  cases isPresent with
  | false => trivial
  | true =>
      apply (behaves_ask (.removeAll hName)).bind
      intro _ _
      trivial

/- A bundle is replaced under the names of its version. -/
theorem behaves_replaceBundle (fresh : String) :
    WorksWithin root (Owns version)
      (replaceBundle root
        (root.join (stagingName version fresh))
        (versionDirectory root version) version) := by
  apply (behaves_ask .freshName).bind
  intro other _
  refine behaves_attempt ?_ fun _ => ?_
  · exact behaves_ask (.rename .bundle (.retired other))
  apply (behaves_ask (.rename (.staging fresh) .bundle)).bind
  intro a _
  cases a with
  | ok _ =>
      apply (behaves_ask (.removeAll (.retired other))).bind
      intro _ _
      trivial
  | error fault =>
      apply (behaves_ask
        (.rename (.retired other) .bundle)).bind
      intro a _
      cases a <;> trivial

theorem behaves_install
    (b : Bundle)
    (fresh : String) :
    WorksWithin root (Owns b.version)
      (install root
        (root.join (stagingName b.version fresh)) b) := by
  apply (behaves_stage b (.staging fresh)).bind
  intro a _
  cases a with
  | error e => trivial
  | ok _ =>
      apply (behaves_ask (.isPresent _)).bind
      intro isPresent _
      cases isPresent with
      | true => exact behaves_replaceBundle fresh
      | false =>
          refine behaves_attempt ?_ fun _ => trivial
          exact behaves_ask
            (.rename (.staging fresh) .bundle)

/-
  However it ends, the publication of a bundle leaves all that
  does not belong to its version as it was.
-/
theorem behaves_publish
    (root : Path)
    (b : Bundle) :
    WorksWithin root (Owns b.version) (publish root b) := by
  refine behaves_attempt ?_ fun _ => ?_
  · exact behaves_ask .createAll
  apply (behaves_ask .freshName).bind
  intro fresh _
  apply (behaves_install b fresh).bind
  intro a _
  cases a with
  | ok _ => trivial
  | error e =>
      apply (behaves_discard (.staging fresh)).bind
      intro _ _
      trivial

end Publication

end Federation
