import Federation.Text.Blank

/-
  This file defines paths of files and directories: a text
  as it is shown, and the names that lead from the working
  directory to a place.

  Key definitions include:
    * `Path`
    * `Path.ofText`
    * `Path.join`
    * `Path.fileName?`
    * `Path.extension?`
-/

namespace Federation

/- What the text of a path tells about its place. -/
inductive PathForm where
/- A path of no text, which is the path of nothing. -/
| empty
/- A file or a directory. -/
| plain
/- A directory, since the text ends after a slash. -/
| directory
deriving DecidableEq, Repr

/-
  A path: its text, its form, the names on the way, and the
  places that two dots lead back from, which are to be
  directories.
-/
structure Path where
  text : String
  form : PathForm
  names : List String
  passed : List (List String)
deriving DecidableEq, Repr

namespace Path

------------------------------------------------------------
-- Parts
------------------------------------------------------------

/- The parts of a text between its slashes. -/
def parts (text : String) : List String :=
  (Text.splitAt '/' text.toList).map String.ofList

/- The parts that lead anywhere: two dots lead back. -/
def steps (text : String) : List String :=
  (parts text).filter fun part => part ≠ "" ∧ part ≠ "."

/- The names that are left when two dots undo a name. -/
def follow (names : List String) : List String → List String
| [] => names.reverse
| part :: rest =>
    if part = ".." then follow names.tail rest
    else follow (part :: names) rest

/- The places that two dots lead back from. -/
def passedBy (names : List String) :
    List String → List (List String)
| [] => []
| part :: rest =>
    if part = ".." then
      names.reverse :: passedBy names.tail rest
    else passedBy (part :: names) rest

/- What a text tells about the place of its path. -/
def formOf (text : String) : PathForm :=
  match (parts text).getLast? with
  | none => .empty
  | some last =>
      if text = "" then .empty
      else if last = "" ∨ last = "." then .directory
      else .plain

/- The path with a text. -/
def ofText (text : String) : Path :=
  { text
    form := formOf text
    names := follow [] (steps text)
    passed := passedBy [] (steps text) }

------------------------------------------------------------
-- Joining
------------------------------------------------------------

/- The text of a name in the directory with a text. -/
def joinText (text name : String) : String :=
  if text = "" ∨ text.toList.getLast? = some '/' then
    text ++ name
  else text ++ "/" ++ name

/- The path of a name in a directory. -/
def join (path : Path) (name : String) : Path :=
  { text := joinText path.text name
    form := .plain
    names := path.names ++ [name]
    passed := path.passed }

------------------------------------------------------------
-- File Names
------------------------------------------------------------

/- The last part of a path, unless it leads back. -/
def fileName? (path : Path) : Option String :=
  match (steps path.text).getLast? with
  | none => none
  | some last => if last = ".." then none else some last

/-
  What follows the last dot of a file's name, if the dot is
  not the first character.
-/
def extension? (path : Path) : Option String :=
  match path.fileName? with
  | none => none
  | some name =>
      match (Text.splitAt '.' name.toList).reverse with
      | last :: before :: rest =>
          if rest = [] ∧ before = [] then none
          else some (String.ofList last)
      | _ => none

end Path

end Federation
