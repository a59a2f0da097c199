import Federation.Table
import Federation.Text.Unicode

/-
  This file defines directory trees and the operations on
  them, with the faults that each operation may find. No
  operation changes a tree when it finds a fault.

  Key definitions include:
    * `Node`, `Tree`
    * `StorageFault`
    * `Tree.find`
    * `Tree.alter`
    * `Tree.createAll`
    * `Tree.rename`
    * `Tree.listing`
-/

namespace Federation

------------------------------------------------------------
-- Trees
------------------------------------------------------------

/- A file with its bytes, or a directory of named nodes. -/
inductive Node where
| file (content : Bytes)
| directory (entries : List (String × Node))

/- The entries of a directory, in ascending order of names. -/
abbrev Tree := Table String Node

------------------------------------------------------------
-- Faults
------------------------------------------------------------

/- Why an operation on a tree is not done. -/
inductive StorageFault where
| notFound
| alreadyExists
| notDirectory
| isDirectory
| notEmpty
| withinItself
| notText
| other (message : String)
deriving DecidableEq, Repr

/- The wording of a fault. -/
def StorageFault.message : StorageFault → String
| .notFound => "No such file or directory (os error 2)"
| .alreadyExists => "File exists (os error 17)"
| .notDirectory => "Not a directory (os error 20)"
| .isDirectory => "Is a directory (os error 21)"
| .notEmpty => "Directory not empty (os error 39)"
| .withinItself => "Invalid argument (os error 22)"
| .notText => "stream did not contain valid UTF-8"
| .other message => message

namespace Tree

------------------------------------------------------------
-- Looking
------------------------------------------------------------

/- The node that names lead to from another node. -/
def descend : List String → Node → Except StorageFault Node
| [], node => .ok node
| _ :: _, .file _ => .error .notDirectory
| name :: rest, .directory entries =>
    match Table.get? name entries with
    | none => .error .notFound
    | some node => descend rest node

/- The node at names in a tree. -/
def find
    (names : List String)
    (tree : Tree) : Except StorageFault Node :=
  descend names (.directory tree)

/- The size that is told of a directory. -/
def directorySize : Nat := 4096

------------------------------------------------------------
-- Changing
------------------------------------------------------------

/-
  Change what is at names. The change is told what there is,
  and says what there shall be.
-/
def alter
    (change : Option Node → Except StorageFault (Option Node)) :
    List String → Tree → Except StorageFault Tree
| [], _ => .error .isDirectory
| [name], tree => do
    match ← change (tree.get? name) with
    | none => return tree.erase name
    | some node => return tree.insert name node
| name :: next :: rest, tree =>
    match tree.get? name with
    | none => .error .notFound
    | some (.file _) => .error .notDirectory
    | some (.directory entries) => do
        let entries ← alter change (next :: rest) entries
        return tree.insert name (.directory entries)

/- Create a directory where nothing is. -/
def create : List String → Tree → Except StorageFault Tree
| [] => fun _ => .error .alreadyExists
| names =>
    alter
      (fun
        | none => .ok (some (.directory []))
        | some _ => .error .alreadyExists)
      names

/- Create every directory on the way that is not there. -/
def createAll : List String → Tree → Except StorageFault Tree
| [], tree => .ok tree
| name :: rest, tree =>
    match tree.get? name with
    | none => do
        let entries ← createAll rest []
        return tree.insert name (.directory entries)
    | some (.directory entries) => do
        let entries ← createAll rest entries
        return tree.insert name (.directory entries)
    | some (.file _) =>
        .error
          (if rest = [] then .alreadyExists else .notDirectory)

/- Give the file at names its bytes; it may be a new file. -/
def write
    (names : List String)
    (content : Bytes) :
    Tree → Except StorageFault Tree :=
  alter
    (fun
      | some (.directory _) => .error .isDirectory
      | _ => .ok (some (.file content)))
    names

/- Remove a directory with all that is in it. -/
def removeAll
    (names : List String) :
    Tree → Except StorageFault Tree :=
  alter
    (fun
      | none => .error .notFound
      | some (.file _) => .error .notDirectory
      | some (.directory _) => .ok none)
    names

/-
  What is there once a node is moved to where another may
  be: a file replaces a file, and a directory replaces a
  directory without entries.
-/
def replace
    (node : Node) :
    Option Node → Except StorageFault (Option Node)
| none => .ok (some node)
| some (.file _) =>
    match node with
    | .file _ => .ok (some node)
    | .directory _ => .error .notDirectory
| some (.directory entries) =>
    match node with
    | .file _ => .error .isDirectory
    | .directory _ =>
        if entries.isEmpty then .ok (some node)
        else .error .notEmpty

/- Move what is at names to other names. -/
def rename
    (source target : List String)
    (tree : Tree) : Except StorageFault Tree := do
  let node ← find source tree
  if source = target then return tree
  if source.isPrefixOf target then throw .withinItself
  let tree ← alter (replace node) target tree
  alter (fun _ => .ok none) source tree

------------------------------------------------------------
-- Listing
------------------------------------------------------------

mutual

/- The paths of a node and of all below it. -/
def listNode (place : String) : Node → List String
| .file _ => [place]
| .directory entries =>
    (place ++ "/") :: listEntries (place ++ "/") entries

/- The paths of entries and of all below them. -/
def listEntries
    (place : String) : List (String × Node) → List String
| [] => []
| (name, node) :: rest =>
    listNode (place ++ name) node ++ listEntries place rest

end

/-
  The paths of all that is in a tree; those of directories
  end in a slash.
-/
def listing (tree : Tree) : List String :=
  listEntries "" tree

end Tree

end Federation
