import Federation.Reading.Record
import Federation.Yaml.Node

/-
  This file defines what values YAML nodes stand for, so that
  records can be read from them. A scalar that is not quoted
  may be read as a text, and as a number or a truth value if
  it has the form of one.

  Key definitions include:
    * `Yaml.Node.typedText?`
    * `Yaml.Node.isNothing?`
    * `Yaml.Node.settle?`
    * the instance of `Reading.Source` for `Yaml.Node`
-/

namespace Federation

namespace Yaml

namespace Node

/-
  The text of a scalar that may have the type of a tag: it is
  plain, or it is literal and has the tag.
-/
def typedText? (name : String) : Node → Option String
| .scalar _ .plain text => some text
| .scalar tag .literal text =>
    if tag = some (knownTag name) then some text else none
| _ => none

/- The scalar is plain and has neither tag nor text. -/
def isBlank : Node → Bool
| .absent => true
| .scalar _ .plain text => text = ""
| _ => false

/-
  The node stands for a value that is absent, or for one that
  is not. A plain scalar with the tag of nothing means it.
-/
def isNothing? : Node → Option Bool
| .absent => some true
| .scalar none .plain text => some (text = "" || isNull text)
| .scalar (some tag) .plain text =>
    if tag ≠ knownTag "null" then some false
    else if isNull text then some true
    else none
| _ => some false

/- The text of a scalar. -/
def text? : Node → Option String
| .scalar _ _ text => some text
| _ => none

/- The entries of a mapping, each key of which is a text. -/
def namedEntries? :
    List (Node × Node) → Option (List (String × Node))
| [] => some []
| (key, value) :: rest => do
    let name ← key.text?
    let rest ← namedEntries? rest
    return (name, value) :: rest

/- What a node is found to be. -/
def found : Node → Reading.Found
| .absent => .null
| .scalar _ _ text => .string text
| .sequence _ _ => .sequence
| .mapping _ _ => .map

/-
  The number of levels that may be nested in a value of a
  record that shares its values: 128 less those above it.
-/
def levelLimit : Nat := 125

/- The scalar is no text once it has a type. -/
def losesText
    (tag : Option String)
    (style : ScalarStyle)
    (text : String) : Bool :=
  match tag with
  | none => style = .plain && isTyped text
  | some tag =>
      (["bool", "int", "float", "null"].map knownTag).contains tag

/-
  A node whose type is fixed, if every part of it has one.
  What is a number, a truth value or nothing is no text any
  more.
-/
def settle? (node : Node) : Option Node :=
  if node.shape.hasTypes && node.shape.levels ≤ levelLimit then
    match node with
    | .scalar tag style text =>
        if losesText tag style text then some .absent
        else some node
    | _ => some node
  else none

end Node

------------------------------------------------------------
-- Reading
------------------------------------------------------------

instance : Reading.Source Node where
  found := Node.found
  text? := Node.text?
  integer? node :=
    ((node.typedText? "int").bind unsigned?).map Int.ofNat
  flag? node := (node.typedText? "bool").bind flag?
  items?
    | .sequence _ items => some items
    | node => if node.isBlank then some [] else none
  form?
    | .mapping _ entries =>
        (Node.namedEntries? entries).map .entries
    | node => if node.isBlank then some (.entries []) else none
  isAbsent? := Node.isNothing?
  settle? := Node.settle?

end Yaml

end Federation
