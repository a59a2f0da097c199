import Federation.Yaml.Event
import Federation.Yaml.Scalar

/-
  This file defines the nodes of a YAML document. Aliases
  stand for the nodes that have their anchors.

  Key definitions include:
    * `Yaml.Shape`
    * `Yaml.Node`
    * `Yaml.Node.shape`
    * `Yaml.Builder`
    * `Yaml.Builder.push?`
    * `Yaml.read?`
-/

namespace Federation

namespace Yaml

------------------------------------------------------------
-- Shapes
------------------------------------------------------------

/-
  What is known of the parts of a node: how deeply they are
  nested, how many aliases are followed to see all of them,
  and whether every one of them has a type.
-/
structure Shape where
  levels : Nat
  aliases : Nat
  hasTypes : Bool
deriving DecidableEq, Repr, Inhabited

namespace Shape

/- The shape of a collection without parts. -/
def empty : Shape :=
  ⟨1, 0, true⟩

/- The shape of a collection with one more part. -/
def add (whole part : Shape) : Shape :=
  { levels := max whole.levels (part.levels + 1)
    aliases := whole.aliases + part.aliases
    hasTypes := whole.hasTypes && part.hasTypes }

/- The shape of a part that an alias stands for. -/
def followed (part : Shape) : Shape :=
  { part with aliases := part.aliases + 1 }

/- The shape of a collection with a tag. -/
def tagged
    (whole : Shape)
    (tag : Option String) : Shape :=
  { whole with
    hasTypes := whole.hasTypes && !tag.any isPrivateTag }

/- No type is found if too many aliases are followed. -/
def limited
    (whole : Shape)
    (limit : Nat) : Shape :=
  { whole with
    hasTypes := whole.hasTypes && whole.aliases ≤ limit }

end Shape

------------------------------------------------------------
-- Nodes
------------------------------------------------------------

/-
  A node. A text without a document has the absent node, and
  so has an alias inside the node that it stands for.
-/
inductive Node where
| absent
| scalar
    (tag : Option String)
    (style : ScalarStyle)
    (text : String)
| sequence (shape : Shape) (items : List Node)
| mapping (shape : Shape) (entries : List (Node × Node))
deriving Inhabited

/- What is known of the parts of a node. -/
def Node.shape : Node → Shape
| .absent => ⟨0, 0, false⟩
| .scalar tag style text => ⟨0, 0, hasType tag style text⟩
| .sequence shape _ => shape
| .mapping shape _ => shape

------------------------------------------------------------
-- Builders
------------------------------------------------------------

/-
  A sequence or mapping that has been opened and not closed,
  with the place of its anchor.
-/
inductive Frame where
| sequence
    (anchor : Option Nat)
    (shape : Shape)
    (reversed : List Node)
| mapping
    (anchor : Option Nat)
    (shape : Shape)
    (reversed : List (Node × Node))
    (key : Option Node)

/-
  The open frames, the innermost first; the nodes that have
  anchors, the last first; the root, once it is complete; and
  how many aliases may be followed.
-/
structure Builder where
  frames : List Frame
  anchored : List (String × Node)
  root : Option Node
  aliasLimit : Nat

namespace Builder

/- A builder before any event. -/
def start (aliasLimit : Nat) : Builder :=
  ⟨[], [], none, aliasLimit⟩

/- Give an anchor to a node. -/
def anchor
    (b : Builder)
    (name : Option String)
    (node : Node) : Builder :=
  match name with
  | none => b
  | some name =>
      { b with anchored := (name, node) :: b.anchored }

/- The place of the next anchor, if there is one. -/
def anchorPlace
    (b : Builder)
    (name : Option String) : Option Nat :=
  name.map fun _ => b.anchored.length

/- Put a complete node to the place of its anchor. -/
def settleAnchor
    (b : Builder)
    (place : Option Nat)
    (node : Node) : Builder :=
  match place with
  | none => b
  | some i =>
      { b with
        anchored :=
          b.anchored.modify (b.anchored.length - 1 - i)
            fun (name, _) => (name, node) }

/- Put a complete node of a shape into the innermost frame. -/
def place
    (b : Builder)
    (node : Node)
    (shape : Shape) : Builder :=
  match b.frames with
  | [] => { b with root := some node }
  | .sequence name whole reversed :: frames =>
      { b with
        frames :=
          .sequence name (whole.add shape) (node :: reversed) ::
            frames }
  | .mapping name whole reversed none :: frames =>
      { b with
        frames :=
          .mapping name (whole.add shape) reversed (some node) ::
            frames }
  | .mapping name whole reversed (some key) :: frames =>
      { b with
        frames :=
          .mapping name (whole.add shape)
            ((key, node) :: reversed) none :: frames }

/- Take one event. An alias has an anchor before it. -/
def push? (b : Builder) : Event → Option Builder
| .alias name =>
    (b.anchored.lookup name).map fun node =>
      b.place node node.shape.followed
| .scalar properties style text =>
    let node := Node.scalar properties.tag style text
    some ((b.anchor properties.anchor node).place node node.shape)
| .sequenceStart properties =>
    let frame :=
      Frame.sequence (b.anchorPlace properties.anchor)
        (Shape.empty.tagged properties.tag) []
    let b := b.anchor properties.anchor .absent
    some { b with frames := frame :: b.frames }
| .mappingStart properties =>
    let frame :=
      Frame.mapping (b.anchorPlace properties.anchor)
        (Shape.empty.tagged properties.tag) [] none
    let b := b.anchor properties.anchor .absent
    some { b with frames := frame :: b.frames }
| .sequenceEnd =>
    match b.frames with
    | .sequence name shape reversed :: frames =>
        let shape := shape.limited b.aliasLimit
        let node := Node.sequence shape reversed.reverse
        let b := { b with frames }
        some ((b.settleAnchor name node).place node shape)
    | _ => none
| .mappingEnd =>
    match b.frames with
    | .mapping name shape reversed none :: frames =>
        let shape := shape.limited b.aliasLimit
        let node := Node.mapping shape reversed.reverse
        let b := { b with frames }
        some ((b.settleAnchor name node).place node shape)
    | _ => none

end Builder

------------------------------------------------------------
-- Reading
------------------------------------------------------------

/- The number of aliases that may be followed for each event. -/
def aliasesPerEvent : Nat := 100

/-
  The node of a text. A text is refused for any fault of
  form, or if it has more than one document.
-/
def read? (text : String) : Option Node := do
  let events ← events? text
  let limit := aliasesPerEvent * events.length
  let b ← events.foldlM Builder.push? (Builder.start limit)
  return b.root.getD .absent

end Yaml

end Federation
