import Federation.Json.Basic
import Federation.Json.Token
import Federation.Text.Unicode

/-
  This file defines the reading of JSON text: a stack of the
  open arrays and objects takes the tokens one by one. What
  comes of a text is a draft first. A part of a text may have
  the right form and still have no value; that matters only
  to those who read the part.

  Key definitions include:
    * `Json.Draft`
    * `Json.Draft.value?`
    * `Json.Frame`
    * `Json.Builder`
    * `Json.Builder.push`
    * `Json.Draft.ofTokens?`
    * `Json.Draft.ofText?`
    * `Json.read?`
-/

namespace Federation

namespace Json

------------------------------------------------------------
-- Drafts
------------------------------------------------------------

/-
  The parts of a JSON text, members in the order of the text
  and repeated keys kept. A leaf or a key may have no value.
-/
inductive Draft where
| leaf (value : Option Json)
| array (items : List Draft)
| object (members : List (Option String × Draft))
deriving Repr, Inhabited

namespace Draft

mutual

/- The value of a draft, if every part of it has one. -/
def value? : Draft → Option Json
| .leaf value => value
| .array items => (itemValues? items).map .array
| .object members => (memberValues? members).map .object

/- The value of each item. -/
def itemValues? : List Draft → Option (List Json)
| [] => some []
| item :: rest => do
    let value ← item.value?
    return value :: (← itemValues? rest)

/- The key and the value of each member. -/
def memberValues? :
    List (Option String × Draft) →
      Option (List (String × Json))
| [] => some []
| (key, item) :: rest => do
    let key ← key
    let value ← item.value?
    return (key, value) :: (← memberValues? rest)

end

/- The members of an object, if every key has a value. -/
def keyed? :
    List (Option String × Draft) →
      Option (List (String × Draft))
| [] => some []
| (key, item) :: rest => do
    return (← key, item) :: (← keyed? rest)

end Draft

------------------------------------------------------------
-- Builders
------------------------------------------------------------

/- An array or object that has been opened and not closed. -/
inductive Frame where
| array (reversed : List Draft)
| object
    (reversed : List (Option String × Draft))
    (key : Option String)
deriving Repr

/- What a builder waits for. -/
inductive Builder where
/- A value. -/
| awaitValue (frames : List Frame)
/- A value or the end of a new array. -/
| awaitItem (frames : List Frame)
/- A key or the end of a new object. -/
| awaitFirstKey (frames : List Frame)
/- A key. -/
| awaitKey
    (reversed : List (Option String × Draft))
    (frames : List Frame)
/- The colon after a key. -/
| awaitColon
    (reversed : List (Option String × Draft))
    (key : Option String)
    (frames : List Frame)
/- A comma or the end of the innermost frame. -/
| awaitMore (frame : Frame) (frames : List Frame)
/- Nothing. -/
| done (draft : Draft)
deriving Repr

namespace Builder

/- The number of arrays and objects that may not be nested. -/
def depthLimit : Nat := 128

/- Put a complete part into the innermost frame. -/
def place
    (part : Draft) :
    List Frame → Builder
| [] => .done part
| .array reversed :: frames =>
    .awaitMore (.array (part :: reversed)) frames
| .object reversed key :: frames =>
    .awaitMore (.object ((key, part) :: reversed) key) frames

/-
  Put an array or object into the innermost frame. One that
  is nested too deeply has no value.
-/
def close
    (part : Draft)
    (frames : List Frame) : Builder :=
  if frames.length + 1 < depthLimit then place part frames
  else place (.leaf none) frames

/- Take a token where a value may begin. -/
def pushValue
    (frames : List Frame) :
    Token → Option Builder
| .scalar value => some (place (.leaf value) frames)
| .text value =>
    some (place (.leaf (value.map .string)) frames)
| .openBracket => some (.awaitItem frames)
| .openBrace => some (.awaitFirstKey frames)
| _ => none

/- Take one token. -/
def push
    (b : Builder)
    (t : Token) : Option Builder :=
  match b, t with
  | .awaitValue frames, t => pushValue frames t
  | .awaitItem frames, .closeBracket =>
      some (close (.array []) frames)
  | .awaitItem frames, t =>
      pushValue (.array [] :: frames) t
  | .awaitFirstKey frames, .closeBrace =>
      some (close (.object []) frames)
  | .awaitFirstKey frames, .text key =>
      some (.awaitColon [] key frames)
  | .awaitKey reversed frames, .text key =>
      some (.awaitColon reversed key frames)
  | .awaitColon reversed key frames, .colon =>
      some (.awaitValue (.object reversed key :: frames))
  | .awaitMore (.array reversed) frames, .comma =>
      some (.awaitValue (.array reversed :: frames))
  | .awaitMore (.array reversed) frames, .closeBracket =>
      some (close (.array reversed.reverse) frames)
  | .awaitMore (.object reversed _) frames, .comma =>
      some (.awaitKey reversed frames)
  | .awaitMore (.object reversed _) frames, .closeBrace =>
      some (close (.object reversed.reverse) frames)
  | _, _ => none

end Builder

------------------------------------------------------------
-- Reading
------------------------------------------------------------

namespace Draft

/- The draft that tokens make. -/
def ofTokens? (tokens : List Token) : Option Draft := do
  match ← tokens.foldlM Builder.push (.awaitValue []) with
  | .done draft => some draft
  | _ => none

/- The draft of a text, unless the text has a fault of form. -/
def ofText? (text : String) : Option Draft := do
  ofTokens? (← Token.scan text.toList)

end Draft

/-
  The value of a text. A text is refused for any fault of
  form, an escaped unit without its partner, a number too
  large, or nesting at the depth limit.
-/
def read? (text : String) : Option Json := do
  let draft ← Draft.ofText? text
  draft.value?.map normalize

end Json

end Federation
