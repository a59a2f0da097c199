import Federation.Yaml.Scan

/-
  This file defines the events of a YAML document: scalars
  and aliases, and the starts and ends of sequences and
  mappings. A stack of states tells what tokens may follow.

  Key definitions include:
    * `Yaml.Event`
    * `Yaml.State`
    * `Yaml.Machine`
    * `Yaml.Machine.step`
    * `Yaml.events?`
-/

namespace Federation

namespace Yaml

------------------------------------------------------------
-- Events
------------------------------------------------------------

/- The anchor and the tag of a node. -/
structure Properties where
  anchor : Option String
  tag : Option String
deriving DecidableEq, Repr

/- The properties of a scalar, for which a mere mark is no tag. -/
def Properties.plain (p : Properties) : Properties :=
  if p.tag = some "!" then ⟨p.anchor, none⟩ else p

/- A part of a document, in the order of the text. -/
inductive Event where
| alias (name : String)
| scalar
    (properties : Properties)
    (style : ScalarStyle)
    (text : String)
| sequenceStart (properties : Properties)
| sequenceEnd
| mappingStart (properties : Properties)
| mappingEnd
deriving DecidableEq, Repr

------------------------------------------------------------
-- States
------------------------------------------------------------

/- What is expected next. -/
inductive State where
/- The first document, or the end. -/
| firstDocument
/- The content of a document, if it has any. -/
| documentContent
/- The content of a document that has some. -/
| blockNode
/- The end of a document. -/
| documentEnd
/- Nothing but the end. -/
| noDocument
/- An item of a block, or the end of the block. -/
| blockItem
/- An item of a sequence without a block of its own. -/
| bareItem
/- A key of a block, or the end of the block. -/
| blockKey
/- The value of a key of a block. -/
| blockValue
/- An item between brackets, or the last bracket. -/
| flowItem (isFirst : Bool)
/- The key of a pair that is an item. -/
| pairKey
/- The value of a pair that is an item. -/
| pairValue
/- The end of a pair that is an item. -/
| pairEnd
/- A key between braces, or the last brace. -/
| flowKey (isFirst : Bool)
/- The value of a key between braces. -/
| flowValue
/- A key between braces that has no value. -/
| noFlowValue
deriving DecidableEq, Repr

/-
  The tokens to come, what is expected next, what is
  expected after that, and the handles of tags.
-/
structure Machine where
  tokens : List Token
  state : State
  later : List State
  handles : List (String × String)

/- What a step gives: an event or none, or the end. -/
inductive Progress where
| event (event : Event) (machine : Machine)
| silent (machine : Machine)
| finished

namespace Machine

------------------------------------------------------------
-- Moves
------------------------------------------------------------

/- Go on with other tokens. -/
def withTokens (m : Machine) (tokens : List Token) : Machine :=
  { m with tokens }

/- Expect something. -/
def expect (m : Machine) (state : State) : Machine :=
  { m with state }

/- Expect something after what is expected next. -/
def defer (m : Machine) (state : State) : Machine :=
  { m with later := state :: m.later }

/- Expect what has been deferred. -/
def resume? (m : Machine) : Option Machine :=
  match m.later with
  | [] => none
  | state :: later => some { m with state, later }

/- The scalar that stands where nothing is written. -/
def emptyScalar (properties : Properties) : Event :=
  .scalar properties .plain ""

/- No anchor and no tag. -/
def bare : Properties :=
  ⟨none, none⟩

/- An empty scalar, and then what is expected. -/
def skipNode (m : Machine) (state : State) : Option Progress :=
  some (.event (emptyScalar bare) (m.expect state))

/- An event, and then what has been deferred. -/
def close? (m : Machine) (event : Event) : Option Progress := do
  let m ← m.resume?
  return .event event m

------------------------------------------------------------
-- Nodes
------------------------------------------------------------

/- The tag that a handle and a suffix stand for. -/
def resolveTag?
    (m : Machine)
    (handle suffix : String) : Option String :=
  if handle = "" then some suffix
  else (m.handles.lookup handle).map (· ++ suffix)

/- The properties before a node, and the tokens after them. -/
def properties?
    (m : Machine) : Option (Properties × List Token) :=
  match m.tokens with
  | .anchor name :: .tag handle suffix :: rest => do
      let tag ← m.resolveTag? handle suffix
      return (⟨some name, some tag⟩, rest)
  | .tag handle suffix :: .anchor name :: rest => do
      let tag ← m.resolveTag? handle suffix
      return (⟨some name, some tag⟩, rest)
  | .anchor name :: rest => some (⟨some name, none⟩, rest)
  | .tag handle suffix :: rest => do
      let tag ← m.resolveTag? handle suffix
      return (⟨none, some tag⟩, rest)
  | tokens => some (bare, tokens)

/-
  Read the start of a node. Blocks stand only where they
  may, and a dash begins a sequence only where it may.
-/
def node?
    (m : Machine)
    (mayBlock mayDash : Bool) : Option Progress :=
  match m.tokens with
  | .alias name :: rest => (m.withTokens rest).close? (.alias name)
  | _ => do
      let (properties, tokens) ← m.properties?
      let after (rest : List Token) : Machine :=
        m.withTokens rest
      match tokens with
      | .scalar style text :: rest =>
          (after rest).close?
            (.scalar properties.plain style text)
      | .flowSequenceStart :: rest =>
          some (.event (.sequenceStart properties)
            ((after rest).expect (.flowItem true)))
      | .flowMappingStart :: rest =>
          some (.event (.mappingStart properties)
            ((after rest).expect (.flowKey true)))
      | token :: rest =>
          if token = .blockEntry ∧ mayDash then
            some (.event (.sequenceStart properties)
              ((after tokens).expect .bareItem))
          else if token = .blockSequenceStart ∧ mayBlock then
            some (.event (.sequenceStart properties)
              ((after rest).expect .blockItem))
          else if token = .blockMappingStart ∧ mayBlock then
            some (.event (.mappingStart properties)
              ((after rest).expect .blockKey))
          else if properties = bare then none
          else (after tokens).close? (emptyScalar properties)
      | [] =>
          if properties = bare then none
          else (after tokens).close? (emptyScalar properties)

/- A node, and then what is expected; or nothing is written. -/
def nodeUnless
    (m : Machine)
    (stops : List Token)
    (next : State)
    (mayBlock mayDash : Bool) : Option Progress :=
  match m.tokens with
  | token :: _ =>
      if token ∈ stops then m.skipNode next
      else (m.defer next).node? mayBlock mayDash
  | [] => (m.defer next).node? mayBlock mayDash

------------------------------------------------------------
-- Documents
------------------------------------------------------------

/- The handles that every document knows. -/
def knownHandles : List (String × String) :=
  [("!", "!"), ("!!", "tag:yaml.org,2002:")]

/-
  The handles of the directives before a document. A version
  or a handle is given once, and the version is known.
-/
def directives? :
    (hasVersion : Bool) → (handles : List (String × String)) →
      List Token → Option (List (String × String) × List Token)
| hasVersion, handles, .version major minor :: rest =>
    if hasVersion ∨ major ≠ 1 ∨ (minor ≠ 1 ∧ minor ≠ 2) then
      none
    else directives? true handles rest
| hasVersion, handles, .handle name start :: rest =>
    if (handles.lookup name).isSome then none
    else directives? hasVersion ((name, start) :: handles) rest
| _, handles, tokens => some (handles ++ knownHandles, tokens)

/-
  The start of the first document, or the end. Directives
  are followed by a mark of the start.
-/
def firstDocument? (m : Machine) : Option Progress := do
  if m.tokens.isEmpty then return .finished
  let (handles, tokens) ← directives? false [] m.tokens
  let m := { m with handles }.defer .documentEnd
  match tokens with
  | .documentStart :: rest =>
      return .silent
        ((m.withTokens rest).expect .documentContent)
  | _ =>
      if tokens = m.tokens then
        return .silent (m.expect .blockNode)
      else none

/- The content of a document that may have none. -/
def content? (m : Machine) : Option Progress :=
  let isEmpty :=
    match m.tokens with
    | [] => true
    | .version _ _ :: _ => true
    | .handle _ _ :: _ => true
    | .documentStart :: _ => true
    | .documentEnd :: _ => true
    | _ => false
  if isEmpty then m.close? (emptyScalar bare)
  else m.node? true false

/- After a document, further marks of its end are passed. -/
def ended? (tokens : List Token) : Bool :=
  tokens.all fun token => token = .documentEnd

------------------------------------------------------------
-- Collections
------------------------------------------------------------

/- An item of a block, or the end of the block. -/
def blockItem? (m : Machine) : Option Progress :=
  match m.tokens with
  | .blockEntry :: rest =>
      (m.withTokens rest).nodeUnless [.blockEntry, .blockEnd]
        .blockItem true false
  | .blockEnd :: rest => (m.withTokens rest).close? .sequenceEnd
  | _ => none

/- An item of a sequence without a block, or its end. -/
def bareItem? (m : Machine) : Option Progress :=
  match m.tokens with
  | .blockEntry :: rest =>
      (m.withTokens rest).nodeUnless
        [.blockEntry, .key, .value, .blockEnd]
        .bareItem true false
  | _ => m.close? .sequenceEnd

/- A key of a block, or the end of the block. -/
def blockKey? (m : Machine) : Option Progress :=
  match m.tokens with
  | .key :: rest =>
      (m.withTokens rest).nodeUnless [.key, .value, .blockEnd]
        .blockValue true true
  | .blockEnd :: rest => (m.withTokens rest).close? .mappingEnd
  | _ => none

/- The value of a key of a block. -/
def blockValue? (m : Machine) : Option Progress :=
  match m.tokens with
  | .value :: rest =>
      (m.withTokens rest).nodeUnless [.key, .value, .blockEnd]
        .blockKey true true
  | _ => m.skipNode .blockKey

/- The tokens after a comma, which only the first has not. -/
def afterComma?
    (isFirst : Bool)
    (tokens : List Token) : Option (List Token) :=
  if isFirst then some tokens
  else
    match tokens with
    | .flowEntry :: rest => some rest
    | _ => none

/- An item between brackets, or the last bracket. -/
def flowItem?
    (m : Machine)
    (isFirst : Bool) : Option Progress :=
  match m.tokens with
  | .flowSequenceEnd :: rest =>
      (m.withTokens rest).close? .sequenceEnd
  | tokens => do
      let tokens ← afterComma? isFirst tokens
      match tokens with
      | .flowSequenceEnd :: rest =>
          (m.withTokens rest).close? .sequenceEnd
      | .key :: rest =>
          return .event (.mappingStart bare)
            ((m.withTokens rest).expect .pairKey)
      | _ =>
          ((m.withTokens tokens).defer
            (.flowItem false)).node? false false

/- The key of a pair that is an item. -/
def pairKey? (m : Machine) : Option Progress :=
  match m.tokens with
  | .value :: rest => (m.withTokens rest).skipNode .pairValue
  | .flowEntry :: rest => (m.withTokens rest).skipNode .pairValue
  | .flowSequenceEnd :: rest =>
      (m.withTokens rest).skipNode .pairValue
  | _ => (m.defer .pairValue).node? false false

/- The value of a pair that is an item. -/
def pairValue? (m : Machine) : Option Progress :=
  match m.tokens with
  | .value :: rest =>
      (m.withTokens rest).nodeUnless
        [.flowEntry, .flowSequenceEnd] .pairEnd false false
  | _ => m.skipNode .pairEnd

/- A key between braces, or the last brace. -/
def flowKey?
    (m : Machine)
    (isFirst : Bool) : Option Progress :=
  match m.tokens with
  | .flowMappingEnd :: rest =>
      (m.withTokens rest).close? .mappingEnd
  | tokens => do
      let tokens ← afterComma? isFirst tokens
      match tokens with
      | .flowMappingEnd :: rest =>
          (m.withTokens rest).close? .mappingEnd
      | .key :: rest =>
          (m.withTokens rest).nodeUnless
            [.value, .flowEntry, .flowMappingEnd]
            .flowValue false false
      | _ =>
          ((m.withTokens tokens).defer
            .noFlowValue).node? false false

/- The value of a key between braces. -/
def flowValue? (m : Machine) : Option Progress :=
  match m.tokens with
  | .value :: rest =>
      (m.withTokens rest).nodeUnless
        [.flowEntry, .flowMappingEnd]
        (.flowKey false) false false
  | _ => m.skipNode (.flowKey false)

------------------------------------------------------------
-- Steps
------------------------------------------------------------

/- Do what is expected. -/
def step (m : Machine) : Option Progress :=
  match m.state with
  | .firstDocument => m.firstDocument?
  | .documentContent => m.content?
  | .blockNode => m.node? true false
  | .documentEnd => some (.silent (m.expect .noDocument))
  | .noDocument =>
      if ended? m.tokens then some .finished else none
  | .blockItem => m.blockItem?
  | .bareItem => m.bareItem?
  | .blockKey => m.blockKey?
  | .blockValue => m.blockValue?
  | .flowItem isFirst => m.flowItem? isFirst
  | .pairKey => m.pairKey?
  | .pairValue => m.pairValue?
  | .pairEnd =>
      some (.event .mappingEnd (m.expect (.flowItem false)))
  | .flowKey isFirst => m.flowKey? isFirst
  | .flowValue => m.flowValue?
  | .noFlowValue => m.skipNode (.flowKey false)

/-
  The events of a machine, after those before, which are
  reversed, in a bounded number of steps.
-/
def run? :
    (bound : Nat) → List Event → Machine →
      Option (List Event)
| 0, _, _ => none
| bound + 1, events, m =>
    match m.step with
    | none => none
    | some .finished => some events.reverse
    | some (.silent m) => run? bound events m
    | some (.event event m) => run? bound (event :: events) m

end Machine

/-
  The events of a text of one document or none. No token has
  more than four steps of its own.
-/
def events? (text : String) : Option (List Event) := do
  let tokens ← tokens? text
  Machine.run? (4 * tokens.length + 8) []
    ⟨tokens, .firstDocument, [], []⟩

end Yaml

end Federation
