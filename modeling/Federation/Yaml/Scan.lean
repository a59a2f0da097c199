import Federation.Yaml.Token

/-
  This file defines how a YAML text is cut into tokens. The
  indentation of lines opens and closes blocks, and what may
  turn out to be a key is remembered until its colon is met
  or its line ends.

  Key definitions include:
    * `Yaml.Candidate`
    * `Yaml.Scanner`
    * `Yaml.Scanner.fetch`
    * `Yaml.tokens?`
-/

namespace Federation

namespace Yaml

------------------------------------------------------------
-- Scanners
------------------------------------------------------------

/-
  A possible key: whether there must be a colon after it,
  how many tokens are before it, and where it begins.
-/
structure Candidate where
  isRequired : Bool
  before : Nat
  spot : Spot

/-
  The tokens up to some place, the last one first; the
  columns of the open blocks, the innermost first; for every
  open bracket and for the whole a possible key; whether a
  key may begin; and where the next token may begin.
-/
structure Scanner where
  reversed : List Token
  count : Nat
  indents : List Nat
  candidates : List (Option Candidate)
  mayBeKey : Bool
  resume : Nat

namespace Scanner

/- A scanner at the start of a text. -/
def start (length : Nat) : Scanner :=
  ⟨[], 0, [], [none], true, length⟩

/- There is an open bracket. -/
def inFlow (s : Scanner) : Bool :=
  1 < s.candidates.length

/- The column of the innermost block, if there is one. -/
def indent (s : Scanner) : Int :=
  match s.indents with
  | [] => -1
  | column :: _ => column

/- Go on at other characters. -/
def goTo (s : Scanner) (rest : List Spot) : Scanner :=
  { s with resume := left rest }

/- Add a token. -/
def emit (s : Scanner) (token : Token) : Scanner :=
  { s with
    reversed := token :: s.reversed
    count := s.count + 1 }

/- Add a token before some of the last ones. -/
def emitBefore
    (s : Scanner)
    (before : Nat)
    (token : Token) : Scanner :=
  let later := s.count - before
  { s with
    reversed :=
      s.reversed.take later ++ token :: s.reversed.drop later
    count := s.count + 1 }

------------------------------------------------------------
-- Blocks
------------------------------------------------------------

/- Open a block if the column is right of the innermost one. -/
def openBlock
    (s : Scanner)
    (column before : Nat)
    (token : Token) : Scanner :=
  if !s.inFlow && s.indent < column then
    { s.emitBefore before token with
      indents := column :: s.indents }
  else s

/- The open blocks and tokens once blocks are closed. -/
def closeTo
    (column : Int) :
    List Nat → List Token → Nat →
      List Nat × List Token × Nat
| [], tokens, count => ([], tokens, count)
| indent :: rest, tokens, count =>
    if column < indent then
      closeTo column rest (.blockEnd :: tokens) (count + 1)
    else (indent :: rest, tokens, count)

/- Close the blocks that are right of a column. -/
def closeBlocks (s : Scanner) (column : Int) : Scanner :=
  if s.inFlow then s
  else
    let (indents, reversed, count) :=
      closeTo column s.indents s.reversed s.count
    { s with indents, reversed, count }

------------------------------------------------------------
-- Possible Keys
------------------------------------------------------------

/- Keys are on one line, and not longer than this. -/
def longestKey : Nat := 1024

/- A candidate can no longer be a key. -/
def isStale (spot : Spot) (c : Candidate) : Bool :=
  c.spot.line < spot.line ||
    longestKey < c.spot.left - spot.left

/- Forget the candidates that are no keys. -/
def dropStale?
    (s : Scanner)
    (spot : Spot) : Option Scanner := do
  let candidates ← s.candidates.mapM fun
    | none => some none
    | some c =>
        if isStale spot c then
          if c.isRequired then none else some none
        else some (some c)
  return { s with candidates }

/- Forget the innermost candidate. -/
def dropCandidate? (s : Scanner) : Option Scanner :=
  match s.candidates with
  | some c :: rest =>
      if c.isRequired then none
      else some { s with candidates := none :: rest }
  | _ => some s

/- Remember what begins here as a possible key. -/
def saveCandidate?
    (s : Scanner)
    (spot : Spot) : Option Scanner := do
  if s.mayBeKey then
    let isRequired := !s.inFlow && s.indent = spot.column
    let s ← s.dropCandidate?
    return { s with
      candidates :=
        some ⟨isRequired, s.count, spot⟩ :: s.candidates.tail }
  else return s

------------------------------------------------------------
-- Kinds of Tokens
------------------------------------------------------------

/- Whether a key may begin next. -/
def keyNext (s : Scanner) (mayBeKey : Bool) : Scanner :=
  { s with mayBeKey }

/- Close all blocks before a token of a document. -/
def outermost? (s : Scanner) : Option Scanner := do
  let s ← (s.closeBlocks (-1)).dropCandidate?
  return s.keyNext false

/- A token that opens a bracket. -/
def openFlow?
    (s : Scanner)
    (spot : Spot)
    (token : Token) : Option Scanner := do
  let s ← s.saveCandidate? spot
  let s := { s with candidates := none :: s.candidates }
  return (s.keyNext true).emit token

/- A token that closes a bracket. -/
def closeFlow?
    (s : Scanner)
    (token : Token) : Option Scanner := do
  let s ← s.dropCandidate?
  let s :=
    if s.inFlow then
      { s with candidates := s.candidates.tail }
    else s
  return (s.keyNext false).emit token

/- A comma. -/
def flowEntry? (s : Scanner) : Option Scanner := do
  let s ← s.dropCandidate?
  return (s.keyNext true).emit .flowEntry

/- A dash or a question mark that may open a block. -/
def entry?
    (s : Scanner)
    (spot : Spot)
    (block token : Token)
    (mayBeKey : Bool) : Option Scanner := do
  if !s.inFlow && !s.mayBeKey then none
  let s := s.openBlock spot.column s.count block
  let s ← s.dropCandidate?
  return (s.keyNext mayBeKey).emit token

/- A colon, which may turn a candidate into a key. -/
def value? (s : Scanner) (spot : Spot) : Option Scanner :=
  match s.candidates with
  | some c :: rest =>
      let s := s.emitBefore c.before .key
      let s :=
        s.openBlock c.spot.column c.before .blockMappingStart
      some (({ s with candidates := none :: rest }.keyNext
        false).emit .value)
  | _ =>
      if !s.inFlow && !s.mayBeKey then none
      else
        let mayBeKey := !s.inFlow
        let s :=
          s.openBlock spot.column s.count .blockMappingStart
        some ((s.keyNext mayBeKey).emit .value)

/- A token that may be a key or a part of one. -/
def content?
    (s : Scanner)
    (spot : Spot)
    (read : Option (Token × List Spot)) : Option Scanner := do
  let s ← s.saveCandidate? spot
  let (token, rest) ← read
  return ((s.keyNext false).emit token).goTo rest

/- A block scalar, after its sign. -/
def block?
    (s : Scanner)
    (style : ScalarStyle)
    (rest : List Spot) : Option Scanner := do
  let s ← s.dropCandidate?
  let (text, rest) ←
    blockScalar? (style = .literal) s.indent rest
  return ((s.keyNext true).emit (.scalar style text)).goTo rest

/- A quoted scalar, after its quote. -/
def quoted?
    (s : Scanner)
    (style : ScalarStyle)
    (spot : Spot)
    (rest : List Spot) : Option Scanner :=
  s.content? spot do
    let (f, rest) ← quoted spot.char 0 Fold.empty rest
    return (.scalar style f.toText, rest)

/- A plain scalar. A key may follow it on another line. -/
def plain?
    (s : Scanner)
    (spots : List Spot)
    (spot : Spot) : Option Scanner := do
  let (f, rest) ←
    plain s.inFlow (s.indent + 1).toNat Fold.empty spots
  let t ← s.content? spot
    (some (.scalar .plain f.toText, rest))
  return t.keyNext f.first.isSome

------------------------------------------------------------
-- The Next Token
------------------------------------------------------------

/- The indicators that no plain scalar begins with. -/
def indicators : List Char :=
  ['-', '?', ':', ',', '[', ']', '\x7b', '\x7d', '#', '&',
    '*', '!', '|', '>', '\'', '"', '%', '@', '\x60']

/- A plain scalar may begin with the characters. -/
def beginsPlain
    (s : Scanner)
    (spot : Spot)
    (rest : List Spot) : Bool :=
  (!isGap spot.char && !indicators.contains spot.char) ||
    (spot.char = '-' && !isSpace ((rest.head?.map
      Spot.char).getD '\n')) ||
    (!s.inFlow && (spot.char = '?' || spot.char = ':') &&
      !atGap rest)

/- A token that is an indicator. -/
def indicator?
    (s : Scanner)
    (spot : Spot)
    (rest : List Spot) : Option Scanner :=
  match spot.char with
  | '[' => s.openFlow? spot .flowSequenceStart
  | '\x7b' => s.openFlow? spot .flowMappingStart
  | ']' => s.closeFlow? .flowSequenceEnd
  | '\x7d' => s.closeFlow? .flowMappingEnd
  | ',' => s.flowEntry?
  | '*' =>
      s.content? spot do
        let (name, rest) ← anchorName? rest
        return (.alias name, rest)
  | '&' =>
      s.content? spot do
        let (name, rest) ← anchorName? rest
        return (.anchor name, rest)
  | '!' => s.content? spot (tag? s.inFlow rest)
  | '\'' => s.quoted? .singleQuoted spot rest
  | '"' => s.quoted? .doubleQuoted spot rest
  | _ => none

/- The token that begins with a character. -/
def token?
    (s : Scanner)
    (spot : Spot)
    (rest : List Spot) : Option Scanner := do
  let spots := spot :: rest
  if spot.column = 0 ∧ spot.char = '%' then
    let s ← s.outermost?
    let (token, rest) ← directive? rest
    return (s.emit token).goTo rest
  else if atMarker spots then
    let s ← s.outermost?
    let token :=
      if spot.char = '-' then Token.documentStart
      else Token.documentEnd
    return (s.emit token).goTo (rest.drop 2)
  else if spot.char = '-' ∧ atGap rest then
    s.entry? spot .blockSequenceStart .blockEntry true
  else if spot.char = '?' ∧ (s.inFlow ∨ atGap rest) then
    s.entry? spot .blockMappingStart .key !s.inFlow
  else if spot.char = ':' ∧ (s.inFlow ∨ atGap rest) then
    s.value? spot
  else if spot.char = '|' ∧ !s.inFlow then
    s.block? .literal rest
  else if spot.char = '>' ∧ !s.inFlow then
    s.block? .folded rest
  else if s.beginsPlain spot rest then
    s.plain? spots spot
  else s.indicator? spot rest

/- White space that may stand between tokens. -/
def isBetween (s : Scanner) (spot : Spot) : Bool :=
  spot.char = ' ' ||
    (spot.char = '\t' && (s.inFlow || !s.mayBeKey)) ||
    (spot.char = '\ufeff' && spot.column = 0)

/- Go on by a character that may begin a token. -/
def fetch?
    (s : Scanner)
    (spot : Spot)
    (rest : List Spot) : Option Scanner :=
  let s := s.goTo rest
  if s.isBetween spot then some s
  else if spot.char = '#' then
    some (s.goTo (rest.dropWhile fun next =>
      !isBreak next.char))
  else if isBreak spot.char then
    some (s.keyNext (s.mayBeKey || !s.inFlow))
  else do
    let s ← s.dropStale? spot
    (s.closeBlocks spot.column).token? spot rest

/- Go on to the end, passing over what has been dealt with. -/
def scan? : Scanner → List Spot → Option Scanner
| s, [] => s.outermost?
| s, spot :: rest =>
    if s.resume < spot.left then scan? s rest
    else
      match s.fetch? spot rest with
      | none => none
      | some s => scan? s rest

end Scanner

/- The tokens of a text. -/
def tokens? (text : String) : Option (List Token) := do
  let spots ← spots? text
  let s ← (Scanner.start spots.length).scan? spots
  return s.reversed.reverse

end Yaml

end Federation
