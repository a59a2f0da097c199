import Federation.Yaml.Spot

/-
  This file defines how the lines of plain and quoted
  scalars are folded: white space around a break is dropped,
  a single break becomes a space, and further breaks stay.

  Key definitions include:
    * `Yaml.Fold`
    * `Yaml.Fold.space`, `Yaml.Fold.newline`, `Yaml.Fold.push`
    * `Yaml.plain`
    * `Yaml.quoted`
-/

namespace Federation

namespace Yaml

------------------------------------------------------------
-- Folding
------------------------------------------------------------

/-
  A folded text, and the white space read after it: spaces,
  the first break if there is one, and the breaks after it.
  Lists of characters are reversed.
-/
structure Fold where
  text : List Char
  spaces : List Char
  first : Option (List Char)
  further : List Char

namespace Fold

/- Nothing read. -/
def empty : Fold :=
  ⟨[], [], none, []⟩

/- What the white space after the text becomes. -/
def gap (f : Fold) : List Char :=
  match f.first with
  | none => f.spaces
  | some ['\n'] =>
      if f.further.isEmpty then [' '] else f.further
  | some first => f.further ++ first

/- Add a space; spaces at the start of a line are dropped. -/
def space (f : Fold) (c : Char) : Fold :=
  match f.first with
  | none => { f with spaces := c :: f.spaces }
  | some _ => f

/- Add a break; spaces before it are dropped. -/
def newline (f : Fold) (c : Char) : Fold :=
  match f.first with
  | none => { f with spaces := [], first := some [c] }
  | some _ => { f with further := c :: f.further }

/- Add white space of either kind. -/
def white (f : Fold) (c : Char) : Fold :=
  if isBreak c then f.newline c else f.space c

/- Make the white space after the text part of the text. -/
def settle (f : Fold) : Fold :=
  ⟨f.gap ++ f.text, [], none, []⟩

/- Add a character of the text. -/
def push (f : Fold) (c : Char) : Fold :=
  { f.settle with text := c :: f.settle.text }

/- Join the next line without a space. -/
def join (f : Fold) : Fold :=
  { f.settle with first := some [] }

/- White space has been read. -/
def hasGap (f : Fold) : Bool :=
  f.first.isSome || !f.spaces.isEmpty

/- The text without the white space after it. -/
def toText (f : Fold) : String :=
  String.ofList f.text.reverse

end Fold

------------------------------------------------------------
-- Plain Scalars
------------------------------------------------------------

/- The indicators that end plain scalars inside brackets. -/
def flowIndicators : List Char :=
  [',', '[', ']', '\x7b', '\x7d']

/- A plain scalar ends before the characters. -/
def endsPlain
    (inFlow : Bool)
    (indent : Nat)
    (f : Fold)
    (spot : Spot)
    (rest : List Spot) : Bool :=
  (!inFlow && f.first.isSome && spot.column < indent) ||
    atMarker (spot :: rest) ||
    (spot.char = '#' && f.hasGap) ||
    (spot.char = ':' && atGap rest) ||
    (inFlow && flowIndicators.contains spot.char)

/- A plain scalar has a colon where none may be. -/
def isMisplaced
    (inFlow : Bool)
    (spot : Spot)
    (rest : List Spot) : Bool :=
  inFlow && spot.char = ':' &&
    atOneOf ('?' :: flowIndicators) rest

/-
  Read a plain scalar. It ends before a comment, a marker, a
  colon with white space, or a line that is less indented.
-/
def plain
    (inFlow : Bool)
    (indent : Nat) :
    Fold → List Spot → Option (Fold × List Spot)
| f, [] => some (f, [])
| f, spot :: rest =>
    if isGap spot.char then
      if spot.char = '\t' ∧ f.first.isSome ∧
          spot.column < indent then none
      else plain inFlow indent (f.white spot.char) rest
    else if endsPlain inFlow indent f spot rest then
      some (f, spot :: rest)
    else if isMisplaced inFlow spot rest then none
    else plain inFlow indent (f.push spot.char) rest

------------------------------------------------------------
-- Quoted Scalars
------------------------------------------------------------

/- The character of an escape of one letter. -/
def escapedLetter? : Char → Option Char
| '0' => some '\x00'
| 'a' => some '\x07'
| 'b' => some '\x08'
| 't' => some '\t'
| '\t' => some '\t'
| 'n' => some '\n'
| 'v' => some '\x0b'
| 'f' => some '\x0c'
| 'r' => some '\r'
| 'e' => some '\x1b'
| ' ' => some ' '
| '"' => some '"'
| '/' => some '/'
| '\\' => some '\\'
| 'N' => some '\u0085'
| '_' => some '\u00a0'
| 'L' => some '\u2028'
| 'P' => some '\u2029'
| _ => none

/- The count of digits of an escape of a code point. -/
def escapeDigits : Char → Nat
| 'x' => 2
| 'u' => 4
| 'U' => 8
| _ => 0

/- The value of a hexadecimal digit. -/
def hexValue? (c : Char) : Option Nat :=
  if '0' ≤ c ∧ c ≤ '9' then some (c.toNat - 48)
  else if 'a' ≤ c ∧ c ≤ 'f' then some (c.toNat - 87)
  else if 'A' ≤ c ∧ c ≤ 'F' then some (c.toNat - 55)
  else none

/- The code point of the next digits. -/
def codePoint? : Nat → Nat → List Spot → Option Nat
| 0, value, _ => some value
| _ + 1, _, [] => none
| count + 1, value, spot :: rest => do
    let digit ← hexValue? spot.char
    codePoint? count (16 * value + digit) rest

/- The character of an escape, and how many it takes. -/
def escaped?
    (spot : Spot)
    (rest : List Spot) : Option (Char × Nat) :=
  match escapedLetter? spot.char with
  | some c => some (c, 1)
  | none => do
      let count := escapeDigits spot.char
      if count = 0 then none
      let value ← codePoint? count 0 rest
      if value.isValidChar then
        some (Char.ofNat value, count + 1)
      else none

/-
  Read a quoted scalar up to its second quote, after passing
  over characters that have been dealt with.
-/
def quoted
    (quote : Char) :
    (passed : Nat) → Fold → List Spot →
      Option (Fold × List Spot)
| _, _, [] => none
| passed + 1, f, _ :: rest => quoted quote passed f rest
| 0, f, spot :: rest =>
    if atMarker (spot :: rest) then none
    else if isGap spot.char then
      quoted quote 0 (f.white spot.char) rest
    else if spot.char = quote then
      if quote = '\'' ∧ atOneOf ['\''] rest then
        quoted quote 1 (f.push '\'') rest
      else some (f.settle, rest)
    else if quote = '"' ∧ spot.char = '\\' then
      match rest with
      | [] => none
      | next :: after =>
          if isBreak next.char then
            quoted quote 1 f.join rest
          else
            match escaped? next after with
            | none => none
            | some (c, count) =>
                quoted quote count (f.push c) rest
    else quoted quote 0 (f.push spot.char) rest

end Yaml

end Federation
