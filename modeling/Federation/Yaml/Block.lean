import Federation.Yaml.Spot

/-
  This file defines block scalars: the lines below a header
  that are indented more than what is around them.

  Key definitions include:
    * `Yaml.Chomping`
    * `Yaml.header?`
    * `Yaml.Block`
    * `Yaml.blockScalar?`
-/

namespace Federation

namespace Yaml

------------------------------------------------------------
-- Headers
------------------------------------------------------------

/- What becomes of the breaks at the end of a block scalar. -/
inductive Chomping where
| strip
| clip
| keep
deriving DecidableEq, Repr

/- The header of a block scalar. -/
structure Header where
  chomping : Chomping
  increment : Option Nat

/- The chomping that a sign stands for. -/
def chompingOf? : List Spot → Option (Chomping × List Spot)
| [] => none
| spot :: rest =>
    if spot.char = '+' then some (.keep, rest)
    else if spot.char = '-' then some (.strip, rest)
    else none

/- The increment that a digit stands for; zero is refused. -/
def incrementOf?
    (spots : List Spot) : Option (Option Nat × List Spot) :=
  match spots with
  | [] => some (none, [])
  | spot :: rest =>
      if spot.char.isDigit then
        if spot.char = '0' then none
        else some (some (spot.char.toNat - 48), rest)
      else some (none, spots)

/- Both parts of a header in either order. -/
def indicators?
    (spots : List Spot) : Option (Header × List Spot) :=
  match chompingOf? spots with
  | some (chomping, rest) => do
      let (increment, rest) ← incrementOf? rest
      return (⟨chomping, increment⟩, rest)
  | none => do
      let (increment, rest) ← incrementOf? spots
      match increment, chompingOf? rest with
      | some _, some (chomping, rest) =>
          return (⟨chomping, increment⟩, rest)
      | _, _ => return (⟨.clip, increment⟩, rest)

/- What follows a line's spaces and comment: its break. -/
def endOfLine? (spots : List Spot) : Option (List Spot) :=
  let spots := spots.dropWhile fun spot => isSpace spot.char
  let spots :=
    if atOneOf ['#'] spots then
      spots.dropWhile fun spot => !isBreak spot.char
    else spots
  match spots with
  | [] => some []
  | spot :: rest =>
      if isBreak spot.char then some rest else none

/- Read a header and the break after it. -/
def header?
    (spots : List Spot) : Option (Header × List Spot) := do
  let (header, rest) ← indicators? spots
  let rest ← endOfLine? rest
  return (header, rest)

------------------------------------------------------------
-- Lines
------------------------------------------------------------

/-
  A block scalar while it is read: the indentation once it
  is known, the deepest one of empty lines, the text, the
  break of its last line, and the breaks of empty lines
  after it. Lists of characters are reversed.
-/
structure Block where
  indent : Option Nat
  deepest : Nat
  text : List Char
  last : List Char
  further : List Char
  wasSpaced : Bool

namespace Block

/- Begin a line, which starts with a space or does not. -/
def beginLine
    (b : Block)
    (isLiteral isSpaced : Bool) : Block :=
  let isFolded :=
    !isLiteral && b.last = ['\n'] && !b.wasSpaced && !isSpaced
  let between :=
    if isFolded then
      if b.further.isEmpty then [' '] else []
    else b.last
  { b with
    text := b.further ++ between ++ b.text
    last := []
    further := []
    wasSpaced := isSpaced }

/- Add a character of a line. -/
def push (b : Block) (c : Char) : Block :=
  { b with text := c :: b.text }

/- The text, with the breaks that are kept at its end. -/
def toText (b : Block) (chomping : Chomping) : String :=
  let text :=
    match chomping with
    | .strip => b.text
    | .clip => b.last ++ b.text
    | .keep => b.further ++ b.last ++ b.text
  String.ofList text.reverse

end Block

/-
  Read the lines of a block scalar, in the middle of a line
  or at the start of one. It ends before a line that is less
  indented.
-/
def blockLines
    (isLiteral : Bool)
    (least : Nat) :
    (inLine : Bool) → Block → List Spot →
      Option (Block × List Spot)
| _, b, [] => some (b, [])
| true, b, spot :: rest =>
    if isBreak spot.char then
      blockLines isLiteral least false
        { b with last := [spot.char] } rest
    else
      blockLines isLiteral least true (b.push spot.char) rest
| false, b, spot :: rest =>
    let isBefore :=
      match b.indent with
      | none => true
      | some indent => spot.column < indent
    let deepest := max b.deepest spot.column
    if isBefore && spot.char = ' ' then
      blockLines isLiteral least false b rest
    else if isBefore && spot.char = '\t' then none
    else if isBreak spot.char then
      blockLines isLiteral least false
        { b with deepest, further := spot.char :: b.further }
        rest
    else
      let indent := b.indent.getD (max deepest least)
      let b := { b with indent := some indent, deepest }
      if spot.column = indent then
        blockLines isLiteral least true
          ((b.beginLine isLiteral (isSpace spot.char)).push
            spot.char)
          rest
      else some (b, spot :: rest)

/- Read a block scalar inside a block of an indentation. -/
def blockScalar?
    (isLiteral : Bool)
    (outer : Int)
    (spots : List Spot) : Option (String × List Spot) := do
  let (header, rest) ← header? spots
  let indent := header.increment.map (· + outer.toNat)
  let least := max (outer + 1).toNat 1
  let (b, rest) ←
    blockLines isLiteral least false
      ⟨indent, 0, [], [], [], false⟩ rest
  return (b.toText header.chomping, rest)

end Yaml

end Federation
