import Federation.Yaml.Block
import Federation.Yaml.Fold

/-
  This file defines the tokens of a YAML text, and how
  anchors, tags and directives are read.

  Key definitions include:
    * `Yaml.ScalarStyle`
    * `Yaml.Token`
    * `Yaml.anchorName?`
    * `Yaml.tag?`
    * `Yaml.directive?`
-/

namespace Federation

namespace Yaml

------------------------------------------------------------
-- Tokens
------------------------------------------------------------

/- How a scalar is written. -/
inductive ScalarStyle where
| plain
| singleQuoted
| doubleQuoted
| literal
| folded
deriving DecidableEq, Repr

/- A token. -/
inductive Token where
/- The directive of a version. -/
| version (major minor : Nat)
/- The directive of a tag's handle. -/
| handle (name start : String)
| documentStart
| documentEnd
| blockSequenceStart
| blockMappingStart
| blockEnd
| flowSequenceStart
| flowSequenceEnd
| flowMappingStart
| flowMappingEnd
/- The dash before an item. -/
| blockEntry
/- The comma between items. -/
| flowEntry
/- A key follows. -/
| key
/- A value follows. -/
| value
| alias (name : String)
| anchor (name : String)
| tag (handle suffix : String)
| scalar (style : ScalarStyle) (text : String)
deriving DecidableEq, Repr

------------------------------------------------------------
-- Parts of a Line
------------------------------------------------------------

/- The text of characters in a row. -/
def textOf (spots : List Spot) : String :=
  String.ofList (spots.map Spot.char)

/- The characters in a row that pass a test, and the rest. -/
def takeText
    (test : Char → Bool)
    (spots : List Spot) : String × List Spot :=
  ( textOf (spots.takeWhile fun spot => test spot.char),
    spots.dropWhile fun spot => test spot.char )

/- The rest after a character that must be there. -/
def expect?
    (c : Char)
    (spots : List Spot) : Option (List Spot) :=
  match spots with
  | [] => none
  | spot :: rest => if spot.char = c then some rest else none

/- The rest after spaces, of which there must be some. -/
def gap? (spots : List Spot) : Option (List Spot) :=
  match spots with
  | [] => none
  | spot :: rest =>
      if isSpace spot.char then
        some (rest.dropWhile fun next => isSpace next.char)
      else none

------------------------------------------------------------
-- Anchors
------------------------------------------------------------

/- The signs that may follow the name of an anchor. -/
def afterAnchor : List Char :=
  ['?', ':', ',', ']', '\x7d', '%', '@', '\x60']

/- The name of an anchor or of an alias. -/
def anchorName?
    (spots : List Spot) : Option (String × List Spot) :=
  let (name, rest) := takeText isNameChar spots
  if name ≠ "" ∧ (atGap rest || atOneOf afterAnchor rest) then
    some (name, rest)
  else none

------------------------------------------------------------
-- Tags
------------------------------------------------------------

/- The signs that a tag may hold beside letters and digits. -/
def tagSigns : List Char :=
  [';', '/', '?', ':', '@', '&', '=', '+', '$', '.', '!',
    '~', '*', '\'', '(', ')', '%']

/- The signs that a tag may hold between angle brackets. -/
def bracketedSigns : List Char :=
  [',', '[', ']']

/- A tag may hold the character. -/
def isTagChar (isBracketed : Bool) (c : Char) : Bool :=
  isNameChar c || tagSigns.contains c ||
    (isBracketed && bracketedSigns.contains c)

/-
  How many octets follow the first one of a character, and
  what that one adds to its number.
-/
def leadingOctet? (octet : Nat) : Option (Nat × Nat) :=
  if octet < 0x80 then some (0, octet)
  else if octet < 0xC0 then none
  else if octet < 0xE0 then some (1, octet % 0x20)
  else if octet < 0xF0 then some (2, octet % 0x10)
  else if octet < 0xF8 then some (3, octet % 0x08)
  else none

/- What a further octet makes of a character's number. -/
def furtherOctet? (value octet : Nat) : Option Nat :=
  if octet / 0x40 = 2 then some (value * 0x40 + octet % 0x40)
  else none

/-
  The characters of a tag, where a percent sign and two
  digits stand for an octet. Some octets of a character may
  be missing, the others having given a number.
-/
def unescape? :
    (missing value : Nat) → List Char → Option (List Char)
| 0, _, [] => some []
| _ + 1, _, [] => none
| missing, value, '%' :: a :: b :: rest => do
    let octet := 16 * (← hexValue? a) + (← hexValue? b)
    let (missing, value) ←
      match missing with
      | 0 => leadingOctet? octet
      | missing + 1 =>
          (furtherOctet? value octet).map fun value =>
            (missing, value)
    let tail ← unescape? missing value rest
    if missing = 0 then return Char.ofNat value :: tail
    else return tail
| 0, _, c :: rest =>
    if c = '%' then none
    else (unescape? 0 0 rest).map (c :: ·)
| _ + 1, _, _ => none

/- The characters of a tag. -/
def tagText?
    (isBracketed : Bool)
    (spots : List Spot) : Option (String × List Spot) :=
  let (text, rest) := takeText (isTagChar isBracketed) spots
  (unescape? 0 0 text.toList).map fun chars =>
    (String.ofList chars, rest)

/- A tag between angle brackets, which open before. -/
def bracketedTag?
    (spots : List Spot) : Option (Token × List Spot) := do
  let (text, rest) ← tagText? true spots
  if text = "" then none
  let rest ← expect? '>' rest
  return (.tag "" text, rest)

/-
  A tag with a handle or without, after its first sign. The
  single sign alone is a tag of its own.
-/
def shortTag?
    (spots : List Spot) : Option (Token × List Spot) := do
  let (name, rest) := takeText isNameChar spots
  match expect? '!' rest with
  | some rest => do
      let (text, rest) ← tagText? false rest
      if text = "" then none
      return (.tag ("!" ++ name ++ "!") text, rest)
  | none => do
      let (text, rest) ← tagText? false rest
      if name ++ text = "" then return (.tag "" "!", rest)
      else return (.tag "!" (name ++ text), rest)

/- A tag, after its first sign. -/
def tag?
    (inFlow : Bool)
    (spots : List Spot) : Option (Token × List Spot) := do
  let (token, rest) ←
    match expect? '<' spots with
    | some rest => bracketedTag? rest
    | none => shortTag? spots
  if atGap rest || (inFlow && atOneOf [','] rest) then
    return (token, rest)
  else none

------------------------------------------------------------
-- Directives
------------------------------------------------------------

/- A number of at most nine digits. -/
def shortNumber?
    (spots : List Spot) : Option (Nat × List Spot) :=
  let (digits, rest) := takeText Char.isDigit spots
  if digits.length ≤ 9 then
    digits.toNat?.map fun value => (value, rest)
  else none

/- The two numbers of a version. -/
def versionNumbers?
    (spots : List Spot) : Option (Token × List Spot) := do
  let rest := spots.dropWhile fun spot => isSpace spot.char
  let (major, rest) ← shortNumber? rest
  let rest ← expect? '.' rest
  let (minor, rest) ← shortNumber? rest
  return (.version major minor, rest)

/- The handle of a tag and what it stands for. -/
def handleParts?
    (spots : List Spot) : Option (Token × List Spot) := do
  let rest := spots.dropWhile fun spot => isSpace spot.char
  let rest ← expect? '!' rest
  let (name, rest) := takeText isNameChar rest
  let (handle, rest) ←
    match expect? '!' rest with
    | some rest => some ("!" ++ name ++ "!", rest)
    | none => if name = "" then some ("!", rest) else none
  let rest ← gap? rest
  let (start, rest) ← tagText? true rest
  if start ≠ "" ∧ atGap rest then
    return (.handle handle start, rest)
  else none

/- A directive, after its percent sign, with its line. -/
def directive?
    (spots : List Spot) : Option (Token × List Spot) := do
  let (name, rest) := takeText isNameChar spots
  if !atGap rest then none
  let (token, rest) ←
    if name = "YAML" then versionNumbers? rest
    else if name = "TAG" then handleParts? rest
    else none
  let rest ← endOfLine? rest
  return (token, rest)

end Yaml

end Federation
