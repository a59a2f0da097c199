import Federation.Text.Blank

/-
  This file defines the characters of a YAML text with their
  places, after every line break has become one character.

  Key definitions include:
    * `Yaml.Spot`
    * `Yaml.spots?`
    * `Yaml.isBreak`, `Yaml.isGap`
    * `Yaml.atGap`
    * `Yaml.atMarker`
-/

namespace Federation

namespace Yaml

------------------------------------------------------------
-- Characters
------------------------------------------------------------

/- The code points that a text may hold. -/
def permittedRanges : List (Nat × Nat) :=
  [ (0x09, 0x0A), (0x0D, 0x0D), (0x20, 0x7E), (0x85, 0x85),
    (0xA0, 0xD7FF), (0xE000, 0xFFFD), (0x10000, 0x10FFFF) ]

/- A text may hold the character. -/
def isPermitted (c : Char) : Bool :=
  Text.inRanges permittedRanges c.toNat

/- Spaces and tabs. -/
def isSpace (c : Char) : Bool :=
  c = ' ' || c = '\t'

/- Breaks of lines, as they are once they are unified. -/
def isBreak (c : Char) : Bool :=
  c = '\n' || c = '\u2028' || c = '\u2029'

/- White space of either kind. -/
def isGap (c : Char) : Bool :=
  isSpace c || isBreak c

/- Letters, digits, and the signs that names may hold. -/
def isNameChar (c : Char) : Bool :=
  c.isAlphanum || c = '-' || c = '_'

/-
  A text with one line feed for each usual break, after what
  has been unified before, which is reversed.
-/
def unifyBreaks
    (before : List Char) : List Char → List Char
| [] => before.reverse
| '\r' :: '\n' :: rest => unifyBreaks ('\n' :: before) rest
| c :: rest =>
    let c := if c = '\r' ∨ c = '\u0085' then '\n' else c
    unifyBreaks (c :: before) rest

------------------------------------------------------------
-- Places
------------------------------------------------------------

/-
  A character with its line, its column, and the count of
  characters from it to the end.
-/
structure Spot where
  char : Char
  line : Nat
  column : Nat
  left : Nat

/-
  Characters with their places, from a place on, after those
  placed before, which are reversed.
-/
def place
    (line column left : Nat)
    (before : List Spot) : List Char → List Spot
| [] => before.reverse
| c :: rest =>
    let before := ⟨c, line, column, left⟩ :: before
    if isBreak c then place (line + 1) 0 (left - 1) before rest
    else place line (column + 1) (left - 1) before rest

/- The characters of a text that holds permitted ones only. -/
def spots? (text : String) : Option (List Spot) :=
  if text.toList.all isPermitted then
    let chars := unifyBreaks [] text.toList
    some (place 0 0 chars.length [] chars)
  else none

/- The count of characters up to the end. -/
def left : List Spot → Nat
| [] => 0
| spot :: _ => spot.left

------------------------------------------------------------
-- What Follows
------------------------------------------------------------

/- White space or nothing follows. -/
def atGap : List Spot → Bool
| [] => true
| spot :: _ => isGap spot.char

/- One of some characters follows. -/
def atOneOf (chars : List Char) : List Spot → Bool
| [] => false
| spot :: _ => chars.contains spot.char

/- Three equal characters and then white space or nothing. -/
def atTriple (c : Char) : List Spot → Bool
| x :: y :: z :: rest =>
    x.char = c && y.char = c && z.char = c && atGap rest
| _ => false

/- A marker of a document's start or end begins the line. -/
def atMarker : List Spot → Bool
| [] => false
| spot :: rest =>
    spot.column = 0 &&
      (atTriple '-' (spot :: rest) ||
        atTriple '.' (spot :: rest))

end Yaml

end Federation
