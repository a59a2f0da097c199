/-
  This file defines the text patterns of schemas: sequences
  of character classes, each with a range of repetitions,
  that must match a whole text.

  Key definitions include:
    * `CharClass`
    * `Piece`
    * `Pattern`
    * `Pattern.accepts`
    * `Pattern.source`
-/

namespace Federation

------------------------------------------------------------
-- Classes
------------------------------------------------------------

/- A class of characters. -/
inductive CharClass where
| literal (c : Char)
| oneOf (ranges : List (Char × Char))
| noneOf (ranges : List (Char × Char))
| notSpace
deriving DecidableEq, Repr

namespace CharClass

/- The characters that count as space in patterns. -/
def spaces : List Char :=
  [ ' ', '\t', '\n', '\r', '\x0b', '\x0c', '\u00a0',
    '\ufeff', '\u2003', '\u2029' ]

/- A character lies in one of the ranges. -/
def inRanges
    (ranges : List (Char × Char))
    (c : Char) : Bool :=
  ranges.any fun (low, high) => low ≤ c && c ≤ high

/- A character belongs to the class. -/
def holds : CharClass → Char → Bool
| .literal d, c => c == d
| .oneOf ranges, c => inRanges ranges c
| .noneOf ranges, c => !inRanges ranges c
| .notSpace, c => !spaces.contains c

/- A range as it is written in a pattern. -/
def rangeText : Char × Char → String
| (low, high) =>
    if low = high then String.singleton low
    else String.ofList [low, '-', high]

/- The text of ranges. -/
def rangesText (ranges : List (Char × Char)) : String :=
  String.join (ranges.map rangeText)

/- A class as it is written in a pattern. -/
def source : CharClass → String
| .literal c => String.singleton c
| .oneOf ranges => "[" ++ rangesText ranges ++ "]"
| .noneOf ranges => "[^" ++ rangesText ranges ++ "]"
| .notSpace => "[^\\s]"

end CharClass

------------------------------------------------------------
-- Patterns
------------------------------------------------------------

/- A class with the least and the greatest number of times. -/
structure Piece where
  charClass : CharClass
  least : Nat
  greatest : Option Nat
deriving DecidableEq, Repr

/- Pieces that a text consists of, one after the other. -/
abbrev Pattern := List Piece

namespace Piece

/- A class once. -/
def one (k : CharClass) : Piece :=
  ⟨k, 1, some 1⟩

/- A class a fixed number of times. -/
def times
    (k : CharClass)
    (n : Nat) : Piece :=
  ⟨k, n, some n⟩

/- A class at least once. -/
def some (k : CharClass) : Piece :=
  ⟨k, 1, none⟩

/- The piece after one more character of its class. -/
def next (p : Piece) : Piece :=
  { p with
    least := p.least - 1
    greatest := p.greatest.map (· - 1) }

/- The text of a piece's repetitions. -/
def repetition (p : Piece) : String :=
  match p.least, p.greatest with
  | 1, .some 1 => ""
  | 0, .some 1 => "?"
  | 0, none => "*"
  | 1, none => "+"
  | least, .some greatest =>
      if least = greatest then
        "\x7b" ++ toString least ++ "\x7d"
      else
        "\x7b" ++ toString least ++ "," ++
          toString greatest ++ "\x7d"
  | least, none => "\x7b" ++ toString least ++ ",\x7d"

/- A piece as it is written in a pattern. -/
def source (p : Piece) : String :=
  p.charClass.source ++ p.repetition

end Piece

namespace Pattern

/- Nothing more has to come. -/
def isComplete (pattern : Pattern) : Bool :=
  pattern.all fun p => p.least == 0

/-
  The patterns of what may follow a character. It belongs to
  the first piece, or to a later one if the pieces before
  have been met often enough.
-/
def after (c : Char) : Pattern → List Pattern
| [] => []
| p :: rest =>
    let taken :=
      if p.greatest != some 0 && p.charClass.holds c then
        [p.next :: rest]
      else
        []
    if p.least == 0 then taken ++ after c rest else taken

/- A text consists of the pieces of one of the patterns. -/
def acceptsAny : List Pattern → List Char → Bool
| patterns, [] => patterns.any isComplete
| patterns, c :: cs =>
    acceptsAny (patterns.flatMap (after c)) cs

/- A text consists of the pieces of the pattern. -/
def accepts
    (pattern : Pattern)
    (cs : List Char) : Bool :=
  acceptsAny [pattern] cs

/- A pattern with its anchors, as it is written in a schema. -/
def source (pattern : Pattern) : String :=
  "^" ++ String.join (pattern.map Piece.source) ++ "$"

end Pattern

end Federation
