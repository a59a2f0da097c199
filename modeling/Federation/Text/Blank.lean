/-
  This file defines blank characters, those of Unicode with
  the property White_Space, and trimming by them.

  Key definitions include:
    * `Text.inRanges`
    * `Text.isBlank`
    * `Text.trim`
    * `Text.isAllBlank`
    * `Text.isAsciiBlank`
-/

namespace Federation

namespace Text

------------------------------------------------------------
-- Ranges of Code Points
------------------------------------------------------------

/- Some range of the list holds the code point. -/
def inRanges
    (ranges : List (Nat × Nat))
    (code : Nat) : Bool :=
  ranges.any fun (low, high) =>
    low ≤ code && code ≤ high

------------------------------------------------------------
-- Blank Characters
------------------------------------------------------------

/- The code points with the property White_Space. -/
def blankRanges : List (Nat × Nat) :=
  [ (0x09, 0x0D), (0x20, 0x20), (0x85, 0x85),
    (0xA0, 0xA0), (0x1680, 0x1680), (0x2000, 0x200A),
    (0x2028, 0x2029), (0x202F, 0x202F),
    (0x205F, 0x205F), (0x3000, 0x3000) ]

/- A character is blank when it is white space in Unicode. -/
def isBlank (c : Char) : Bool :=
  inRanges blankRanges c.toNat

/- The blanks of ASCII: tab, line feed, form feed, return, space. -/
def isAsciiBlank (b : UInt8) : Bool :=
  b == 0x20 || b == 0x09 || b == 0x0A || b == 0x0C ||
    b == 0x0D

------------------------------------------------------------
-- Trimming
------------------------------------------------------------

/- The text without its leading blank characters. -/
def trimStart (cs : List Char) : List Char :=
  cs.dropWhile isBlank

/- The text without its trailing blank characters. -/
def trimEnd (cs : List Char) : List Char :=
  (cs.reverse.dropWhile isBlank).reverse

/- The text without blank characters at either end. -/
def trim (cs : List Char) : List Char :=
  trimEnd (trimStart cs)

/- A text that trimming leaves empty. -/
def isAllBlank (cs : List Char) : Bool :=
  cs.all isBlank

------------------------------------------------------------
-- Parts of a Text
------------------------------------------------------------

/- The parts between the occurrences of a separator. -/
def splitAt
    (separator : Char) :
    List Char → List (List Char)
| [] => [[]]
| c :: rest =>
    if c = separator then
      [] :: splitAt separator rest
    else
      match splitAt separator rest with
      | [] => [[c]]
      | part :: parts => (c :: part) :: parts

end Text

end Federation
