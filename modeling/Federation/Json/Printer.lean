import Federation.Bytes.Hex
import Federation.Decimal.Shortest
import Federation.Json.Basic

/-
  This file defines the two texts of a JSON value: the
  compact one without white space and the one with a line
  for each item and member.

  Key definitions include:
    * `Json.escape`
    * `Json.quote`
    * `Json.numberLayout`
    * `Json.compact`
    * `Json.indented`
-/

namespace Federation

namespace Json

------------------------------------------------------------
-- Scalars
------------------------------------------------------------

/-
  One character inside a string. Quotes, backslashes and
  controls are escaped, and nothing else.
-/
def escape (c : Char) : List Char :=
  if c = '"' then ['\\', '"']
  else if c = '\\' then ['\\', '\\']
  else if c = '\x08' then ['\\', 'b']
  else if c = '\x0c' then ['\\', 'f']
  else if c = '\n' then ['\\', 'n']
  else if c = '\r' then ['\\', 'r']
  else if c = '\t' then ['\\', 't']
  else if c.toNat < 0x20 then
    '\\' :: 'u' :: (Hex.ofUnit c.toNat).toList
  else [c]

/- A text as a string. -/
def quote (text : String) : List Char :=
  '"' :: (text.toList.flatMap escape ++ ['"'])

/- Floats show that they are floats, with signed exponents. -/
def numberLayout : Decimal.Layout :=
  ⟨true, ".0", "+"⟩

/- The text of an integer. -/
def integerText (n : Int) : String :=
  (if n < 0 then "-" else "") ++
    Decimal.digitsText n.natAbs

/- The brace that opens an object. -/
def openBrace : Char := '\x7b'

/- The brace that closes an object. -/
def closeBrace : Char := '\x7d'

------------------------------------------------------------
-- Compact Text
------------------------------------------------------------

mutual

/- The characters of a value without white space. -/
def compactChars : Json → List Char
| .null => ['n', 'u', 'l', 'l']
| .bool true => ['t', 'r', 'u', 'e']
| .bool false => ['f', 'a', 'l', 's', 'e']
| .integer n => (integerText n).toList
| .float x => (Decimal.render numberLayout x).toList
| .string s => quote s
| .array [] => ['[', ']']
| .array (item :: items) =>
    '[' :: (compactChars item ++ compactItems items)
| .object [] => [openBrace, closeBrace]
| .object ((key, value) :: members) =>
    openBrace ::
      (quote key ++ ':' ::
        (compactChars value ++ compactMembers members))

/- The items after the first, and the end of their array. -/
def compactItems : List Json → List Char
| [] => [']']
| item :: items =>
    ',' :: (compactChars item ++ compactItems items)

/- The members after the first, and the end of their object. -/
def compactMembers : List (String × Json) → List Char
| [] => [closeBrace]
| (key, value) :: members =>
    ',' ::
      (quote key ++ ':' ::
        (compactChars value ++ compactMembers members))

end

/- The text of a value without white space. -/
def compact (value : Json) : String :=
  String.ofList (compactChars value)

------------------------------------------------------------
-- Indented Text
------------------------------------------------------------

/- A line's end and two spaces for each level. -/
def newline (level : Nat) : List Char :=
  '\n' :: List.replicate (2 * level) ' '

mutual

/- The characters of a value that stands at a level. -/
def indentedChars (level : Nat) : Json → List Char
| .array (item :: items) =>
    '[' :: (newline (level + 1) ++
      (indentedChars (level + 1) item ++
        indentedItems level items))
| .object ((key, value) :: members) =>
    openBrace :: (newline (level + 1) ++
      (quote key ++ ':' :: ' ' ::
        (indentedChars (level + 1) value ++
          indentedMembers level members)))
| .null => ['n', 'u', 'l', 'l']
| .bool true => ['t', 'r', 'u', 'e']
| .bool false => ['f', 'a', 'l', 's', 'e']
| .integer n => (integerText n).toList
| .float x => (Decimal.render numberLayout x).toList
| .string s => quote s
| .array [] => ['[', ']']
| .object [] => [openBrace, closeBrace]

/- The items after the first, and the end of their array. -/
def indentedItems
    (level : Nat) :
    List Json → List Char
| [] => newline level ++ [']']
| item :: items =>
    ',' :: (newline (level + 1) ++
      (indentedChars (level + 1) item ++
        indentedItems level items))

/- The members after the first, and the end of their object. -/
def indentedMembers
    (level : Nat) :
    List (String × Json) → List Char
| [] => newline level ++ [closeBrace]
| (key, value) :: members =>
    ',' :: (newline (level + 1) ++
      (quote key ++ ':' :: ' ' ::
        (indentedChars (level + 1) value ++
          indentedMembers level members)))

end

/- The text of a value with a line for each item and member. -/
def indented (value : Json) : String :=
  String.ofList (indentedChars 0 value)

end Json

end Federation
