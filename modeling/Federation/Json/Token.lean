import Federation.Bytes.Hex
import Federation.Json.Number
import Federation.Text.Unicode

/-
  This file defines the tokens of JSON text and the scanner
  that finds them. The form of a token is judged when it is
  scanned; whether it has a value is kept with it.

  Key definitions include:
    * `Json.Token`
    * `Json.Scanner`
    * `Json.Scanner.push`
    * `Json.Token.scan`
-/

namespace Federation

namespace Json

/-
  A token of JSON text. A text has no value if its escaped
  units do not pair up, and a number if it is too large.
-/
inductive Token where
| openBrace
| closeBrace
| openBracket
| closeBracket
| colon
| comma
| text (value : Option String)
| scalar (value : Option Json)
deriving Repr

------------------------------------------------------------
-- Bare Words
------------------------------------------------------------

/- A character that may stand in a number or a name. -/
def isBare (c : Char) : Bool :=
  c.isAlphanum || c = '+' || c = '-' || c = '.'

/- The token of a bare word: a name or a number. -/
def Token.ofBare? (cs : List Char) : Option Token :=
  if cs = "null".toList then some (.scalar (some .null))
  else if cs = "true".toList then
    some (.scalar (some (.bool true)))
  else if cs = "false".toList then
    some (.scalar (some (.bool false)))
  else
    (Number.ofChars? cs).map fun n => .scalar n.value?

------------------------------------------------------------
-- Scanning
------------------------------------------------------------

/- Where a scanner stands in the text. -/
inductive Mode where
/- Between tokens. -/
| idle
/- In a bare word, its characters reversed. -/
| bare (reversed : List Char)
/- In a string, its units reversed. -/
| text (reversed : List Nat)
/- After a backslash in a string. -/
| escape (reversed : List Nat)
/- In the four digits of an escaped unit, these reversed. -/
| unit (reversed : List Nat) (digits : List Char)
deriving Repr

/- A scanner with the tokens it has found, the last first. -/
structure Scanner where
  mode : Mode
  reversed : List Token
deriving Repr

namespace Scanner

/- The token that a single character makes. -/
def punctuation? : Char → Option Token
| '[' => some .openBracket
| ']' => some .closeBracket
| ':' => some .colon
| ',' => some .comma
| c =>
    if c.toNat = 0x7B then some .openBrace
    else if c.toNat = 0x7D then some .closeBrace
    else none

/- White space between tokens. -/
def isSpace (c : Char) : Bool :=
  c = ' ' || c = '\n' || c = '\r' || c = '\t'

/- The character that a letter after a backslash stands for. -/
def escaped? : Char → Option Char
| '"' => some '"'
| '\\' => some '\\'
| '/' => some '/'
| 'b' => some '\x08'
| 'f' => some '\x0c'
| 'n' => some '\n'
| 'r' => some '\r'
| 't' => some '\t'
| _ => none

/- The number of hexadecimal digits, the last one first. -/
def unitOf? (reversedDigits : List Char) : Option Nat :=
  reversedDigits.reverse.foldlM
    (fun n c => (Hex.value? c).map (16 * n + ·)) 0

/- Take a character between tokens. -/
def pushIdle
    (tokens : List Token)
    (c : Char) : Option Scanner :=
  if isSpace c then some ⟨.idle, tokens⟩
  else if c = '"' then some ⟨.text [], tokens⟩
  else if isBare c then some ⟨.bare [c], tokens⟩
  else (punctuation? c).map fun t => ⟨.idle, t :: tokens⟩

/- Take one character. -/
def push
    (s : Scanner)
    (c : Char) : Option Scanner :=
  match s.mode with
  | .idle => pushIdle s.reversed c
  | .bare word =>
      if isBare c then
        some ⟨.bare (c :: word), s.reversed⟩
      else do
        let token ← Token.ofBare? word.reverse
        pushIdle (token :: s.reversed) c
  | .text units =>
      if c = '"' then
        let token := Token.text (Text.ofUnits? units.reverse)
        some ⟨.idle, token :: s.reversed⟩
      else if c = '\\' then
        some ⟨.escape units, s.reversed⟩
      else if c.toNat < 0x20 then
        none
      else
        some
          ⟨.text ((Text.unitsOf c).reverse ++ units),
            s.reversed⟩
  | .escape units =>
      if c = 'u' then
        some ⟨.unit units [], s.reversed⟩
      else
        (escaped? c).map fun d =>
          ⟨.text (d.toNat :: units), s.reversed⟩
  | .unit units digits =>
      if digits.length = 3 then
        (unitOf? (c :: digits)).map fun unit =>
          ⟨.text (unit :: units), s.reversed⟩
      else
        some ⟨.unit units (c :: digits), s.reversed⟩

/- The tokens of a scanner that stands at the text's end. -/
def finish (s : Scanner) : Option (List Token) :=
  match s.mode with
  | .idle => some s.reversed.reverse
  | .bare word => do
      let token ← Token.ofBare? word.reverse
      return (token :: s.reversed).reverse
  | _ => none

end Scanner

/- The tokens of a text. -/
def Token.scan (cs : List Char) : Option (List Token) := do
  let s ← cs.foldlM Scanner.push ⟨.idle, []⟩
  s.finish

end Json

end Federation
