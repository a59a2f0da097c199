import Federation.Json.Number
import Federation.Text.Blank
import Federation.Time.Instant

/-
  This file defines the reading of instants from text: a
  date, a time of day and an offset from universal time,
  with blanks allowed around most parts.

  Key definitions include:
    * `Instant.Fault`
    * `Instant.Parts`
    * `Instant.offset`
    * `Instant.parse`
-/

namespace Federation

namespace Instant

------------------------------------------------------------
-- Faults
------------------------------------------------------------

/- Why a text is not an instant. -/
inductive Fault where
| tooShort
| invalid
| outOfRange
| tooLong
| impossible
deriving DecidableEq, Repr

/- The wording of a fault. -/
def Fault.message : Fault → String
| .tooShort => "premature end of input"
| .invalid => "input contains invalid characters"
| .outOfRange => "input is out of range"
| .tooLong => "trailing input"
| .impossible => "no possible date and time matching input"

/- A step reads a value from the front of a text. -/
abbrev Step (α : Type) :=
  List Char → Except Fault (α × List Char)

------------------------------------------------------------
-- Numbers
------------------------------------------------------------

/- The greatest number that may be written out. -/
def greatestNumber : Nat := 0x7FFFFFFFFFFFFFFF

/- A number of at least one digit and at most a given count. -/
def number (most : Option Nat) : Step Nat :=
  fun cs =>
    let run := cs.takeWhile Json.Number.isDigit
    let digits :=
      match most with
      | some count => run.take count
      | none => run
    match cs, digits with
    | [], _ => .error .tooShort
    | _, [] => .error .invalid
    | _, digits =>
        let n := Json.Number.ofDigits digits
        if n ≤ greatestNumber then
          .ok (n, cs.drop digits.length)
        else
          .error .outOfRange

/- A number within bounds, after blanks. -/
def bounded
    (low high : Nat) : Step Nat :=
  fun cs => do
    let (n, rest) ← number (some 2) (Text.trimStart cs)
    if low ≤ n ∧ n ≤ high then return (n, rest)
    else throw .outOfRange

/- A year, of any length if it has a sign, after blanks. -/
def year : Step Int :=
  fun cs => do
    let (y, rest) ←
      match Text.trimStart cs with
      | '-' :: digits => do
          let (n, rest) ← number none digits
          pure (-(n : Int), rest)
      | '+' :: digits => do
          let (n, rest) ← number none digits
          pure ((n : Int), rest)
      | digits => do
          let (n, rest) ← number (some 4) digits
          pure ((n : Int), rest)
    if -0x80000000 ≤ y ∧ y < 0x80000000 then return (y, rest)
    else throw .outOfRange

/- A character that must come next, after blanks. -/
def mark (c : Char) : Step Unit :=
  fun cs =>
    match Text.trimStart cs with
    | [] => .error .tooShort
    | d :: rest =>
        if d = c then .ok ((), rest) else .error .invalid

------------------------------------------------------------
-- Parts
------------------------------------------------------------

/- What a text says of an instant. -/
structure Parts where
  date : Date
  hour : Nat
  minute : Nat
  second : Nat
  nanos : Nat
  offset : Int
deriving DecidableEq, Repr

/- A year, month and day with hyphens between them. -/
def date : Step Date :=
  fun cs => do
    let (year, rest) ← year cs
    let (_, rest) ← mark '-' rest
    let (month, rest) ← bounded 1 12 rest
    let (_, rest) ← mark '-' rest
    let (day, rest) ← bounded 1 31 rest
    return (⟨year, month, day⟩, rest)

/- The letter or the space between a date and a time. -/
def separator : Step Unit :=
  fun cs =>
    match cs with
    | [] => .error .tooShort
    | c :: rest =>
        if c = 'T' ∨ c = 't' ∨ c = ' ' then .ok ((), rest)
        else .error .invalid

/-
  The nanoseconds of a fraction, if there is one. Digits
  after the ninth are passed over.
-/
def fraction : Step Nat :=
  fun cs =>
    match cs with
    | '.' :: rest => do
        let (n, after) ← number (some 9) rest
        let count := rest.length - after.length
        let beyond := after.dropWhile Json.Number.isDigit
        return (n * Nat.pow 10 (9 - count), beyond)
    | cs => .ok (0, cs)

/- Two digits that come at once. -/
def twoDigits : Step (Char × Char) :=
  fun cs =>
    match cs with
    | [] => .error .tooShort
    | [c] =>
        .error (if c.toNat < 128 then .tooShort else .invalid)
    | c :: d :: rest => .ok ((c, d), rest)

/- The hours of an offset. -/
def offsetHours : Step Nat :=
  fun cs => do
    let ((c, d), rest) ← twoDigits cs
    if Json.Number.isDigit c ∧ Json.Number.isDigit d then
      return (Json.Number.ofDigits [c, d], rest)
    else
      throw .invalid

/- The minutes of an offset. -/
def offsetMinutes : Step Nat :=
  fun cs => do
    let ((c, d), rest) ← twoDigits cs
    if Json.Number.isDigit c ∧ Json.Number.isDigit d then
      if c ≤ '5' then
        return (Json.Number.ofDigits [c, d], rest)
      else
        throw .outOfRange
    else
      throw .invalid

/- The text begins with the name of universal time. -/
def isUtc (cs : List Char) : Bool :=
  (cs.take 3).map Char.toUpper = ['U', 'T', 'C']

/- A signed offset in hours and minutes. -/
def signedOffset
    (sign : Int) : Step Int :=
  fun cs => do
    let (hours, rest) ← offsetHours cs
    let rest :=
      rest.dropWhile fun c => c = ':' || Text.isBlank c
    let (minutes, rest) ← offsetMinutes rest
    return (sign * (hours * 3600 + minutes * 60 : Nat), rest)

/- The seconds by which local time is ahead. -/
def offset : Step Int :=
  fun cs =>
    if isUtc cs then
      .ok (0, cs.drop 3)
    else
      match cs with
      | [] => .error .tooShort
      | c :: rest =>
          if c = 'Z' ∨ c = 'z' then .ok (0, rest)
          else if c = '+' then signedOffset 1 rest
          else if c = '-' ∨ c = '\u2212' then
            signedOffset (-1) rest
          else .error .invalid

/- All the parts of an instant. -/
def parts : Step Parts :=
  fun cs => do
    let (date, rest) ← date cs
    let (_, rest) ← separator rest
    let (hour, rest) ← bounded 0 23 rest
    let (_, rest) ← mark ':' rest
    let (minute, rest) ← bounded 0 59 rest
    let (_, rest) ← mark ':' rest
    let (second, rest) ← bounded 0 60 rest
    let (nanos, rest) ← fraction rest
    let (offset, rest) ← offset (Text.trimStart rest)
    return (⟨date, hour, minute, second, nanos, offset⟩, rest)

------------------------------------------------------------
-- Instants
------------------------------------------------------------

/- The instant that parts describe. -/
def ofParts (p : Parts) : Except Fault Instant := do
  unless p.date.IsValid do throw .outOfRange
  unless p.offset.natAbs < 86400 do throw .outOfRange
  let clock := p.hour * 3600 + p.minute * 60 + min p.second 59
  let seconds := p.date.toDays * 86400 + clock - p.offset
  let leap := if p.second = 60 then 1000000000 else 0
  if leastSeconds ≤ seconds ∧ seconds ≤ greatestSeconds then
    return ⟨seconds, p.nanos + leap⟩
  else
    throw .impossible

/- The instant that a text describes. -/
def parse (text : String) : Except Fault Instant := do
  let (p, rest) ← parts text.toList
  unless Text.trimStart rest = [] do throw .tooLong
  ofParts p

end Instant

end Federation
