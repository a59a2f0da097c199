import Federation.Certificate.Element
import Federation.Time.Instant

/-
  This file defines the period in which a certificate is
  valid, and the reading of its two ends.

  Key definitions include:
    * `Validity`
    * `Validity.ofElement?`
    * `Validity.holds`
-/

namespace Federation

------------------------------------------------------------
-- Civil Times
------------------------------------------------------------

/- A date and a time of day at an offset from universal time. -/
structure CivilTime where
  date : Date
  hour : Nat
  minute : Nat
  second : Nat
  offset : Int
deriving DecidableEq, Repr

namespace CivilTime

/- The instant of a civil time that there is. -/
def toInstant? (t : CivilTime) : Option Instant :=
  if t.date.IsValid ∧ t.hour ≤ 23 ∧ t.minute ≤ 59 ∧
      t.second ≤ 59 then
    some
      ⟨86400 * t.date.toDays + 3600 * t.hour + 60 * t.minute +
        t.second - t.offset, 0⟩
  else none

/- The value of a decimal digit. -/
def digit? (b : UInt8) : Option Nat :=
  if 0x30 ≤ b.toNat ∧ b.toNat ≤ 0x39 then
    some (b.toNat - 0x30)
  else none

/- The number of two decimal digits, and the bytes after. -/
def pair? : Bytes → Option (Nat × Bytes)
| a :: b :: rest =>
    match digit? a, digit? b with
    | some tens, some ones => some (10 * tens + ones, rest)
    | _, _ => none
| _ => none

/- Numbers of two decimal digits each, and the bytes after. -/
def pairs? : Nat → Bytes → Option (List Nat × Bytes)
| 0, bytes => some ([], bytes)
| n + 1, bytes => do
    let (value, rest) ← pair? bytes
    let (values, rest) ← pairs? n rest
    some (value :: values, rest)

/- Seconds, which are left out where one byte is left. -/
def seconds? (bytes : Bytes) : Option (Nat × Bytes) :=
  match bytes with
  | [] => none
  | [_] => some (0, bytes)
  | _ => pair? bytes

/-
  The offset that hours and minutes stand for. A sign before
  no hours does not count.
-/
def offset?
    (isNegative : Bool)
    (hours minutes : Nat) : Option Int :=
  let size : Int := 3600 * hours + 60 * minutes
  if hours ≤ 25 ∧ minutes ≤ 59 then
    some (if isNegative && hours != 0 then -size else size)
  else none

/- The offset of a zone: a letter Z, or a sign, hours and minutes. -/
def zone? : Bytes → Option Int
| [] => none
| sign :: rest =>
    if sign = 0x5A then
      if rest.isEmpty then some 0 else none
    else if sign = 0x2B ∨ sign = 0x2D then
      match pairs? 2 rest with
      | some ([hours, minutes], []) =>
          offset? (sign == 0x2D) hours minutes
      | _ => none
    else none

/- A year of two digits, in the century around 2000. -/
def nearYear (year : Nat) : Int :=
  if year < 50 then 2000 + year else 1900 + year

/- The short form: a year of two digits, and a zone. -/
def ofShort? (bytes : Bytes) : Option CivilTime := do
  let (values, rest) ← pairs? 5 bytes
  let (second, rest) ← seconds? rest
  let offset ← zone? rest
  match values with
  | [year, month, day, hour, minute] =>
      some
        ⟨⟨nearYear year, month, day⟩, hour, minute, second,
          offset⟩
  | _ => none

/- Bytes without a fraction of at most three digits. -/
def dropFraction? : Bytes → Option Bytes
| [] => none
| point :: rest =>
    if point = 0x2E then
      let digits := rest.takeWhile fun b => (digit? b).isSome
      if digits.length ≤ 3 then some (rest.drop digits.length)
      else none
    else some (point :: rest)

/- The long form: a year of four digits, and a letter Z. -/
def ofLong? (bytes : Bytes) : Option CivilTime := do
  let (values, rest) ← pairs? 6 bytes
  let (second, rest) ← seconds? rest
  let rest ← dropFraction? rest
  match values, rest with
  | [century, year, month, day, hour, minute], [0x5A] =>
      some
        ⟨⟨100 * century + year, month, day⟩, hour, minute,
          second, 0⟩
  | _, _ => none

end CivilTime

------------------------------------------------------------
-- Validity
------------------------------------------------------------

/- The instants between which a certificate is valid. -/
structure Validity where
  notBefore : Instant
  notAfter : Instant
deriving DecidableEq, Repr

namespace Validity

/- The instant that an element of either form stands for. -/
def readTime? (e : Element) : Option Instant :=
  if e.HasNumber Tag.utcTime then
    (CivilTime.ofShort? e.content).bind CivilTime.toInstant?
  else if e.HasNumber Tag.generalizedTime then
    (CivilTime.ofLong? e.content).bind CivilTime.toInstant?
  else none

/- The two instants that a sequence starts with. -/
def ofElement? (e : Element) : Option Validity :=
  if e.HasNumber Tag.sequence then do
    let (first, rest) ← Element.read? e.content
    let (second, _) ← Element.read? rest
    let notBefore ← readTime? first
    let notAfter ← readTime? second
    some ⟨notBefore, notAfter⟩
  else none

/- An instant lies in the period, both of whose ends belong to it. -/
def holds
    (v : Validity)
    (t : Instant) : Bool :=
  v.notBefore.isAtMost t && t.isAtMost v.notAfter

end Validity

end Federation
