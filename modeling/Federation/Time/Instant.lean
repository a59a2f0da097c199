import Federation.Decimal.Shortest
import Federation.Time.Calendar

/-
  This file defines instants of universal time, leap seconds
  included, and their texts.

  Key definitions include:
    * `Instant`
    * `Instant.IsRepresentable`
    * `Instant.truncate`
    * `Instant.display`
    * `Instant.displayPlain`
-/

namespace Federation

/-
  The seconds since the start of 1970 without leap seconds,
  and the nanoseconds since. From 10^9 nanoseconds on the
  instant lies in the leap second that follows.
-/
structure Instant where
  seconds : Int
  nanos : Nat
deriving DecidableEq, Repr

namespace Instant

------------------------------------------------------------
-- Ranges
------------------------------------------------------------

/- The seconds at which the least year begins. -/
def leastSeconds : Int :=
  86400 * (Date.mk Date.leastYear 1 1).toDays

/- The last second of the greatest year. -/
def greatestSeconds : Int :=
  86400 * (Date.mk Date.greatestYear 12 31).toDays + 86399

/-
  An instant within the years of the calendar, whose leap
  second, if it is in one, ends a minute.
-/
def IsRepresentable (t : Instant) : Prop :=
  leastSeconds ≤ t.seconds ∧ t.seconds ≤ greatestSeconds ∧
    t.nanos < 2000000000 ∧
    (1000000000 ≤ t.nanos → t.seconds % 60 = 59)

instance (t : Instant) : Decidable t.IsRepresentable := by
  unfold IsRepresentable
  infer_instance

/- The instant at which its second begins. -/
def truncate (t : Instant) : Instant :=
  ⟨t.seconds, t.nanos / 1000000000 * 1000000000⟩

/- The instant is not later than another one. -/
def isAtMost (t u : Instant) : Bool :=
  t.seconds < u.seconds ||
    t.seconds == u.seconds && t.nanos ≤ u.nanos

------------------------------------------------------------
-- Text
------------------------------------------------------------

/- A number in decimal with leading zeros up to a width. -/
def padded
    (width n : Nat) : String :=
  let digits := Nat.toDigits 10 n
  String.ofList
    (List.replicate (width - digits.length) '0' ++ digits)

/-
  A year in four digits, with a sign when it is negative or
  has more.
-/
def yearText (year : Int) : String :=
  if 0 ≤ year ∧ year ≤ 9999 then padded 4 year.toNat
  else (if year < 0 then "-" else "+") ++ padded 4 year.natAbs

/- The date of an instant. -/
def dateText (t : Instant) : String :=
  let d := Date.ofDays (t.seconds / 86400)
  yearText d.year ++ "-" ++ padded 2 d.month ++ "-" ++
    padded 2 d.day

/- The fraction of a second in the least of 0, 3, 6, 9 digits. -/
def fractionText (nanos : Nat) : String :=
  if nanos = 0 then ""
  else if nanos % 1000000 = 0 then
    "." ++ padded 3 (nanos / 1000000)
  else if nanos % 1000 = 0 then
    "." ++ padded 6 (nanos / 1000)
  else
    "." ++ padded 9 nanos

/- The time of day of an instant. -/
def timeText (t : Instant) : String :=
  let rest := (t.seconds % 86400).toNat
  let second := rest % 60 + t.nanos / 1000000000
  padded 2 (rest / 3600) ++ ":" ++
    padded 2 (rest / 60 % 60) ++ ":" ++ padded 2 second ++
      fractionText (t.nanos % 1000000000)

/- The text of an instant in documents. -/
def display (t : Instant) : String :=
  t.dateText ++ "T" ++ t.timeText ++ "Z"

/- The text of an instant in messages. -/
def displayPlain (t : Instant) : String :=
  t.dateText ++ " " ++ t.timeText ++ " UTC"

end Instant

end Federation
