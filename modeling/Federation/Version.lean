import Federation.Json.Token
import Federation.Refusal
import Federation.Text.Blank

/-
  This file defines configuration versions: positive numbers
  of 32 bits.

  Key definitions include:
    * `Version`
    * `Version.ofNat`
    * `Version.parse`
    * `Version.parseList`
    * `Version.display`
-/

namespace Federation

/- A configuration version, positive and of 32 bits. -/
structure Version where
  number : Nat
  positive : 0 < number
  bounded : number < 0x100000000
deriving DecidableEq

namespace Version

------------------------------------------------------------
-- Construction
------------------------------------------------------------

/- The first version. -/
def v1 : Version :=
  ⟨1, by decide, by decide⟩

/- The second version. -/
def v2 : Version :=
  ⟨2, by decide, by decide⟩

/- The version with a number, if it is one. -/
def ofNat? (number : Nat) : Option Version :=
  if h : 0 < number ∧ number < 0x100000000 then
    some ⟨number, h.1, h.2⟩
  else
    none

/- The version with a number; the number itself is refused. -/
def ofNat (number : Nat) : Except Refusal Version :=
  match ofNat? number with
  | some version => .ok version
  | none => .error (.version (toString number))

------------------------------------------------------------
-- Order
------------------------------------------------------------

instance : LT Version := ⟨fun v w => v.number < w.number⟩

instance : LE Version := ⟨fun v w => v.number ≤ w.number⟩

instance (v w : Version) : Decidable (v < w) :=
  inferInstanceAs (Decidable (v.number < w.number))

instance (v w : Version) : Decidable (v ≤ w) :=
  inferInstanceAs (Decidable (v.number ≤ w.number))

/- Versions are equal when their numbers are. -/
theorem ext_number
    {v w : Version}
    (h : v.number = w.number) :
    v = w := by
  cases v
  cases w
  cases h
  rfl

/- Versions in ascending order. -/
def sort (versions : List Version) : List Version :=
  versions.mergeSort fun v w => v.number ≤ w.number

------------------------------------------------------------
-- Text
------------------------------------------------------------

/- The text of a version, a letter before its number. -/
def display (v : Version) : String :=
  "v" ++ toString v.number

instance : ToString Version := ⟨display⟩

/- The letter that may stand before a version's number. -/
def isMark (c : Char) : Bool :=
  c = 'v' || c = 'V'

/- The number of a run of digits that a plus sign may lead. -/
def unsigned? (cs : List Char) : Option Nat :=
  match cs with
  | '+' :: digits => Json.Number.unsigned? digits
  | digits => Json.Number.unsigned? digits

/-
  The version that a text names. Blanks around it and any
  number of leading marks are passed over. A refusal quotes
  the whole text, except that it quotes the number zero.
-/
def parse (text : String) : Except Refusal Version :=
  let digits :=
    (Text.trim text.toList).dropWhile isMark
  match unsigned? digits with
  | some number =>
      if number < 0x100000000 then ofNat number
      else .error (.version text)
  | none => .error (.version text)

/- The versions of a list with commas, empty parts dropped. -/
def parseList
    (text : String) : Except Refusal (List Version) :=
  let parts :=
    (Text.splitAt ',' text.toList).map Text.trim
  (parts.filter (· ≠ [])).mapM fun part =>
    parse (String.ofList part)

end Version

end Federation
