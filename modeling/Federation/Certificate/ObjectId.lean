import Federation.Bytes.Hex
import Federation.Certificate.Element

/-
  This file defines object identifiers, which name what the
  parts of a certificate are.

  Key definitions include:
    * `ObjectId`
    * `ObjectId.ofArcs`
    * `ObjectId.arcs`
    * `ObjectId.display`
-/

namespace Federation

/- An identifier, as the bytes that stand for its numbers. -/
structure ObjectId where
  content : Bytes
deriving DecidableEq, Repr

namespace ObjectId

------------------------------------------------------------
-- Numbers
------------------------------------------------------------

/- The groups of seven bits of a number above its lowest. -/
def highGroups (n : Nat) : Bytes :=
  if n < 128 then []
  else
    highGroups (n / 128) ++
      [UInt8.ofNat (128 + n / 128 % 128)]
termination_by n

/- A number in groups of seven bits, only the last below 128. -/
def groups (n : Nat) : Bytes :=
  highGroups n ++ [UInt8.ofNat (n % 128)]

/- The identifier of at least two numbers. -/
def ofArcs
    (first second : Nat)
    (rest : List Nat) : ObjectId :=
  ⟨groups (40 * first + second) ++ rest.flatMap groups⟩

/- The numbers of bytes, the last one even if it is cut off. -/
def readArcs
    (value : Nat) :
    Bytes → List Nat
| [] => []
| [b] => [value * 128 + b.toNat % 128]
| b :: rest =>
    let next := value * 128 + b.toNat % 128
    if b.toNat < 128 then next :: readArcs 0 rest
    else readArcs next rest

/-
  The numbers of an identifier. The first byte stands for
  two of them, but for one where it is zero and alone.
-/
def arcs (id : ObjectId) : List Nat :=
  match id.content with
  | [] => []
  | b :: rest =>
      if b = 0 ∧ rest = [] then [0]
      else
        b.toNat / 40 :: b.toNat % 40 :: readArcs 0 rest

/- The greatest count of groups in a number of 64 bits. -/
def mostGroups : Nat := 9

/- A number that ends has too many groups, some of them seen. -/
def hasLongArc
    (groups : Nat) :
    Bytes → Bool
| [] => false
| b :: rest =>
    if b.toNat < 128 then
      mostGroups < groups + 1 || hasLongArc 0 rest
    else hasLongArc (groups + 1) rest

/-
  The numbers of an identifier with points between them, or
  its bytes if one of the numbers is too long. Of a number
  that is cut off only 64 bits count.
-/
def display (id : ObjectId) : String :=
  if hasLongArc 0 (id.content.drop 1) then
    " ".intercalate (id.content.map fun b => Hex.encode [b])
  else
    ".".intercalate
      (id.arcs.map fun arc => toString (arc % 0x10000000000000000))

------------------------------------------------------------
-- Identifiers with a Meaning
------------------------------------------------------------

/- The extension that says what a key may be used for. -/
def keyUsage : ObjectId := ofArcs 2 5 [29, 15]

/- The extension that says whether a subject may issue. -/
def basicConstraints : ObjectId := ofArcs 2 5 [29, 19]

end ObjectId

end Federation
