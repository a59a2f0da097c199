import Federation.Bytes.Hex
import Federation.Certificate.ObjectName
import Federation.Text.Unicode

/-
  This file defines the names of a certificate's subject and
  issuer: a list of parts, each of at least one attribute.

  Key definitions include:
    * `Attribute`
    * `Attribute.value?`
    * `Name`
    * `Name.ofElement?`
    * `Name.display`
-/

namespace Federation

------------------------------------------------------------
-- Attributes
------------------------------------------------------------

/- What an attribute is, and its value. -/
structure Attribute where
  kind : ObjectId
  value : Element
deriving DecidableEq, Repr

/- An identifier from an element that is not constructed. -/
def ObjectId.ofElement? (e : Element) : Option ObjectId :=
  if e.tag.isConstructed then none else some ⟨e.content⟩

namespace Attribute

/- The attribute that a sequence of two elements stands for. -/
def ofElement? (e : Element) : Option Attribute :=
  if e.HasNumber Tag.sequence then
    match Element.read? e.content with
    | none => none
    | some (kind, rest) =>
        match ObjectId.ofElement? kind, Element.read? rest with
        | some kind, some (value, _) => some ⟨kind, value⟩
        | _, _ => none
  else none

/- The numbers of texts in bytes of UTF-8. -/
def textNumbers : List Nat :=
  [7, 12, 18, 19, 20, 21, 22, 25, 26, 27]

/- The number of texts in units of 16 bits. -/
def unitsNumber : Nat := 30

/- The units of bytes, the last of one byte if it is left. -/
def units : Bytes → List Nat
| [] => []
| [b] => [b.toNat]
| a :: b :: rest => (a.toNat * 256 + b.toNat) :: units rest

/- The text of a value, unless it is a text of no character. -/
def value? (a : Attribute) : Option String :=
  if textNumbers.contains a.value.tag.number then
    Text.ofBytes? a.value.content
  else if a.value.HasNumber unitsNumber then
    Text.ofUnits? (units a.value.content)
  else
    some (Hex.encodeUpper a.value.content)

/- An attribute with its name. -/
def display? (a : Attribute) : Option String :=
  a.value?.map fun value =>
    a.kind.attributeName ++ "=" ++ value

end Attribute

------------------------------------------------------------
-- Names
------------------------------------------------------------

/- The values of the leading items for which there is one. -/
def takeWhileSome
    {α β : Type}
    (f : α → Option β) :
    List α → List β
| [] => []
| x :: rest =>
    match f x with
    | none => []
    | some y => y :: takeWhileSome f rest

/- The attributes of one part of a name. -/
abbrev NamePart := List Attribute

/- The attributes that a set starts with, at least one. -/
def NamePart.ofElement? (e : Element) : Option NamePart :=
  if e.HasNumber Tag.set then
    match takeWhileSome Attribute.ofElement?
        (Element.readMany e.content).1 with
    | [] => none
    | attributes => some attributes
  else none

/- A name, from its most general part to its most special. -/
structure Name where
  parts : List NamePart
deriving DecidableEq, Repr

namespace Name

/- The name of the parts that a sequence starts with. -/
def ofElement? (e : Element) : Option Name :=
  if e.HasNumber Tag.sequence then
    some
      ⟨takeWhileSome NamePart.ofElement?
        (Element.readMany e.content).1⟩
  else none

/- A part of a name, if all of its values have a text. -/
def displayPart? (part : NamePart) : Option String :=
  (part.mapM Attribute.display?).map
    fun texts => " + ".intercalate texts

/- The text of a name, if all of its values have one. -/
def display? (n : Name) : Option String :=
  (n.parts.mapM displayPart?).map
    fun texts => ", ".intercalate texts

/- The text of a name. -/
def display (n : Name) : String :=
  n.display?.getD "<X509Error: Invalid X.509 name>"

end Name

end Federation
