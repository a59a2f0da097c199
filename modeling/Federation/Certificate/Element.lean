import Federation.Text.Unicode

/-
  This file defines the elements that certificates are made
  of: a tag, a length, and as many bytes of content.

  Key definitions include:
    * `Tag`
    * `Element`
    * `Element.read?`
    * `Element.readMany`
    * `Element.natural?`
    * `Element.bits?`
-/

namespace Federation

------------------------------------------------------------
-- Tags
------------------------------------------------------------

/- The families of tags. -/
inductive TagClass where
| universal
| application
| contextual
| custom
deriving DecidableEq, Repr

/- What an element is. -/
structure Tag where
  family : TagClass
  isConstructed : Bool
  number : Nat
deriving DecidableEq, Repr

namespace Tag

/- The numbers of the forms that certificates use. -/
def boolean : Nat := 1
def integer : Nat := 2
def bitString : Nat := 3
def octetString : Nat := 4
def sequence : Nat := 16
def set : Nat := 17
def utcTime : Nat := 23
def generalizedTime : Nat := 24

/- The family that the two highest bits of a byte name. -/
def familyOf (b : Nat) : TagClass :=
  match b / 64 with
  | 0 => .universal
  | 1 => .application
  | 2 => .contextual
  | _ => .custom

/-
  The number that groups of seven bits stand for, the last
  group in a byte below 128. There are no more groups than
  allowed, and only the lowest 32 bits count.
-/
def readGroups
    (allowed value : Nat) :
    Bytes → Option (Nat × Bytes)
| [] => none
| b :: rest =>
    match allowed with
    | 0 => none
    | allowed + 1 =>
        let next := (value * 128 + b.toNat % 128) % 0x100000000
        if b.toNat < 128 then some (next, rest)
        else readGroups allowed next rest

/- The tag at the start of bytes, and the bytes after it. -/
def read? : Bytes → Option (Tag × Bytes)
| [] => none
| b :: rest =>
    let family := familyOf b.toNat
    let isConstructed := b.toNat / 32 % 2 == 1
    if b.toNat % 32 = 31 then
      (readGroups 5 0 rest).map fun (number, rest) =>
        (⟨family, isConstructed, number⟩, rest)
    else
      some (⟨family, isConstructed, b.toNat % 32⟩, rest)

end Tag

------------------------------------------------------------
-- Lengths
------------------------------------------------------------

namespace Bytes

/- The number that bytes stand for, the highest first. -/
def toNat (bytes : Bytes) : Nat :=
  bytes.foldl (fun value b => value * 256 + b.toNat) 0

/- The first bytes and those after, if there are enough. -/
def split?
    (n : Nat)
    (bytes : Bytes) : Option (Bytes × Bytes) :=
  let parts := bytes.splitAt n
  if parts.1.length = n then some parts else none

end Bytes

namespace Element

/-
  The length at the start of bytes, and the bytes after it.
  A length from 128 on follows the number of its bytes.
-/
def readLength? : Bytes → Option (Nat × Bytes)
| [] => none
| b :: rest =>
    if b.toNat < 128 then some (b.toNat, rest)
    else if b.toNat = 128 ∨ b.toNat = 255 then none
    else
      match Bytes.split? (b.toNat - 128) rest with
      | none => none
      | some (digits, rest) =>
          let length := Bytes.toNat digits
          if length < 0x10000000000000000 then some (length, rest) else none

/- The tag and length at the start of bytes, and what follows. -/
def readHeader?
    (bytes : Bytes) : Option (Tag × Nat × Bytes) :=
  match Tag.read? bytes with
  | none => none
  | some (tag, rest) =>
      (readLength? rest).map fun (length, rest) =>
        (tag, length, rest)

end Element

------------------------------------------------------------
-- Elements
------------------------------------------------------------

/- A tag with its content. -/
structure Element where
  tag : Tag
  content : Bytes
deriving DecidableEq, Repr

namespace Element

/- The element at the start of bytes, and the bytes after it. -/
def read? (bytes : Bytes) : Option (Element × Bytes) :=
  match readHeader? bytes with
  | none => none
  | some (tag, length, rest) =>
      (Bytes.split? length rest).map fun (content, rest) =>
        (⟨tag, content⟩, rest)

/- The bytes after groups of seven bits are fewer. -/
theorem length_lt_of_readGroups
    {allowed value number : Nat}
    {bytes rest : Bytes}
    (h : Tag.readGroups allowed value bytes =
      some (number, rest)) :
    rest.length < bytes.length := by
  induction bytes generalizing allowed value with
  | nil => simp [Tag.readGroups] at h
  | cons b tail ih =>
      cases allowed with
      | zero => simp [Tag.readGroups] at h
      | succ allowed =>
          unfold Tag.readGroups at h
          simp only at h
          split at h
          · simp only [Option.some.injEq, Prod.mk.injEq] at h
            simp [h.2]
          · exact Nat.lt_succ_of_lt (ih h)

/- The bytes after a tag are fewer. -/
theorem length_lt_of_readTag
    {bytes rest : Bytes}
    {tag : Tag}
    (h : Tag.read? bytes = some (tag, rest)) :
    rest.length < bytes.length := by
  cases bytes with
  | nil => simp [Tag.read?] at h
  | cons b tail =>
      unfold Tag.read? at h
      simp only at h
      split at h
      · simp only [Option.map_eq_some_iff, Prod.mk.injEq] at h
        obtain ⟨⟨number, after⟩, hGroups, -, rfl⟩ := h
        exact Nat.lt_succ_of_lt
          (length_lt_of_readGroups hGroups)
      · simp only [Option.some.injEq, Prod.mk.injEq] at h
        simp [h.2]

/- The bytes after a part are no more. -/
theorem length_le_of_split
    {n : Nat}
    {bytes first rest : Bytes}
    (h : Bytes.split? n bytes = some (first, rest)) :
    rest.length ≤ bytes.length := by
  unfold Bytes.split? at h
  simp only [List.splitAt_eq] at h
  split at h
  · simp only [Option.some.injEq, Prod.mk.injEq] at h
    simp [← h.2]
  · simp at h

/- The bytes after a length are no more. -/
theorem length_le_of_readLength
    {bytes rest : Bytes}
    {length : Nat}
    (h : readLength? bytes = some (length, rest)) :
    rest.length ≤ bytes.length := by
  unfold readLength? at h
  split at h
  · simp at h
  · split at h
    · simp only [Option.some.injEq, Prod.mk.injEq] at h
      obtain ⟨-, rfl⟩ := h
      simp
    · split at h
      · simp at h
      · split at h
        · simp at h
        · rename_i hSplit
          simp only at h
          split at h
          · simp only [Option.some.injEq, Prod.mk.injEq] at h
            obtain ⟨-, rfl⟩ := h
            exact Nat.le_succ_of_le
              (length_le_of_split hSplit)
          · simp at h

/- The bytes after an element are fewer. -/
theorem length_lt_of_read
    {bytes rest : Bytes}
    {e : Element}
    (h : read? bytes = some (e, rest)) :
    rest.length < bytes.length := by
  unfold read? readHeader? at h
  cases hTag : Tag.read? bytes with
  | none => simp [hTag] at h
  | some tagged =>
      obtain ⟨tag, afterTag⟩ := tagged
      simp only [hTag] at h
      cases hLength : readLength? afterTag with
      | none => simp [hLength] at h
      | some sized =>
          obtain ⟨length, afterLength⟩ := sized
          simp only [hLength, Option.map_some,
            Option.map_eq_some_iff, Prod.mk.injEq] at h
          obtain ⟨⟨content, after⟩, hSplit, -, hRest⟩ := h
          have hAfter : after = rest := hRest
          have h1 := length_lt_of_readTag hTag
          have h2 := length_le_of_readLength hLength
          have h3 := length_le_of_split hSplit
          rw [hAfter] at h3
          omega

/- Elements from the start of bytes on, after those seen. -/
def readOnward
    (seen : List Element)
    (bytes : Bytes) : List Element × Bytes :=
  match h : read? bytes with
  | none => (seen.reverse, bytes)
  | some (e, rest) =>
      have := length_lt_of_read h
      readOnward (e :: seen) rest
termination_by bytes.length

/- As many elements as bytes start with, and what follows. -/
def readMany (bytes : Bytes) : List Element × Bytes :=
  readOnward [] bytes

/- The elements that bytes consist of. -/
def readAll? (bytes : Bytes) : Option (List Element) :=
  match readMany bytes with
  | (elements, []) => some elements
  | _ => none

------------------------------------------------------------
-- Contents
------------------------------------------------------------

/- The element has a number, whatever its family. -/
def HasNumber
    (e : Element)
    (number : Nat) : Bool :=
  e.tag.number == number

/- A sign bit is set in the first of bytes. -/
def isNegative : Bytes → Bool
| [] => false
| b :: _ => 128 ≤ b.toNat

/- The value of an integer's content if it has 32 bits and no sign. -/
def word? (content : Bytes) : Option Nat :=
  let value := Bytes.toNat content
  if isNegative content then none
  else if value < 0x100000000 then some value
  else none

/- The content of an integer has no byte that it could do without. -/
def isShortest : Bytes → Bool
| [] => false
| [_] => true
| a :: b :: _ =>
    !(a == 0 && b.toNat < 128) &&
      !(a == 0xFF && 128 ≤ b.toNat)

/- The natural number of 32 bits that an element stands for. -/
def natural? (e : Element) : Option Nat :=
  if e.HasNumber Tag.integer && !e.tag.isConstructed &&
      isShortest e.content then
    word? e.content
  else none

/- The lowest bits of a byte are zero. -/
def lowBitsClear
    (n : Nat)
    (b : UInt8) : Bool :=
  b.toNat % Nat.pow 2 n == 0 && n ≤ 8

/-
  The bytes of a string of bits whose content begins with
  the number of bits that the last byte does without. Those
  bits are zero.
-/
def bits? : Bytes → Option Bytes
| [] => none
| [unused] => if unused == 0 then some [] else none
| unused :: bytes =>
    match bytes.getLast? with
    | none => none
    | some last =>
        if lowBitsClear unused.toNat last then some bytes
        else none

end Element

end Federation
