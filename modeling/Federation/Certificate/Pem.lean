import Federation.Bytes.Base64
import Federation.Text.Blank

/-
  This file defines the textual form of certificates: base64
  between a line that begins a block and one that ends it.

  Key definitions include:
    * `Pem.splitAfter`
    * `Pem.Block`
    * `Pem.looksLike`
    * `Pem.readAll?`
    * `Pem.certificate?`
-/

namespace Federation

namespace Pem

------------------------------------------------------------
-- Searching
------------------------------------------------------------

/-
  The bytes before and after the first match of a marker. A
  byte that does not go on with a match ends it, and the
  next match starts behind it.
-/
def search
    (marker wanted seen : Bytes) :
    Bytes → Option (Bytes × Bytes)
| [] => none
| b :: rest =>
    match wanted with
    | [] => none
    | [w] =>
        if b = w then
          some
            (((b :: seen).drop marker.length).reverse, rest)
        else search marker marker (b :: seen) rest
    | w :: more =>
        if b = w then search marker more (b :: seen) rest
        else search marker marker (b :: seen) rest

/- The bytes before and after the first match of a marker. -/
def splitAfter
    (marker : String)
    (bytes : Bytes) : Option (Bytes × Bytes) :=
  search (Text.toBytes marker) (Text.toBytes marker) [] bytes

/- The bytes after a match are fewer. -/
theorem length_lt_of_search
    {marker wanted seen bytes before after : Bytes}
    (h : search marker wanted seen bytes =
      some (before, after)) :
    after.length < bytes.length := by
  induction bytes generalizing wanted seen with
  | nil => simp [search] at h
  | cons b rest ih =>
      unfold search at h
      split at h
      · simp at h
      · split at h
        · simp only [Option.some.injEq, Prod.mk.injEq] at h
          simp [h.2]
        · exact Nat.lt_succ_of_lt (ih h)
      · split at h
        · exact Nat.lt_succ_of_lt (ih h)
        · exact Nat.lt_succ_of_lt (ih h)

------------------------------------------------------------
-- Blocks
------------------------------------------------------------

/- A block as it stands in a text. -/
structure RawBlock where
  label : Bytes
  body : Bytes
  endLabel : Bytes
deriving DecidableEq, Repr

/- Bytes without leading spaces, tabs and ends of lines. -/
def dropBlank (bytes : Bytes) : Bytes :=
  bytes.dropWhile fun b =>
    b == 0x20 || b == 0x0A || b == 0x0D || b == 0x09

/- The first complete block of bytes, and what follows it. -/
def readBlock? (bytes : Bytes) : Option (RawBlock × Bytes) :=
  match splitAfter "-----BEGIN " bytes with
  | none => none
  | some (_, rest) =>
      match splitAfter "-----" rest with
      | none => none
      | some (label, rest) =>
          match splitAfter "-----END " (dropBlank rest) with
          | none => none
          | some (body, rest) =>
              match splitAfter "-----" rest with
              | none => none
              | some (endLabel, rest) =>
                  some (⟨label, body, endLabel⟩, rest)

/- Dropping leading blanks makes no bytes. -/
theorem length_dropBlank_le (bytes : Bytes) :
    (dropBlank bytes).length ≤ bytes.length :=
  (List.dropWhile_sublist _).length_le

/- The bytes after a block are fewer. -/
theorem length_lt_of_readBlock
    {bytes rest : Bytes}
    {block : RawBlock}
    (h : readBlock? bytes = some (block, rest)) :
    rest.length < bytes.length := by
  unfold readBlock? at h
  split at h
  · simp at h
  · rename_i h1
    split at h
    · simp at h
    · rename_i rest2 h2
      split at h
      · simp at h
      · rename_i h3
        split at h
        · simp at h
        · rename_i h4
          simp only [Option.some.injEq, Prod.mk.injEq] at h
          obtain ⟨-, rfl⟩ := h
          have l1 := length_lt_of_search h1
          have l2 := length_lt_of_search h2
          have l3 := length_lt_of_search h3
          have l4 := length_lt_of_search h4
          have l5 := length_dropBlank_le rest2
          omega

/- The complete blocks of bytes, after those already seen. -/
def readOnward
    (seen : List RawBlock)
    (bytes : Bytes) : List RawBlock :=
  match h : readBlock? bytes with
  | none => seen.reverse
  | some (block, rest) =>
      have := length_lt_of_readBlock h
      readOnward (block :: seen) rest
termination_by bytes.length

/- The complete blocks of bytes. -/
def readBlocks (bytes : Bytes) : List RawBlock :=
  readOnward [] bytes

------------------------------------------------------------
-- Contents
------------------------------------------------------------

/- What a block is labelled, and its content. -/
structure Block where
  label : String
  content : Bytes
deriving DecidableEq, Repr

/- The headers of a block up to an empty line, and the rest. -/
def splitHeaders (body : Bytes) : Bytes × Bytes :=
  match splitAfter "\n\n" body with
  | some parts => parts
  | none =>
      match splitAfter "\r\n\r\n" body with
      | some parts => parts
      | none => ([], body)

/-
  Every line of headers has a colon. What came before says
  whether the line has begun, and whether it has one.
-/
def areHeaders
    (hasBegun hasColon : Bool) : List Char → Bool
| [] => !hasBegun || hasColon
| c :: rest =>
    if c = '\n' then
      hasColon && areHeaders false false rest
    else
      areHeaders true (hasColon || c == ':') rest

/- The bytes of base64 text from which blanks are dropped. -/
def decode? (encoded : String) : Option Bytes :=
  let symbols :=
    encoded.toList.filter fun c => !Text.isBlank c
  (Base64.decode (Text.toBytes (String.ofList symbols))).toOption

/-
  The content of a block. Its labels are the same and not
  empty, and all of it is text.
-/
def decodeBlock? (raw : RawBlock) : Option Block :=
  let (headers, encoded) := splitHeaders raw.body
  if raw.label = [] ∨ raw.label ≠ raw.endLabel then none
  else do
    let label ← Text.ofBytes? raw.label
    let headers ← Text.ofBytes? headers
    let encoded ← Text.ofBytes? encoded
    let content ← decode? encoded
    if areHeaders false false headers.toList then
      some ⟨label, content⟩
    else none

/- The contents of all complete blocks, if each has one. -/
def readAll? (bytes : Bytes) : Option (List Block) :=
  (readBlocks bytes).mapM decodeBlock?

/- Bytes begin with a block, blanks of ASCII aside. -/
def looksLike (bytes : Bytes) : Bool :=
  (Text.toBytes "-----BEGIN").isPrefixOf
    (bytes.dropWhile Text.isAsciiBlank)

/- The label of a certificate's block. -/
def certificateLabel : String := "CERTIFICATE"

/- The content of the only block, which is a certificate's. -/
def certificate? (bytes : Bytes) : Option Bytes :=
  match readAll? bytes with
  | some [block] =>
      if block.label = certificateLabel then some block.content
      else none
  | _ => none

end Pem

end Federation
