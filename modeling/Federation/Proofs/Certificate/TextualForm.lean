import Federation.Proofs.Certificate.Gate
import Federation.Proofs.Certificate.Material
import Federation.Proofs.Generation.Documents
import Mathlib.Data.List.Chain

/-
  The textual form of certificates: however bytes are written
  as base64 in lines between the two lines of a block, they
  are read back, so that both forms of a certificate are the
  same certificate.

  Main declarations:
    * `Pem.Rendering`
    * `Pem.Rendering.wrapped`
    * `Pem.certificate?_text`
    * `Certificate.forms_agree`
-/

namespace Federation

namespace Pem

------------------------------------------------------------
-- Searching
------------------------------------------------------------

section Searching

/- The last wanted byte ends the search where it is found. -/
theorem search_last
    (marker seen rest : Bytes)
    (w b : UInt8) :
    search marker [w] seen (b :: rest) =
      if b = w then
        some (((b :: seen).drop marker.length).reverse, rest)
      else search marker marker (b :: seen) rest :=
  rfl

theorem search_cons
    (marker more seen rest : Bytes)
    (w v b : UInt8) :
    search marker (w :: v :: more) seen (b :: rest) =
      if b = w then
        search marker (v :: more) (b :: seen) rest
      else search marker marker (b :: seen) rest :=
  rfl

variable {m : UInt8} {ms : Bytes}

/- A byte that cannot begin the marker is passed over. -/
theorem search_cons_of_ne
    {b : UInt8}
    (hOther : b ≠ m)
    (seen rest : Bytes) :
    search (m :: ms) (m :: ms) seen (b :: rest) =
      search (m :: ms) (m :: ms) (b :: seen) rest := by
  cases ms with
  | nil => rw [search_last, if_neg hOther]
  | cons w more => rw [search_cons, if_neg hOther]

theorem search_append_of_not_mem
    {before : Bytes}
    (hNone : m ∉ before)
    (seen rest : Bytes) :
    search (m :: ms) (m :: ms) seen (before ++ rest) =
      search (m :: ms) (m :: ms) (before.reverse ++ seen)
        rest := by
  induction before generalizing seen with
  | nil => rfl
  | cons b tail ih =>
      rw [List.mem_cons, not_or] at hNone
      rw [List.cons_append,
        search_cons_of_ne (Ne.symm hNone.1), ih hNone.2]
      simp

/- What is wanted of a marker is found where it stands. -/
theorem search_wanted
    (marker : Bytes)
    {wanted : Bytes}
    (hWanted : wanted ≠ [])
    (seen after : Bytes) :
    search marker wanted seen (wanted ++ after) =
      some (((wanted.reverse ++ seen).drop
        marker.length).reverse, after) := by
  induction wanted generalizing seen with
  | nil => exact absurd rfl hWanted
  | cons w more ih =>
      cases more with
      | nil =>
          rw [List.cons_append, search_last, if_pos rfl]
          rfl
      | cons v rest =>
          have hLater := ih (List.cons_ne_nil v rest) (w :: seen)
          rw [List.cons_append, List.cons_append, search_cons,
            if_pos rfl, ← List.cons_append, hLater]
          simp

/- The first marker stands behind bytes that cannot begin it. -/
theorem splitAfter_append
    {marker : String}
    (hMarker : Text.toBytes marker = m :: ms)
    {before : Bytes}
    (hNone : m ∉ before)
    (after : Bytes) :
    splitAfter marker
        (before ++ (Text.toBytes marker ++ after)) =
      some (before, after) := by
  have hLength : (m :: ms).length = (m :: ms).reverse.length :=
    List.length_reverse.symm
  rw [splitAfter, hMarker, search_append_of_not_mem hNone,
    search_wanted _ (List.cons_ne_nil m ms), hLength,
    List.drop_left, List.append_nil, List.reverse_reverse]

theorem splitAfter_eq_none
    {marker : String}
    (hMarker : Text.toBytes marker = m :: ms)
    {bytes : Bytes}
    (hNone : m ∉ bytes) :
    splitAfter marker bytes = none := by
  have hAll :
      search (m :: ms) (m :: ms) [] (bytes ++ []) =
        search (m :: ms) (m :: ms) (bytes.reverse ++ []) [] :=
    search_append_of_not_mem hNone [] []
  rw [List.append_nil] at hAll
  rw [splitAfter, hMarker, hAll]
  rfl

end Searching

/-
  A match parts the bytes. What of the marker has matched so
  far is the end of what is seen.
-/
theorem eq_append_of_search
    {marker wanted matched earlier bytes before after : Bytes}
    (hMarker : marker = matched ++ wanted)
    (hFound : search marker wanted
      (matched.reverse ++ earlier) bytes =
        some (before, after)) :
    earlier.reverse ++ (matched ++ bytes) =
      before ++ (marker ++ after) := by
  induction bytes generalizing wanted matched earlier with
  | nil => simp [search] at hFound
  | cons b rest ih =>
      have hAgain :
          search marker marker
              (b :: (matched.reverse ++ earlier)) rest =
            some (before, after) →
          earlier.reverse ++ (matched ++ b :: rest) =
            before ++ (marker ++ after) := by
        intro hLater
        have hParts :
            (b :: (matched.reverse ++ earlier)).reverse ++
                ([] ++ rest) =
              before ++ (marker ++ after) :=
          ih rfl hLater
        rw [← hParts]
        simp
      have hSeen : b :: (matched.reverse ++ earlier) =
          (matched ++ [b]).reverse ++ earlier := by
        simp
      cases wanted with
      | nil => simp [search] at hFound
      | cons w more =>
          by_cases hSame : b = w
          · cases more with
            | nil =>
                have hLength : marker.length =
                    (matched ++ [b]).reverse.length := by
                  simp [hMarker]
                rw [search_last, if_pos hSame, hSeen, hLength,
                  List.drop_left] at hFound
                cases hFound
                simp [hMarker, hSame]
            | cons v further =>
                rw [search_cons, if_pos hSame] at hFound
                have hNow : marker =
                    (matched ++ [b]) ++ v :: further := by
                  rw [hMarker, hSame]
                  simp
                rw [hSeen] at hFound
                rw [← ih hNow hFound]
                simp
          · cases more with
            | nil =>
                rw [search_last, if_neg hSame] at hFound
                exact hAgain hFound
            | cons v further =>
                rw [search_cons, if_neg hSame] at hFound
                exact hAgain hFound

theorem eq_append_of_splitAfter
    {marker : String}
    {bytes before after : Bytes}
    (hFound : splitAfter marker bytes =
      some (before, after)) :
    bytes = before ++ (Text.toBytes marker ++ after) := by
  have hParts : ([] : Bytes).reverse ++ ([] ++ bytes) =
      before ++ (Text.toBytes marker ++ after) :=
    eq_append_of_search rfl hFound
  exact hParts

theorem splitAfter_eq_none_of_not_isInfix
    {marker : String}
    {bytes : Bytes}
    (hNone : ¬ Text.toBytes marker <:+: bytes) :
    splitAfter marker bytes = none := by
  cases hFound : splitAfter marker bytes with
  | none => rfl
  | some parts =>
      have hPart : Text.toBytes marker <:+: bytes := by
        rw [eq_append_of_splitAfter hFound]
        exact ⟨parts.1, parts.2, List.append_assoc ..⟩
      exact absurd hPart hNone

------------------------------------------------------------
-- Renderings
------------------------------------------------------------

/- The two ways in which lines end. -/
inductive LineEnd where
| newline
| returnNewline
deriving DecidableEq, Repr

/- The bytes at the end of a line. -/
def LineEnd.bytes : LineEnd → Bytes
| .newline => [0x0A]
| .returnNewline => [0x0D, 0x0A]

/- Symbols of base64 in a line. -/
structure Line where
  symbols : Bytes
  lineEnd : LineEnd
deriving DecidableEq, Repr

/- The bytes of a line. -/
def Line.bytes (l : Line) : Bytes :=
  l.symbols ++ l.lineEnd.bytes

/-
  A way to write bytes as a text: blanks, the line that begins
  a block, their base64 in lines of at least one symbol each,
  and the line that ends the block. Nothing need follow that.
-/
structure Rendering (content : Bytes) where
  leading : Bytes
  first : LineEnd
  lines : List Line
  last : Option LineEnd
  leading_blank :
    ∀ b ∈ leading, Text.isAsciiBlank b = true
  lines_symbols :
    lines.flatMap Line.symbols = Base64.encode content
  lines_nonempty : ∀ l ∈ lines, l.symbols ≠ []

namespace Rendering

variable {content : Bytes}

/- The lines between the two that frame a block. -/
def body (r : Rendering content) : Bytes :=
  r.lines.flatMap Line.bytes

/- What follows the last hyphen. -/
def trailing (r : Rendering content) : Bytes :=
  (r.last.map LineEnd.bytes).getD []

/- The bytes of the text. -/
def text (r : Rendering content) : Bytes :=
  r.leading ++
    (Text.toBytes "-----BEGIN CERTIFICATE-----" ++
      (r.first.bytes ++
        (r.body ++
          (Text.toBytes "-----END CERTIFICATE-----" ++
            r.trailing))))

end Rendering

/-
  Bytes in lines of a width, of which the first has some bytes
  already. The last line may be shorter.
-/
def linesOn
    (width : Nat)
    (begun : Bytes) :
    Bytes → List Bytes
| [] => if begun.isEmpty then [] else [begun]
| b :: rest =>
    if begun.length + 1 = width then
      (begun ++ [b]) :: linesOn width [] rest
    else linesOn width (begun ++ [b]) rest

theorem flatten_linesOn (width : Nat) (begun bytes : Bytes) :
    (linesOn width begun bytes).flatten = begun ++ bytes := by
  induction bytes generalizing begun with
  | nil =>
      cases begun with
      | nil => rfl
      | cons b rest => simp [linesOn]
  | cons b rest ih =>
      rw [linesOn]
      split
      · rw [List.flatten_cons, ih]
        simp
      · rw [ih]
        simp

theorem ne_nil_of_mem_linesOn
    {width : Nat}
    {begun bytes line : Bytes}
    (hLine : line ∈ linesOn width begun bytes) :
    line ≠ [] := by
  induction bytes generalizing begun with
  | nil =>
      cases begun with
      | nil => cases hLine
      | cons b rest =>
          rw [List.mem_singleton.mp hLine]
          exact List.cons_ne_nil b rest
  | cons b rest ih =>
      rw [linesOn] at hLine
      split at hLine
      · rcases List.mem_cons.mp hLine with rfl | hLater
        · simp
        · exact ih hLater
      · exact ih hLine

/- All lines but the last are as long as the width. -/
theorem length_of_mem_linesOn
    {width : Nat}
    {begun bytes line : Bytes}
    (hRoom : begun.length < width)
    (hLine : line ∈ linesOn width begun bytes) :
    line.length ≤ width ∧
      (line ∈ (linesOn width begun bytes).dropLast →
        line.length = width) := by
  induction bytes generalizing begun with
  | nil =>
      cases begun with
      | nil => cases hLine
      | cons b rest =>
          rw [List.mem_singleton.mp hLine]
          exact ⟨hRoom.le, fun hEarlier => by cases hEarlier⟩
  | cons b rest ih =>
      by_cases hFull : begun.length + 1 = width
      · have hEmpty : ([] : Bytes).length < width := by
          simp only [List.length_nil]
          omega
        rw [linesOn, if_pos hFull] at hLine ⊢
        rcases List.mem_cons.mp hLine with rfl | hLater
        · simp [hFull]
        · refine ⟨(ih hEmpty hLater).1, fun hEarlier => ?_⟩
          rw [List.dropLast_cons_of_ne_nil
            (List.ne_nil_of_mem hLater)] at hEarlier
          rcases List.mem_cons.mp hEarlier with rfl | hMem
          · simp [hFull]
          · exact (ih hEmpty hLater).2 hMem
      · have hMore : (begun ++ [b]).length < width := by
          rw [List.length_append, List.length_singleton]
          omega
        rw [linesOn, if_neg hFull] at hLine ⊢
        exact ih hMore hLine

/-
  The text of bytes in lines of a width, all of which end in
  the same way.
-/
def Rendering.wrapped
    (width : Nat)
    (lineEnd : LineEnd)
    (content : Bytes) : Rendering content where
  leading := []
  first := lineEnd
  lines := (linesOn width [] (Base64.encode content)).map
    fun symbols => ⟨symbols, lineEnd⟩
  last := some lineEnd
  leading_blank := fun _ hMem => by cases hMem
  lines_symbols := by
    rw [List.flatMap_map]
    exact List.flatMap_id.trans (flatten_linesOn width [] _)
  lines_nonempty := by
    intro l hLine
    rcases List.mem_map.mp hLine with ⟨symbols, hMem, rfl⟩
    exact ne_nil_of_mem_linesOn hMem

/-
  All lines end in one way, and all but the last have as many
  symbols as the width, which the last does not exceed.
-/
structure Rendering.HasWidth
    {content : Bytes}
    (r : Rendering content)
    (width : Nat)
    (lineEnd : LineEnd) : Prop where
  lineEnd : ∀ l ∈ r.lines, l.lineEnd = lineEnd
  atMost : ∀ l ∈ r.lines, l.symbols.length ≤ width
  full : ∀ l ∈ r.lines.dropLast, l.symbols.length = width

theorem Rendering.hasWidth_wrapped
    {width : Nat}
    (hWidth : 0 < width)
    (lineEnd : LineEnd)
    (content : Bytes) :
    (wrapped width lineEnd content).HasWidth width
      lineEnd := by
  constructor
  · intro l hLine
    rcases List.mem_map.mp hLine with ⟨symbols, -, rfl⟩
    rfl
  · intro l hLine
    rcases List.mem_map.mp hLine with ⟨symbols, hMem, rfl⟩
    exact (length_of_mem_linesOn hWidth hMem).1
  · intro l hLine
    rw [wrapped, ← List.map_dropLast] at hLine
    rcases List.mem_map.mp hLine with ⟨symbols, hMem, rfl⟩
    exact (length_of_mem_linesOn hWidth
      (List.dropLast_subset _ hMem)).2 hMem

example :
    (Rendering.wrapped 3 .newline [1, 2, 3]).text =
      Text.toBytes
        ("-----BEGIN CERTIFICATE-----\nAQI\nD\n" ++
          "-----END CERTIFICATE-----\n") := by
  decide

------------------------------------------------------------
-- Reading a Rendering
------------------------------------------------------------

/- No symbol of base64 is a hyphen or stands for an end. -/
theorem symbol_ne_mark
    {content : Bytes}
    {b : UInt8}
    (hSymbol : b ∈ Base64.encode content) :
    b.toNat < 128 ∧ b ≠ 0x2D ∧ b ≠ 0x0A ∧ b ≠ 0x0D ∧
      Text.isBlank (Base64.charOf b) = false :=
  Base64.forall_mem_encode
    (P := fun b => b.toNat < 128 ∧ b ≠ 0x2D ∧ b ≠ 0x0A ∧
      b ≠ 0x0D ∧ Text.isBlank (Base64.charOf b) = false)
    (by decide) (by decide) content b hSymbol

/- What ends a line is blank. -/
theorem blank_of_mem_lineEnd
    {e : LineEnd}
    {b : UInt8}
    (hMem : b ∈ e.bytes) :
    (b = 0x0A ∨ b = 0x0D) ∧
      Text.isBlank (Base64.charOf b) = true := by
  have hEither : b = 0x0A ∨ b = 0x0D := by
    cases e with
    | newline => exact Or.inl (List.mem_singleton.mp hMem)
    | returnNewline =>
        simp only [LineEnd.bytes, List.mem_cons,
          List.not_mem_nil, or_false] at hMem
        exact hMem.symm
  refine ⟨hEither, ?_⟩
  rcases hEither with rfl | rfl <;> decide

namespace Rendering

variable {content : Bytes}

theorem mem_encode_of_mem_line
    (r : Rendering content)
    {l : Line}
    {b : UInt8}
    (hLine : l ∈ r.lines)
    (hMem : b ∈ l.symbols) :
    b ∈ Base64.encode content := by
  rw [← r.lines_symbols]
  exact List.mem_flatMap.mpr ⟨l, hLine, hMem⟩

/- A byte between the two framing lines. -/
theorem symbol_or_end_of_mem_body
    (r : Rendering content)
    {b : UInt8}
    (hMem : b ∈ r.body) :
    b ∈ Base64.encode content ∨ b = 0x0A ∨ b = 0x0D := by
  rcases List.mem_flatMap.mp hMem with ⟨l, hLine, hByte⟩
  rcases List.mem_append.mp hByte with hSymbol | hEnd
  · exact Or.inl (r.mem_encode_of_mem_line hLine hSymbol)
  · exact Or.inr (blank_of_mem_lineEnd hEnd).1

theorem hyphen_not_mem_leading (r : Rendering content) :
    0x2D ∉ r.leading := by
  intro hMem
  have hBlank := r.leading_blank _ hMem
  simp [Text.isAsciiBlank] at hBlank

theorem hyphen_not_mem_body (r : Rendering content) :
    0x2D ∉ r.body := by
  intro hMem
  rcases r.symbol_or_end_of_mem_body hMem with
    hSymbol | hEnd | hEnd
  · exact (symbol_ne_mark hSymbol).2.1 rfl
  · simp at hEnd
  · simp at hEnd

theorem hyphen_not_mem_trailing (r : Rendering content) :
    0x2D ∉ r.trailing := by
  unfold trailing
  cases r.last with
  | none => exact List.not_mem_nil
  | some e =>
      intro hMem
      have hEnd := (blank_of_mem_lineEnd hMem).1
      simp at hEnd

/- The line after the first begins with no blank. -/
theorem dropBlank_first
    (r : Rendering content)
    (rest : Bytes) :
    dropBlank (r.first.bytes ++ (r.body ++ 0x2D :: rest)) =
      r.body ++ 0x2D :: rest := by
  have hFirst : ∀ b ∈ r.first.bytes,
      (b == 0x20 || b == 0x0A || b == 0x0D || b == 0x09) =
        true := by
    intro b hMem
    rcases (blank_of_mem_lineEnd hMem).1 with rfl | rfl <;> rfl
  unfold dropBlank
  rw [List.dropWhile_append_of_pos hFirst]
  cases hLines : r.lines with
  | nil =>
      rw [body, hLines]
      rfl
  | cons l more =>
      have hLine : l ∈ r.lines := hLines ▸ List.mem_cons_self
      rcases List.exists_cons_of_ne_nil
        (r.lines_nonempty l hLine) with ⟨b, others, hSymbols⟩
      have hSymbol := r.mem_encode_of_mem_line hLine
        (hSymbols ▸ List.mem_cons_self)
      have hPlain : (b == 0x20 || b == 0x0A || b == 0x0D ||
          b == 0x09) = false :=
        Base64.forall_mem_encode
          (P := fun b => (b == 0x20 || b == 0x0A ||
            b == 0x0D || b == 0x09) = false)
          (by decide) (by decide) content b hSymbol
      rw [body, hLines, List.flatMap_cons, Line.bytes,
        hSymbols]
      simp only [List.cons_append]
      rw [List.dropWhile_cons_of_neg (by simp [hPlain])]

/- The label of the block, in bytes. -/
def label : Bytes := Text.toBytes certificateLabel

/- The text is one block, and nothing that begins another. -/
theorem readBlock?_text (r : Rendering content) :
    readBlock? r.text =
      some (⟨label, r.body, label⟩, r.trailing) := by
  have hBegin : Text.toBytes "-----BEGIN CERTIFICATE-----" =
      Text.toBytes "-----BEGIN " ++
        (label ++ Text.toBytes "-----") := by
    decide
  have hEnd : Text.toBytes "-----END CERTIFICATE-----" =
      Text.toBytes "-----END " ++
        (label ++ Text.toBytes "-----") := by
    decide
  have hBeginMark : Text.toBytes "-----BEGIN " =
      0x2D :: Text.toBytes "----BEGIN " := by
    decide
  have hEndMark : Text.toBytes "-----END " =
      0x2D :: Text.toBytes "----END " := by
    decide
  have hHyphens : Text.toBytes "-----" =
      0x2D :: Text.toBytes "----" := by
    decide
  have hLabel : 0x2D ∉ label := by decide
  have hDrop : ∀ rest,
      dropBlank (r.first.bytes ++
        (r.body ++ (Text.toBytes "-----END " ++ rest))) =
        r.body ++ (Text.toBytes "-----END " ++ rest) := by
    intro rest
    rw [hEndMark]
    exact r.dropBlank_first _
  unfold readBlock? text
  rw [hBegin, hEnd]
  simp only [List.append_assoc]
  rw [splitAfter_append hBeginMark r.hyphen_not_mem_leading]
  simp only
  rw [splitAfter_append hHyphens hLabel]
  simp only
  rw [hDrop, splitAfter_append hEndMark r.hyphen_not_mem_body]
  simp only
  rw [splitAfter_append hHyphens hLabel]

end Rendering

theorem readOnward_of_none
    {seen : List RawBlock}
    {bytes : Bytes}
    (hNone : readBlock? bytes = none) :
    readOnward seen bytes = seen.reverse := by
  rw [readOnward]
  split
  · rfl
  · rename_i hSome
    rw [hNone] at hSome
    cases hSome

theorem readOnward_of_some
    {seen : List RawBlock}
    {bytes rest : Bytes}
    {block : RawBlock}
    (hSome : readBlock? bytes = some (block, rest)) :
    readOnward seen bytes =
      readOnward (block :: seen) rest := by
  rw [readOnward]
  split
  · rename_i hNone
    rw [hNone] at hSome
    cases hSome
  · rename_i hOther
    rw [hOther] at hSome
    cases hSome
    rfl

namespace Rendering

variable {content : Bytes}

theorem readBlocks_text (r : Rendering content) :
    readBlocks r.text = [⟨label, r.body, label⟩] := by
  have hBeginMark : Text.toBytes "-----BEGIN " =
      0x2D :: Text.toBytes "----BEGIN " := by
    decide
  have hNone : readBlock? r.trailing = none := by
    rw [readBlock?, splitAfter_eq_none hBeginMark
      r.hyphen_not_mem_trailing]
  rw [readBlocks, readOnward_of_some r.readBlock?_text,
    readOnward_of_none hNone]
  rfl

------------------------------------------------------------
-- Headers
------------------------------------------------------------

/- Behind the end of a line stands no other end of a line. -/
def NoEmptyLine (bytes : Bytes) : Prop :=
  bytes.IsChain fun a b => a = 0x0A → b ≠ 0x0A ∧ b ≠ 0x0D

/- What a line begins with is a symbol of base64. -/
theorem ne_end_of_head_body
    (r : Rendering content)
    {lines : List Line}
    (hLines : lines ⊆ r.lines)
    {b : UInt8}
    (hHead : b ∈ (lines.flatMap Line.bytes).head?) :
    b ≠ 0x0A ∧ b ≠ 0x0D := by
  cases lines with
  | nil => cases hHead
  | cons l more =>
      have hLine : l ∈ r.lines := hLines List.mem_cons_self
      rcases List.exists_cons_of_ne_nil
        (r.lines_nonempty l hLine) with ⟨c, others, hSymbols⟩
      rw [List.flatMap_cons, Line.bytes, hSymbols] at hHead
      have hSame : c = b := by simpa using hHead
      have hSymbol := r.mem_encode_of_mem_line hLine
        (hSymbols ▸ List.mem_cons_self)
      rw [← hSame]
      exact ⟨(symbol_ne_mark hSymbol).2.2.1,
        (symbol_ne_mark hSymbol).2.2.2.1⟩

theorem NoEmptyLine.append
    {symbols rest : Bytes}
    (hSymbols : ∀ b ∈ symbols, b ≠ 0x0A)
    (hRest : NoEmptyLine rest) :
    NoEmptyLine (symbols ++ rest) := by
  induction symbols with
  | nil => exact hRest
  | cons b more ih =>
      rw [List.forall_mem_cons] at hSymbols
      exact (ih hSymbols.2).cons
        fun _ _ hEnd => absurd hEnd hSymbols.1

theorem NoEmptyLine.lineEnd
    {rest : Bytes}
    (hRest : NoEmptyLine rest)
    (hHead : ∀ b ∈ rest.head?, b ≠ 0x0A ∧ b ≠ 0x0D)
    (e : LineEnd) :
    NoEmptyLine (e.bytes ++ rest) := by
  have hNewline : NoEmptyLine (0x0A :: rest) :=
    hRest.cons fun b hb _ => hHead b hb
  cases e with
  | newline => exact hNewline
  | returnNewline =>
      exact hNewline.cons fun _ _ hEnd => by simp at hEnd

theorem noEmptyLine_lines
    (r : Rendering content)
    {lines : List Line}
    (hLines : lines ⊆ r.lines) :
    NoEmptyLine (lines.flatMap Line.bytes) := by
  induction lines with
  | nil => exact .nil
  | cons l more ih =>
      have hMore : more ⊆ r.lines := fun _ hx =>
        hLines (List.mem_cons_of_mem l hx)
      have hLine : l ∈ r.lines := hLines List.mem_cons_self
      rw [List.flatMap_cons, Line.bytes, List.append_assoc]
      refine .append (fun b hb => ?_) ((ih hMore).lineEnd
        (fun b => r.ne_end_of_head_body hMore) l.lineEnd)
      exact (symbol_ne_mark
        (r.mem_encode_of_mem_line hLine hb)).2.2.1

/- No line is empty, so that all of the body is base64. -/
theorem splitHeaders_body (r : Rendering content) :
    splitHeaders r.body = ([], r.body) := by
  have hBody : NoEmptyLine r.body :=
    r.noEmptyLine_lines (List.Subset.refl r.lines)
  have hShort : ¬ Text.toBytes "\n\n" <:+: r.body := by
    intro hInfix
    have hMarker : NoEmptyLine [0x0A, 0x0A] :=
      hBody.infix hInfix
    exact (List.isChain_pair.mp hMarker rfl).1 rfl
  have hLong : ¬ Text.toBytes "\r\n\r\n" <:+: r.body := by
    intro hInfix
    have hMarker : NoEmptyLine [0x0D, 0x0A, 0x0D, 0x0A] :=
      hBody.infix hInfix
    have hMiddle : NoEmptyLine [0x0A, 0x0D] :=
      hMarker.infix ⟨[0x0D], [0x0A], rfl⟩
    exact (List.isChain_pair.mp hMiddle rfl).2 rfl
  rw [splitHeaders, splitAfter_eq_none_of_not_isInfix hShort]
  simp only
  rw [splitAfter_eq_none_of_not_isInfix hLong]

------------------------------------------------------------
-- Contents
------------------------------------------------------------

/- Bytes of ASCII are the text of their characters. -/
theorem ofBytes?_of_ascii
    {bytes : Bytes}
    (hAscii : ∀ b ∈ bytes, b.toNat < 128) :
    Text.ofBytes? bytes =
      some (String.ofList (bytes.map Base64.charOf)) := by
  have hChar : ∀ n : Fin 128,
      (Char.ofNat n.val).toNat = n.val := by
    decide
  have hByte : ∀ b ∈ bytes,
      (Base64.charOf b).toNat = b.toNat :=
    fun b hb => hChar ⟨b.toNat, hAscii b hb⟩
  have hBytes :
      Text.toBytes (String.ofList (bytes.map Base64.charOf)) =
        bytes := by
    rw [Text.toBytes_ofList, List.map_map]
    · calc bytes.map
            ((fun c => UInt8.ofNat c.toNat) ∘ Base64.charOf)
          = bytes.map id :=
            List.map_congr_left fun b hb => by
              simp [hByte b hb]
        _ = bytes := List.map_id _
    · intro c hMem
      rcases List.mem_map.mp hMem with ⟨b, hb, rfl⟩
      rw [hByte b hb]
      exact hAscii b hb
  have hText := Text.ofBytes?_toBytes
    (String.ofList (bytes.map Base64.charOf))
  rwa [hBytes] at hText

theorem filter_bytes
    (r : Rendering content)
    {l : Line}
    (hLine : l ∈ r.lines) :
    l.bytes.filter (fun b => !Text.isBlank (Base64.charOf b)) =
      l.symbols := by
  have hSymbols : l.symbols.filter
      (fun b => !Text.isBlank (Base64.charOf b)) =
        l.symbols := by
    apply List.filter_eq_self.mpr
    intro b hb
    have hSymbol := symbol_ne_mark
      (r.mem_encode_of_mem_line hLine hb)
    simp [hSymbol.2.2.2.2]
  have hEnd : l.lineEnd.bytes.filter
      (fun b => !Text.isBlank (Base64.charOf b)) = [] := by
    apply List.filter_eq_nil_iff.mpr
    intro b hb
    simp [(blank_of_mem_lineEnd hb).2]
  rw [Line.bytes, List.filter_append, hSymbols, hEnd,
    List.append_nil]

/- What is not blank between the framing lines is base64. -/
theorem filter_body (r : Rendering content) :
    r.body.filter (fun b => !Text.isBlank (Base64.charOf b)) =
      Base64.encode content := by
  rw [body, List.filter_flatMap, ← r.lines_symbols]
  exact List.flatMap_congr fun l hLine => r.filter_bytes hLine

theorem decodeBlock?_text (r : Rendering content) :
    decodeBlock? ⟨label, r.body, label⟩ =
      some ⟨certificateLabel, content⟩ := by
  have hAscii : ∀ b ∈ r.body, b.toNat < 128 := by
    intro b hb
    rcases r.symbol_or_end_of_mem_body hb with
      hSymbol | rfl | rfl
    · exact (symbol_ne_mark hSymbol).1
    · decide
    · decide
  have hDecode :
      decode? (String.ofList (r.body.map Base64.charOf)) =
        some content := by
    have hSymbols : String.ofList
        ((Base64.encode content).map Base64.charOf) =
          Base64.encodeText content := rfl
    rw [decode?, String.toList_ofList, List.filter_map]
    simp only [Function.comp_def]
    rw [r.filter_body, hSymbols, Base64.toBytes_encodeText,
      Base64.decode_encode]
    rfl
  have hLabel : label ≠ [] := by decide
  have hEmpty : Text.ofBytes? [] = some "" :=
    Text.ofBytes?_toBytes ""
  have hRead : Text.ofBytes? label = some certificateLabel :=
    Text.ofBytes?_toBytes certificateLabel
  unfold decodeBlock?
  rw [r.splitHeaders_body]
  simp [hLabel, hRead, hEmpty, ofBytes?_of_ascii hAscii,
    hDecode, areHeaders]

/- Whatever bytes a text renders, it is read as these bytes. -/
theorem certificate?_text (r : Rendering content) :
    certificate? r.text = some content := by
  rw [certificate?, readAll?, r.readBlocks_text]
  simp [r.decodeBlock?_text]

theorem looksLike_text (r : Rendering content) :
    looksLike r.text = true := by
  have hBegin : Text.toBytes "-----BEGIN CERTIFICATE-----" =
      0x2D :: Text.toBytes "----BEGIN CERTIFICATE-----" := by
    decide
  have hMarker : Text.toBytes "-----BEGIN CERTIFICATE-----" =
      Text.toBytes "-----BEGIN" ++
        Text.toBytes " CERTIFICATE-----" := by
    decide
  have hHyphen : Text.isAsciiBlank 0x2D = false := by decide
  unfold looksLike text
  rw [List.dropWhile_append_of_pos r.leading_blank, hBegin,
    List.cons_append,
    List.dropWhile_cons_of_neg (by simp [hHyphen]),
    ← List.cons_append, ← hBegin, hMarker, List.append_assoc]
  exact List.isPrefixOf_iff_prefix.mpr (List.prefix_append _ _)

end Rendering

end Pem

------------------------------------------------------------
-- Both Forms
------------------------------------------------------------

namespace Certificate

/- A text is read as the certificate that it renders, if any. -/
theorem ofBytes?_text
    {content : Bytes}
    (r : Pem.Rendering content) :
    ofBytes? r.text = ofDer? content := by
  rw [ofBytes?, if_pos r.looksLike_text, r.certificate?_text,
    Option.bind_some]

/- Whatever a certificate is read from, its binary form is one. -/
theorem ofDer?_der
    {bytes : Bytes}
    {cert : Certificate}
    (hRead : ofBytes? bytes = some cert) :
    ofDer? cert.der.bytes = some cert := by
  have hBinary : ∃ der, ofDer? der = some cert := by
    unfold ofBytes? at hRead
    split at hRead
    · rcases Option.bind_eq_some_iff.mp hRead with
        ⟨der, -, hDer⟩
      exact ⟨der, hDer⟩
    · exact ⟨bytes, hRead⟩
  rcases hBinary with ⟨der, hDer⟩
  rwa [der_of_ofDer? hDer]

/-
  Both forms of a certificate are one certificate. However
  bytes are written as a text, the text is read exactly as
  they are, and nothing else is read from it; bytes that are
  a certificate are never taken for a text. There are texts
  with lines of every width. The binary form that a
  certificate keeps is a form of it, and what its fingerprint
  is made of.
-/
theorem forms_agree :
    (∀ (content : Bytes) (r : Pem.Rendering content),
      (∀ cert, ofDer? content = some cert →
        ofBytes? r.text = some cert ∧
          ofBytes? content = some cert) ∧
      (ofDer? content = none → ofBytes? r.text = none)) ∧
    (∀ content width lineEnd, 0 < width →
      (Pem.Rendering.wrapped width lineEnd content).HasWidth
        width lineEnd) ∧
    ∀ bytes cert, ofBytes? bytes = some cert →
      ofDer? cert.der.bytes = some cert ∧
        cert.fingerprint =
          Sha256.hexDigest cert.der.bytes := by
  refine ⟨?_, ?_, ?_⟩
  · intro content r
    constructor
    · intro cert hRead
      have hForm :=
        ofBytes?_eq_ofDer? (not_looksLike_of_ofDer? hRead)
      exact ⟨(ofBytes?_text r).trans hRead,
        hForm.trans hRead⟩
    · intro hNone
      exact (ofBytes?_text r).trans hNone
  · intro content width lineEnd hWidth
    exact Pem.Rendering.hasWidth_wrapped hWidth lineEnd content
  · intro bytes cert hRead
    exact ⟨ofDer?_der hRead, rfl⟩

/-
  The small certificate in lines of 64 symbols, and a byte
  that is no certificate in lines of one.
-/
theorem forms_agree_small :
    ∃ cert,
      ofDer? CertificateBytes.small.bytes = some cert ∧
      ofBytes? (Pem.Rendering.wrapped 64 .returnNewline
        CertificateBytes.small.bytes).text = some cert ∧
      ofBytes? CertificateBytes.small.bytes = some cert ∧
      ofDer? cert.der.bytes = some cert ∧
      ofDer? [0] = none ∧
      ofBytes? (Pem.Rendering.wrapped 1 .newline
        [0]).text = none := by
  have hNone : ofDer? [0] = none := by
    decide +kernel
  rcases Option.isSome_iff_exists.mp
    CertificateBytes.isSome_ofDer?_small with ⟨cert, hCert⟩
  have hForms := (forms_agree.1 CertificateBytes.small.bytes
    (.wrapped 64 .returnNewline _)).1 cert hCert
  exact ⟨cert, hCert, hForms.1, hForms.2,
    (forms_agree.2.2 _ cert hForms.1).1, hNone,
    (forms_agree.1 [0] (.wrapped 1 .newline _)).2 hNone⟩

end Certificate

end Federation
