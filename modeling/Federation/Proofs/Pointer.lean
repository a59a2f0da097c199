import Federation.Pointer
import Federation.Proofs.Json.Number

/-
  What a pointer leads to, step after step, and that its text
  determines it as long as no key looks like a number. Labels
  are paths as well: points lead to keys and square brackets
  to items, so that the steps of a pointer are read back from
  its label as long as no key has such a mark in it.

  Main declarations:
    * `Pointer.resolve?_append`
    * `PointerStep.IsNamed`
    * `Pointer.render_injective`
    * `Pointer.ofLabel?`
    * `Pointer.ofLabel?_label`
-/

namespace Federation

namespace Pointer

------------------------------------------------------------
-- Resolution
------------------------------------------------------------

@[simp] theorem resolve?_root (v : Json) :
    resolve? [] v = some v :=
  rfl

theorem resolve?_cons
    (step : PointerStep)
    (p : Pointer)
    (v : Json) :
    resolve? (step :: p) v =
      (step? step v).bind (resolve? p) :=
  rfl

@[simp] theorem resolve?_single
    (step : PointerStep)
    (v : Json) :
    resolve? [step] v = step? step v :=
  Option.bind_fun_some _

/- The rest of a way starts where its first part leads. -/
theorem resolve?_append
    (p q : Pointer)
    (v : Json) :
    resolve? (p ++ q) v =
      (resolve? p v).bind (resolve? q) :=
  List.foldlM_append

@[simp] theorem resolve?_key
    (p : Pointer)
    (name : String)
    (v : Json) :
    resolve? (p.key name) v =
      (resolve? p v).bind (Json.get? name) := by
  rw [key, resolve?_append]
  exact Option.bind_congr fun part _ => resolve?_single _ part

@[simp] theorem resolve?_index
    (p : Pointer)
    (i : Nat)
    (v : Json) :
    resolve? (p.index i) v =
      ((resolve? p v).bind Json.asArray?).bind (·[i]?) := by
  rw [index, resolve?_append, Option.bind_assoc]
  exact Option.bind_congr fun part _ => resolve?_single _ part

------------------------------------------------------------
-- Texts of Steps
------------------------------------------------------------

/- A key character inside a pointer. -/
def escapeChar (c : Char) : List Char :=
  if c = '~' then ['~', '0']
  else if c = '/' then ['~', '1']
  else [c]

theorem escapeKey_toList (name : String) :
    (escapeKey name).toList = name.toList.flatMap escapeChar := by
  rw [escapeKey, String.toList_ofList]
  rfl

theorem escapeChar_ne_nil (c : Char) : escapeChar c ≠ [] := by
  unfold escapeChar
  split_ifs <;> simp

theorem slash_not_mem_escapeChar (c : Char) :
    '/' ∉ escapeChar c := by
  unfold escapeChar
  split_ifs with hTilde hSlash
  · decide
  · decide
  · simpa using Ne.symm hSlash

/- Where two escaped texts start alike, so do the texts. -/
theorem escapeChar_append_inj
    {c d : Char}
    {rest others : List Char}
    (hEqual : escapeChar c ++ rest = escapeChar d ++ others) :
    c = d ∧ rest = others := by
  unfold escapeChar at hEqual
  split_ifs at hEqual <;> grind

theorem flatMap_escapeChar_injective :
    Function.Injective (List.flatMap escapeChar) := by
  intro cs
  induction cs with
  | nil =>
      intro ds hEqual
      cases ds with
      | nil => rfl
      | cons d ds =>
          rw [List.flatMap_cons] at hEqual
          exact absurd
            (List.append_eq_nil_iff.mp hEqual.symm).1
            (escapeChar_ne_nil d)
  | cons c cs ih =>
      intro ds hEqual
      cases ds with
      | nil =>
          rw [List.flatMap_cons] at hEqual
          exact absurd (List.append_eq_nil_iff.mp hEqual).1
            (escapeChar_ne_nil c)
      | cons d ds =>
          rw [List.flatMap_cons, List.flatMap_cons] at hEqual
          rcases escapeChar_append_inj hEqual with
            ⟨rfl, hRest⟩
          rw [ih hRest]

theorem escapeKey_injective :
    Function.Injective escapeKey := by
  intro a b hEqual
  have hChars := congrArg String.toList hEqual
  rw [escapeKey_toList, escapeKey_toList] at hChars
  exact String.toList_injective
    (flatMap_escapeChar_injective hChars)

theorem index_toList (i : Nat) :
    (stepText (.index i)).toList = Nat.toDigits 10 i := by
  simp [stepText, toString]

end Pointer

/- A step to an item, or to a key that is not all digits. -/
def PointerStep.IsNamed : PointerStep → Prop
| .key name => ∃ c ∈ name.toList, Json.Number.isDigit c = false
| .index _ => True

namespace Pointer

theorem slash_not_mem_stepText (step : PointerStep) :
    '/' ∉ (stepText step).toList := by
  cases step with
  | key name =>
      rw [stepText, escapeKey_toList, List.mem_flatMap]
      rintro ⟨c, -, hSlash⟩
      exact slash_not_mem_escapeChar c hSlash
  | index i =>
      rw [index_toList]
      intro hSlash
      have hDigit := Json.Number.isDigit_of_mem_toDigits hSlash
      exact absurd hDigit (by decide)

/- A key that is not all digits is not written as an index. -/
theorem stepText_key_ne_index
    {name : String}
    (hNamed : (PointerStep.key name).IsNamed)
    (i : Nat) :
    stepText (.key name) ≠ stepText (.index i) := by
  intro hEqual
  have hChars := congrArg String.toList hEqual
  rw [index_toList, stepText, escapeKey_toList] at hChars
  have hDigits : ∀ d ∈ name.toList.flatMap escapeChar,
      Json.Number.isDigit d = true := by
    rw [hChars]
    exact fun d hMem =>
      Json.Number.isDigit_of_mem_toDigits hMem
  rcases hNamed with ⟨c, hMem, hOther⟩
  have hFirst : ∃ d ∈ escapeChar c,
      Json.Number.isDigit d = false := by
    unfold escapeChar
    split_ifs
    · exact ⟨'~', by decide, by decide⟩
    · exact ⟨'~', by decide, by decide⟩
    · exact ⟨c, by simp, hOther⟩
  rcases hFirst with ⟨d, hEscaped, hNoDigit⟩
  have hDigit := hDigits d
    (List.mem_flatMap.mpr ⟨c, hMem, hEscaped⟩)
  rw [hNoDigit] at hDigit
  exact absurd hDigit (by decide)

theorem stepText_inj
    {s t : PointerStep}
    (hs : s.IsNamed)
    (ht : t.IsNamed)
    (hEqual : stepText s = stepText t) :
    s = t := by
  cases s with
  | key name =>
      cases t with
      | key other => rw [escapeKey_injective hEqual]
      | index j =>
          exact absurd hEqual (stepText_key_ne_index hs j)
  | index i =>
      cases t with
      | key other =>
          exact absurd hEqual.symm
            (stepText_key_ne_index ht i)
      | index j =>
          have hDigits := congrArg
            (Json.Number.ofDigits ∘ String.toList) hEqual
          simp only [Function.comp, index_toList,
            Json.Number.ofDigits_toDigits] at hDigits
          rw [hDigits]

------------------------------------------------------------
-- Texts of Pointers
------------------------------------------------------------

/- Every step of a pointer has a text of its own. -/
def IsNamed (p : Pointer) : Prop :=
  ∀ step ∈ p, step.IsNamed

theorem render_cons_toList
    (step : PointerStep)
    (p : Pointer) :
    (render (step :: p)).toList =
      '/' :: ((stepText step).toList ++
        (render p).toList) := by
  simp [render, String.join_cons]

/-
  The text of the first step ends at the next slash, if there
  is one.
-/
theorem takeWhile_stepText
    (step : PointerStep)
    (p : Pointer) :
    ((stepText step).toList ++ (render p).toList).takeWhile
        (· != '/') =
      (stepText step).toList := by
  have hText : ∀ c ∈ (stepText step).toList,
      (c != '/') = true := by
    intro c hMem
    rw [bne_iff_ne]
    rintro rfl
    exact slash_not_mem_stepText step hMem
  rw [List.takeWhile_append_of_pos hText]
  cases p with
  | nil => simp [render]
  | cons next p => simp [render_cons_toList]

/- By induction on the steps of both pointers. -/
theorem render_injective
    {p q : Pointer}
    (hp : p.IsNamed)
    (hq : q.IsNamed)
    (hEqual : p.render = q.render) :
    p = q := by
  have hChars := congrArg String.toList hEqual
  clear hEqual
  induction p generalizing q with
  | nil =>
      cases q with
      | nil => rfl
      | cons step q => simp [render] at hChars
  | cons s p ih =>
      cases q with
      | nil => simp [render] at hChars
      | cons t q =>
          rw [IsNamed, List.forall_mem_cons] at hp hq
          rw [render_cons_toList, render_cons_toList,
            List.cons.injEq] at hChars
          have hHeads := congrArg
            (List.takeWhile (· != '/')) hChars.2
          rw [takeWhile_stepText, takeWhile_stepText] at hHeads
          have hTails := hChars.2
          rw [hHeads, List.append_cancel_left_eq] at hTails
          rw [stepText_inj hp.1 hq.1
            (String.toList_injective hHeads),
            ih hp.2 hq.2 hTails]

end Pointer

------------------------------------------------------------
-- Reading of Labels
------------------------------------------------------------

namespace Pointer

/- A character that goes on with a key in a label. -/
def isLabelChar (c : Char) : Bool :=
  c != '.' && c != '['

theorem length_dropWhile_lt
    (test : Char → Bool)
    (mark : Char)
    (rest : List Char) :
    (rest.dropWhile test).length < (mark :: rest).length :=
  Nat.lt_succ_of_le (List.dropWhile_suffix test).length_le

/-
  The steps that are written one after the other, with a
  point before each key and brackets around each number.
-/
def readSteps : List Char → Option Pointer
| [] => some []
| '.' :: rest =>
    (readSteps (rest.dropWhile isLabelChar)).map
      (.key (String.ofList (rest.takeWhile isLabelChar)) :: ·)
| '[' :: rest =>
    match _hAfter : rest.dropWhile Json.Number.isDigit with
    | ']' :: others =>
        (readSteps others).map
          (.index (Json.Number.ofDigits
            (rest.takeWhile Json.Number.isDigit)) :: ·)
    | _ => none
| _ => none
termination_by cs => cs.length
decreasing_by
  · exact length_dropWhile_lt _ _ _
  · have hShorter := length_dropWhile_lt
      Json.Number.isDigit '[' rest
    rw [_hAfter, List.length_cons] at hShorter
    exact Nat.lt_of_succ_lt hShorter

/- The pointer that a label stands for; it begins with a key. -/
def ofLabel? (label : String) : Option Pointer :=
  readSteps ('.' :: label.toList)

end Pointer

------------------------------------------------------------
-- Labels
------------------------------------------------------------

/- A step to an item, or to a key without marks. -/
def PointerStep.IsPlain : PointerStep → Prop
| .key name => name.toList.all Pointer.isLabelChar = true
| .index _ => True

@[simp] theorem PointerStep.isPlain_key_iff (name : String) :
    (PointerStep.key name).IsPlain ↔
      name.toList.all Pointer.isLabelChar = true :=
  Iff.rfl

@[simp] theorem PointerStep.isPlain_index (i : Nat) :
    (PointerStep.index i).IsPlain :=
  trivial

namespace Pointer

/- No key on the way has a mark in it. -/
def HasPlainKeys (p : Pointer) : Prop :=
  ∀ step ∈ p, step.IsPlain

@[simp] theorem hasPlainKeys_nil : HasPlainKeys [] :=
  nofun

@[simp] theorem hasPlainKeys_cons_iff
    (step : PointerStep)
    (p : Pointer) :
    HasPlainKeys (step :: p) ↔
      step.IsPlain ∧ HasPlainKeys p :=
  List.forall_mem_cons

@[simp] theorem hasPlainKeys_append_iff (p q : Pointer) :
    HasPlainKeys (p ++ q) ↔
      HasPlainKeys p ∧ HasPlainKeys q :=
  List.forall_mem_append

/- The text of steps that are not the first. -/
def stepsText (p : Pointer) : List Char :=
  p.flatMap fun step => (labelStep false step).toList

theorem stepsText_key
    (name : String)
    (p : Pointer) :
    stepsText (.key name :: p) =
      '.' :: (name.toList ++ stepsText p) := by
  simp [stepsText, labelStep]

theorem stepsText_index
    (i : Nat)
    (p : Pointer) :
    stepsText (.index i :: p) =
      '[' :: (Nat.toDigits 10 i ++ ']' :: stepsText p) := by
  simp [stepsText, labelStep, toString]

theorem label_toList
    (name : String)
    (p : Pointer) :
    '.' :: (label (.key name :: p)).toList =
      stepsText (.key name :: p) := by
  rw [stepsText_key]
  simp only [label, labelStep, if_true, String.toList_append,
    String.toList_join, List.flatMap_map]
  rfl

/- The next step begins with a mark, which ends a key. -/
theorem span_key
    {cs : List Char}
    (hPlain : cs.all isLabelChar = true)
    (p : Pointer) :
    (cs ++ stepsText p).takeWhile isLabelChar = cs ∧
      (cs ++ stepsText p).dropWhile isLabelChar =
        stepsText p := by
  have hChars : ∀ c ∈ cs, isLabelChar c = true :=
    List.all_eq_true.mp hPlain
  have hEnd : (stepsText p).takeWhile isLabelChar = [] ∧
      (stepsText p).dropWhile isLabelChar = stepsText p := by
    cases p with
    | nil => exact ⟨rfl, rfl⟩
    | cons step p =>
        cases step with
        | key name =>
            rw [stepsText_key]
            exact ⟨rfl, rfl⟩
        | index i =>
            rw [stepsText_index]
            exact ⟨rfl, rfl⟩
  rw [List.takeWhile_append_of_pos hChars,
    List.dropWhile_append_of_pos hChars, hEnd.1, hEnd.2]
  exact ⟨List.append_nil cs, rfl⟩

/- A bracket ends the digits of a number. -/
theorem span_index
    (i : Nat)
    (rest : List Char) :
    (Nat.toDigits 10 i ++ ']' :: rest).takeWhile
        Json.Number.isDigit = Nat.toDigits 10 i ∧
      (Nat.toDigits 10 i ++ ']' :: rest).dropWhile
        Json.Number.isDigit = ']' :: rest := by
  have hDigits : ∀ c ∈ Nat.toDigits 10 i,
      Json.Number.isDigit c = true :=
    fun c hMem => Json.Number.isDigit_of_mem_toDigits hMem
  have hBracket : Json.Number.isDigit ']' = false := by decide
  rw [List.takeWhile_append_of_pos hDigits,
    List.dropWhile_append_of_pos hDigits]
  simp [hBracket]

/- By induction on the steps, each read up to the next one. -/
theorem readSteps_stepsText
    {p : Pointer}
    (hPlain : HasPlainKeys p) :
    readSteps (stepsText p) = some p := by
  induction p with
  | nil =>
      unfold stepsText
      simp [readSteps]
  | cons step p ih =>
      rw [hasPlainKeys_cons_iff] at hPlain
      cases step with
      | key name =>
          rcases span_key hPlain.1 p with ⟨hTake, hDrop⟩
          rw [stepsText_key, readSteps, hTake, hDrop,
            ih hPlain.2, String.ofList_toList]
          rfl
      | index i =>
          rcases span_index i (stepsText p) with ⟨hTake, hDrop⟩
          rw [stepsText_index, readSteps]
          split
          · next others hAfter =>
            rw [hDrop, List.cons.injEq] at hAfter
            rw [hTake, ← hAfter.2, ih hPlain.2,
              Json.Number.ofDigits_toDigits]
            rfl
          · next hNone => exact absurd hDrop (hNone _)

/- A pointer that begins with a key is read from its label. -/
theorem ofLabel?_label
    {name : String}
    {p : Pointer}
    (hPlain : HasPlainKeys (.key name :: p)) :
    ofLabel? (label (.key name :: p)) =
      some (.key name :: p) := by
  rw [ofLabel?, label_toList]
  exact readSteps_stepsText hPlain

end Pointer

end Federation
