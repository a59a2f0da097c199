import Federation.Certificate.Gate
import Federation.Proofs.Generation.Documents

/-
  The gate for files. A file's size is known before the file
  is read, and it may be another file by then. Whatever the
  two are, the gate for files agrees with the gate for bytes,
  and neither the reader of certificates nor the check is
  called for more bytes than the limit allows.

  Main declarations:
    * `Certificate.acceptFileWith`
    * `Certificate.acceptFileWith_eq`
    * `Certificate.watchFile`
    * `Certificate.file_gate_exact`
-/

namespace Federation

namespace Certificate

open CertificateBytes (greatestSize)

------------------------------------------------------------
-- What the Gate Calls
------------------------------------------------------------

section Callees

variable {m : Type → Type} [Monad m]
variable (reader : Bytes → m (Option Certificate))
variable (tester : Certificate → m (Except CheckFault Unit))
variable (filename : String)

/-
  The gate in any monad, so that what it calls is up to its
  caller: nothing else reads bytes or checks a certificate.
-/
def judgeWith
    (bytes : Bytes) :
    m (Except CertificateError Certificate) := do
  match ← reader bytes with
  | none => return .error (.invalid filename .malformed)
  | some c =>
      match ← tester c with
      | .error fault =>
          return .error (.invalid filename (.check fault))
      | .ok () => return .ok c

def acceptWith
    (bytes : Bytes) :
    m (Except CertificateError Certificate) :=
  if greatestSize < bytes.length then
    return .error (.tooLarge filename bytes.length)
  else judgeWith reader tester filename bytes

def acceptFileWith
    (size : Option Nat)
    (content : Option Bytes) :
    m (Except CertificateError Certificate) :=
  match size, content with
  | none, _ => return .error (.invalid filename .malformed)
  | some size, content =>
      if greatestSize < size then
        return .error (.tooLarge filename size)
      else
        match content with
        | none => return .error (.invalid filename .malformed)
        | some bytes =>
            acceptWith reader tester filename
              (bytes.take (greatestSize + 1))

/-
  A file is judged by all of its content, or refused without
  a call. What is read of it beyond the limit tells no more
  than that there is a byte too many.
-/
theorem acceptFileWith_eq
    (size : Nat)
    (content : Bytes) :
    acceptFileWith reader tester filename (some size)
        (some content) =
      if greatestSize < size then
        return .error (.tooLarge filename size)
      else if greatestSize < content.length then
        return .error (.tooLarge filename (greatestSize + 1))
      else judgeWith reader tester filename content := by
  unfold acceptFileWith acceptWith
  by_cases hSize : greatestSize < size
  · simp only [if_pos hSize]
  · simp only [if_neg hSize]
    by_cases hContent : greatestSize < content.length
    · have hCut : (content.take (greatestSize + 1)).length =
          greatestSize + 1 := by
        rw [List.length_take]
        omega
      rw [hCut, if_pos (Nat.lt_succ_self _), if_pos hContent]
    · have hWhole : content.take (greatestSize + 1) =
          content :=
        List.take_of_length_le (by omega)
      simp only [hWhole, if_neg hContent]

end Callees

------------------------------------------------------------
-- Results
------------------------------------------------------------

section Results

variable {m : Type → Type} [Monad m] [LawfulMonad m]
variable (check : Check) (filename : String)

/- With callees that do nothing but answer, it is the gate. -/
theorem judgeWith_pure (bytes : Bytes) :
    judgeWith (m := m) (fun b => pure (ofBytes? b))
        (fun c => pure (check c)) filename bytes =
      pure (judge check filename bytes) := by
  unfold judgeWith judge
  rw [pure_bind]
  cases ofBytes? bytes with
  | none => rfl
  | some c =>
      simp only [pure_bind]
      cases check c <;> rfl

theorem acceptFileWith_pure
    (size : Option Nat)
    (content : Option Bytes) :
    acceptFileWith (m := m) (fun b => pure (ofBytes? b))
        (fun c => pure (check c)) filename size content =
      pure (acceptFile check filename size content) := by
  unfold acceptFileWith acceptWith acceptFile accept
  cases size with
  | none => rfl
  | some size =>
      cases content with
      | none => simp only [apply_ite pure]
      | some content =>
          simp only [judgeWith_pure, apply_ite pure]

theorem acceptFile_eq
    (size : Nat)
    (content : Bytes) :
    acceptFile check filename (some size) (some content) =
      if greatestSize < size then
        .error (.tooLarge filename size)
      else if greatestSize < content.length then
        .error (.tooLarge filename (greatestSize + 1))
      else judge check filename content := by
  have hGate := acceptFileWith_pure (m := Id) check filename
    (some size) (some content)
  rw [acceptFileWith_eq, judgeWith_pure] at hGate
  exact hGate.symm

end Results

------------------------------------------------------------
-- Calls
------------------------------------------------------------

/- A call of the reader or of the check. -/
inductive Call where
| parse (bytes : Bytes)
| check (cert : Certificate)
deriving DecidableEq

namespace Call

/- It is about bytes that are no more than the limit allows. -/
inductive IsWithinLimit : Call → Prop where
| parse {bytes : Bytes} :
    bytes.length ≤ greatestSize →
    IsWithinLimit (.parse bytes)
| check {bytes : Bytes} {cert : Certificate} :
    bytes.length ≤ greatestSize →
    ofBytes? bytes = some cert →
    IsWithinLimit (.check cert)

/- Answer a call, noting it after the earlier ones. -/
def note
    {α : Type}
    (call : Call)
    (answer : α) : StateM (List Call) α :=
  modifyGet fun calls => (answer, calls ++ [call])

/- The calls for bytes: one to read them, one to check. -/
def forBytes (bytes : Bytes) : List Call :=
  .parse bytes :: ((ofBytes? bytes).map Call.check).toList

/- The calls for a file: none, or those for all of it. -/
def forFile : Option Nat → Option Bytes → List Call
| some size, some content =>
    if greatestSize < size ∨ greatestSize < content.length
    then []
    else forBytes content
| _, _ => []

theorem isWithinLimit_of_mem_forBytes
    {bytes : Bytes}
    {call : Call}
    (hSize : bytes.length ≤ greatestSize)
    (hCall : call ∈ forBytes bytes) :
    call.IsWithinLimit := by
  rcases List.mem_cons.mp hCall with rfl | hCheck
  · exact .parse hSize
  · rw [Option.mem_toList, Option.map_eq_some_iff] at hCheck
    rcases hCheck with ⟨cert, hRead, rfl⟩
    exact .check hSize hRead

theorem isWithinLimit_of_mem_forFile
    {size : Option Nat}
    {content : Option Bytes}
    {call : Call}
    (hCall : call ∈ forFile size content) :
    call.IsWithinLimit := by
  unfold forFile at hCall
  split at hCall
  · split at hCall
    · cases hCall
    · rename_i hSmall
      rw [not_or, Nat.not_lt, Nat.not_lt] at hSmall
      exact isWithinLimit_of_mem_forBytes hSmall.2 hCall
  · cases hCall

end Call

section Watching

variable (check : Check) (filename : String)

/- What comes of a file, and what was called for it. -/
def watchFile
    (size : Option Nat)
    (content : Option Bytes) :
    Except CertificateError Certificate × List Call :=
  Id.run ((acceptFileWith
    (fun bytes => (Call.parse bytes).note (ofBytes? bytes))
    (fun c => (Call.check c).note (check c))
    filename size content).run [])

theorem run_judgeWith_note (bytes : Bytes) :
    Id.run ((judgeWith
      (fun b => (Call.parse b).note (ofBytes? b))
      (fun c => (Call.check c).note (check c))
      filename bytes).run []) =
      (judge check filename bytes, Call.forBytes bytes) := by
  unfold judgeWith judge Call.forBytes
  cases hRead : ofBytes? bytes with
  | none => simp [Call.note, hRead]
  | some c =>
      cases hCheck : check c <;>
        simp [Call.note, hRead, hCheck]

/- A file that is too large is refused without any call. -/
theorem watchFile_eq
    (size : Option Nat)
    (content : Option Bytes) :
    watchFile check filename size content =
      (acceptFile check filename size content,
        Call.forFile size content) := by
  rcases size with _ | size
  · rfl
  · by_cases hSize : greatestSize < size
    · rcases content with _ | content <;>
        simp only [watchFile, acceptFileWith, acceptFile,
          Call.forFile, hSize, true_or, if_true] <;>
        rfl
    · rcases content with _ | content
      · simp only [watchFile, acceptFileWith, acceptFile,
          Call.forFile, if_neg hSize]
        rfl
      · rw [watchFile, acceptFileWith_eq, acceptFile_eq,
          Call.forFile]
        by_cases hContent : greatestSize < content.length
        · simp only [if_neg hSize, hContent, or_true, if_true]
          rfl
        · simp only [hSize, hContent, or_self, if_false,
            run_judgeWith_note]

end Watching

------------------------------------------------------------
-- The Two Gates
------------------------------------------------------------

section Gates

variable (check : Check) (filename : String)

/- A file that did not change is judged as its content is. -/
theorem acceptFile_eq_accept (content : Bytes) :
    acceptFile check filename (some content.length)
        (some content) =
      accept check filename content := by
  rw [acceptFile_eq, accept]
  by_cases hLarge : greatestSize < content.length
  · rw [if_pos hLarge, if_pos hLarge]
  · rw [if_neg hLarge, if_neg hLarge, if_neg hLarge]

/- What is judged is not refused for its size. -/
theorem judge_ne_tooLarge
    {bytes : Bytes}
    {name : String}
    {n : Nat} :
    judge check filename bytes ≠ .error (.tooLarge name n) := by
  unfold judge
  split
  · nofun
  · split <;> nofun

theorem acceptFile_tooLarge_iff
    {size : Nat}
    {content : Bytes} :
    (∃ name n, acceptFile check filename (some size)
        (some content) = .error (.tooLarge name n)) ↔
      greatestSize < size ∨ greatestSize < content.length := by
  rw [acceptFile_eq]
  by_cases hSize : greatestSize < size
  · simp [hSize]
  · by_cases hContent : greatestSize < content.length
    · simp [hSize, hContent]
    · simp [hSize, hContent, judge_ne_tooLarge]

/- A file is accepted just if all of its content is. -/
theorem acceptFile_eq_ok_iff
    {size : Nat}
    {content : Bytes}
    {cert : Certificate} :
    acceptFile check filename (some size) (some content) =
        .ok cert ↔
      size ≤ greatestSize ∧
        accept check filename content = .ok cert := by
  rw [acceptFile_eq, accept]
  by_cases hSize : greatestSize < size
  · simp [hSize, Nat.not_le.mpr hSize]
  · rw [if_neg hSize]
    by_cases hContent : greatestSize < content.length
    · simp [hContent]
    · simp [hContent, Nat.not_lt.mp hSize]

/-
  The gate for files and the gate for bytes agree on a file
  that did not change. On one that did, a file is too large
  just if its size or its content was, and then nothing was
  called for it; what was called for was within the limit,
  and it was the whole content, so that no part of a file
  that is too large is ever taken for a certificate.
-/
theorem file_gate_exact :
    (∀ content,
      acceptFile check filename (some content.length)
          (some content) =
        accept check filename content) ∧
    (∀ size content,
      watchFile check filename size content =
          (acceptFile check filename size content,
            Call.forFile size content) ∧
        ∀ call ∈ (watchFile check filename size content).2,
          call.IsWithinLimit) ∧
    ∀ size content,
      ((∃ name n, acceptFile check filename (some size)
          (some content) = .error (.tooLarge name n)) ↔
        greatestSize < size ∨
          greatestSize < content.length) ∧
      ∀ cert,
        acceptFile check filename (some size) (some content) =
            .ok cert ↔
          size ≤ greatestSize ∧
            accept check filename content = .ok cert := by
  refine ⟨acceptFile_eq_accept check filename, ?_, ?_⟩
  · intro size content
    have hRun := watchFile_eq check filename size content
    refine ⟨hRun, fun call hCall => ?_⟩
    rw [hRun] at hCall
    exact Call.isWithinLimit_of_mem_forFile hCall
  · intro size content
    exact ⟨acceptFile_tooLarge_iff check filename,
      fun _ => acceptFile_eq_ok_iff check filename⟩

end Gates

/- A small file that did not change, and one that grew. -/
theorem file_gate_exact_small :
    let bytes := CertificateBytes.small.bytes
    let grown := List.replicate (greatestSize + 1) 0
    Call.parse bytes ∈
        (watchFile Check.general "small.der"
          (some bytes.length) (some bytes)).2 ∧
      (Call.parse bytes).IsWithinLimit ∧
      greatestSize < grown.length ∧
      ∃ name n,
        acceptFile Check.general "small.der"
            (some bytes.length) (some grown) =
          .error (.tooLarge name n) := by
  intro bytes grown
  have hSize : bytes.length ≤ greatestSize := by
    decide +kernel
  have hGate := file_gate_exact Check.general "small.der"
  have hCall : Call.parse bytes ∈
      (watchFile Check.general "small.der"
        (some bytes.length) (some bytes)).2 := by
    rw [(hGate.2.1 _ _).1, Call.forFile, if_neg (by omega)]
    exact List.mem_cons_self
  have hGrown : greatestSize < grown.length := by
    rw [List.length_replicate]
    exact Nat.lt_succ_self _
  exact ⟨hCall, (hGate.2.1 _ _).2 _ hCall, hGrown,
    (hGate.2.2 bytes.length grown).1.mpr (.inr hGrown)⟩

end Certificate

end Federation
