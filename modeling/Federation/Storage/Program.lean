import Federation.Storage.Path
import Federation.Storage.Tree
import Federation.Time.Instant

/-
  This file defines programs: values that tell which
  operation on files, clock or cancellation comes next, and
  how it goes on after each answer.

  Key definitions include:
    * `Operation`
    * `Operation.Answer`
    * `Program`
    * `Program.bind`
    * `Program.sequence`
    * `Program.interleave`
-/

namespace Federation

------------------------------------------------------------
-- Operations
------------------------------------------------------------

/- What a program may ask of its surroundings. -/
inductive Operation where
/- Create a directory and those that it is in. -/
| createAll (path : Path)
/- Create a directory. -/
| create (path : Path)
/- Write a file. -/
| write (path : Path) (content : Bytes)
/- Move a file or a directory. -/
| rename (source target : Path)
/- Remove a directory with all that is in it. -/
| removeAll (path : Path)
/- The bytes of a file. -/
| read (path : Path)
/- The size of a file. -/
| size (path : Path)
/- There is something at a path. -/
| isPresent (path : Path)
/- There is a file at a path. -/
| isFile (path : Path)
/- The present instant. -/
| now
/- A name that has not been used. -/
| freshName
/- The flag of cancellation is set. -/
| isCancelled
deriving DecidableEq

/- A value, or the fault of an operation. -/
abbrev Stored (α : Type) :=
  Except StorageFault α

/- The answers to an operation. -/
def Operation.Answer : Operation → Type
| .createAll _ => Stored Unit
| .create _ => Stored Unit
| .write _ _ => Stored Unit
| .rename _ _ => Stored Unit
| .removeAll _ => Stored Unit
| .read _ => Stored Bytes
| .size _ => Stored Nat
| .isPresent _ => Bool
| .isFile _ => Bool
| .now => Instant
| .freshName => String
| .isCancelled => Bool

------------------------------------------------------------
-- Programs
------------------------------------------------------------

/- A program: a value, or an operation and what follows it. -/
inductive Program (α : Type) where
| done (value : α)
| step
    (operation : Operation)
    (next : operation.Answer → Program α)

namespace Program

variable {α β : Type}

/- A program that goes on with another one. -/
def bind :
    Program α → (α → Program β) → Program β
| .done value, f => f value
| .step operation next, f =>
    .step operation fun answer => (next answer).bind f

instance : Monad Program where
  pure := .done
  bind := bind

/- The program of a single operation. -/
def ask (operation : Operation) : Program operation.Answer :=
  .step operation .done

------------------------------------------------------------
-- Single Operations
------------------------------------------------------------

/- Create a directory and those that it is in. -/
def createAll (path : Path) : Program (Stored Unit) :=
  ask (.createAll path)

/- Create a directory. -/
def create (path : Path) : Program (Stored Unit) :=
  ask (.create path)

/- Write a file. -/
def write
    (path : Path)
    (content : Bytes) : Program (Stored Unit) :=
  ask (.write path content)

/- Move a file or a directory. -/
def rename (source target : Path) : Program (Stored Unit) :=
  ask (.rename source target)

/- Remove a directory with all that is in it. -/
def removeAll (path : Path) : Program (Stored Unit) :=
  ask (.removeAll path)

/- The bytes of a file. -/
def read (path : Path) : Program (Stored Bytes) :=
  ask (.read path)

/- The size of a file. -/
def size (path : Path) : Program (Stored Nat) :=
  ask (.size path)

/- There is something at a path. -/
def isPresent (path : Path) : Program Bool :=
  ask (.isPresent path)

/- There is a file at a path. -/
def isFile (path : Path) : Program Bool :=
  ask (.isFile path)

/- The present instant. -/
def now : Program Instant :=
  ask .now

/- A name that has not been used. -/
def freshName : Program String :=
  ask .freshName

/- The flag of cancellation is set. -/
def isCancelled : Program Bool :=
  ask .isCancelled

------------------------------------------------------------
-- Several Programs
------------------------------------------------------------

/- Programs one after the other. -/
def sequence : List (Program α) → Program (List α)
| [] => .done []
| program :: rest =>
    program.bind fun value =>
      (sequence rest).bind fun values =>
        .done (value :: values)

/-
  Programs side by side. Each turn is a step of the program
  at an index, and when there are no more turns, the rest of
  each program follows one after the other.
-/
def interleave :
    (turns : List Nat) → List (Program α) →
      Program (List α)
| [], programs => sequence programs
| turn :: turns, programs =>
    match programs[turn]? with
    | some (.step operation next) =>
        .step operation fun answer =>
          interleave turns (programs.set turn (next answer))
    | some (.done _) => interleave turns programs
    | none => interleave turns programs

end Program

end Federation
