import Federation.Bytes.Uuid
import Federation.Command.Basic
import Std.Time.DateTime.Timestamp

/-
  This file carries out programs on the files and the clock
  of the machine, and answers the arguments of its command
  line.

  Key definitions include:
    * `Outside.answer`
    * `Outside.carryOut`
    * `main`
-/

namespace Federation

namespace Outside

------------------------------------------------------------
-- Faults
------------------------------------------------------------

/-
  The fault that a number of the system stands for, which
  some actions tell with its sign reversed.
-/
def faultOf
    (code : UInt32)
    (details : String) : StorageFault :=
  match min code.toNat (-code).toNat with
  | 2 => .notFound
  | 17 => .alreadyExists
  | 20 => .notDirectory
  | 21 => .isDirectory
  | 22 => .withinItself
  | 39 => .notEmpty
  | _ => .other details

/- The fault of an action that fails. -/
def fault : IO.Error → StorageFault
| .noFileOrDirectory _ code details => faultOf code details
| .alreadyExists _ code details => faultOf code details
| .inappropriateType _ code details => faultOf code details
| .unsatisfiedConstraints code details => faultOf code details
| .invalidArgument _ code details => faultOf code details
| .permissionDenied _ code details => faultOf code details
| .resourceExhausted _ code details => faultOf code details
| .noSuchThing _ code details => faultOf code details
| .otherError code details => faultOf code details
| e => .other e.toString

/- The value of an action, or its fault. -/
def attempt
    {α : Type}
    (action : IO α) : IO (Stored α) := do
  try
    let value ← action
    return .ok value
  catch e => return .error (fault e)

/- An action comes to an end without a fault. -/
def succeeds
    {α : Type}
    (action : IO α) : IO Bool := do
  return (← attempt action).isOk

------------------------------------------------------------
-- Operations
------------------------------------------------------------

/- The bytes of a file. -/
def readFile (path : Path) : IO Bytes := do
  let content ← IO.FS.readBinFile path.text
  return content.data.toList

/- Open a file and read its first byte. -/
def probeFile (path : Path) : IO Unit := do
  let handle ← IO.FS.Handle.mk path.text .read
  let _ ← handle.read 1
  return ()

/- There is a directory. -/
def isDirectory (path : Path) : IO Bool := do
  match ← attempt (probeFile path) with
  | .error .isDirectory => return true
  | _ => return false

/- Create a directory and those on the way to it. -/
def createAll (path : Path) : IO (Stored Unit) := do
  match ← attempt (IO.FS.createDir path.text) with
  | .ok _ => return .ok ()
  | .error .notFound =>
      attempt (IO.FS.createDirAll path.text)
  | .error fault =>
      if ← isDirectory path then return .ok ()
      else return .error fault

/- The present instant of the machine. -/
def now : IO Instant := do
  let stamp ← Std.Time.Timestamp.now
  let nanos := stamp.toNanosecondsSinceUnixEpoch.val
  return ⟨nanos / 1000000000, (nanos % 1000000000).toNat⟩

/- The name that sixteen bytes at random make. -/
def freshName : IO String := do
  let bytes ← IO.getRandomBytes 16
  return Uuid.ofBytes bytes.data.toList

/- The answer of the machine to an operation. -/
def answer : (operation : Operation) → IO operation.Answer
| .createAll path => createAll path
| .create path => attempt (IO.FS.createDir path.text)
| .write path content =>
    attempt
      (IO.FS.writeBinFile path.text ⟨content.toArray⟩)
| .rename source target =>
    attempt (IO.FS.rename source.text target.text)
| .removeAll path => attempt (IO.FS.removeDirAll path.text)
| .read path => attempt (readFile path)
| .size path => attempt do
    let content ← readFile path
    return content.length
| .isPresent path => succeeds (IO.FS.realPath path.text)
| .isFile path => succeeds (probeFile path)
| .now => now
| .freshName => freshName
| .isCancelled => return false

/- Carry out a program. -/
def carryOut {α : Type} : Program α → IO α
| .done value => return value
| .step operation next => do
    let value ← answer operation
    carryOut (next value)

/- The variables of the machine that settings may come from. -/
def environment : IO Settings.Environment := do
  let registry ← IO.getEnv Settings.registryVariable
  let output ← IO.getEnv Settings.outputVariable
  let heldBack ← IO.getEnv Settings.heldBackVariable
  return fun name =>
    if name = Settings.registryVariable then registry
    else if name = Settings.outputVariable then output
    else if name = Settings.heldBackVariable then heldBack
    else none

end Outside

end Federation

/- Answer the arguments of the command line. -/
def main (words : List String) : IO UInt32 := do
  let environment ← Federation.Outside.environment
  let reply ← Federation.Outside.carryOut
    (Federation.CommandLine.reply environment words)
  IO.print reply.text
  IO.eprint reply.complaint
  return UInt32.ofNat reply.exitCode
