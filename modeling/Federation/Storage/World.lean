import Federation.Storage.Program

/-
  This file defines how programs run: each operation acts on
  a tree and is answered by it, while instants, fresh names,
  cancellation and failures are decided by surroundings.

  Key definitions include:
    * `Surroundings`
    * `World`
    * `World.perform`
    * `Program.run`
    * `Program.worlds`
-/

namespace Federation

------------------------------------------------------------
-- Surroundings
------------------------------------------------------------

/-
  What is decided outside of programs. Instants, names and
  failures belong to the number of steps done before, and
  cancellation to the number of times it was asked for.
-/
structure Surroundings where
  instant : (step : Nat) → Instant
  name : (step : Nat) → String
  failure : (step : Nat) → Option StorageFault
  isCancelled : (check : Nat) → Bool

/- Surroundings in which no operation fails. -/
def Surroundings.IsFaultless (s : Surroundings) : Prop :=
  ∀ step, s.failure step = none

/- Surroundings in which a set flag stays set. -/
def Surroundings.KeepsCancelled (s : Surroundings) : Prop :=
  ∀ check, s.isCancelled check = true →
    s.isCancelled (check + 1) = true

------------------------------------------------------------
-- Worlds
------------------------------------------------------------

/- A tree, and how much has been done and asked before. -/
structure World where
  tree : Tree
  steps : Nat
  checks : Nat

namespace World

/- The world of a tree before anything is done. -/
def ofTree (tree : Tree) : World :=
  ⟨tree, 0, 0⟩

/- A world after one more step. -/
def advance (w : World) : World :=
  { w with steps := w.steps + 1 }

/- Look at the tree, unless the step fails. -/
def look
    {α : Type}
    (s : Surroundings)
    (w : World)
    (view : Tree → Except StorageFault α) :
    Except StorageFault α × World :=
  match s.failure w.steps with
  | some fault => (.error fault, w.advance)
  | none => (view w.tree, w.advance)

/- Change the tree, unless the step fails. -/
def act
    (s : Surroundings)
    (w : World)
    (change : Tree → Except StorageFault Tree) :
    Except StorageFault Unit × World :=
  match s.failure w.steps with
  | some fault => (.error fault, w.advance)
  | none =>
      match change w.tree with
      | .error fault => (.error fault, w.advance)
      | .ok tree => (.ok (), { w.advance with tree })

/- The node at names that are to lead to a directory. -/
def directoryAt
    (names : List String)
    (tree : Tree) : Except StorageFault Node := do
  match ← tree.find names with
  | .file _ => throw .notDirectory
  | .directory entries => return .directory entries

/- The node at a path, as the form of the path demands. -/
def node
    (path : Path)
    (tree : Tree) : Except StorageFault Node := do
  path.passed.forM fun names =>
    discard (directoryAt names tree)
  match path.form with
  | .empty => throw .notFound
  | .plain => tree.find path.names
  | .directory => directoryAt path.names tree

/- Do an operation and answer it. -/
def perform
    (s : Surroundings)
    (w : World) :
    (operation : Operation) → operation.Answer × World
| .createAll path => w.act s (Tree.createAll path.names)
| .create path => w.act s (Tree.create path.names)
| .write path content =>
    w.act s (Tree.write path.names content)
| .rename source target =>
    w.act s (Tree.rename source.names target.names)
| .removeAll path => w.act s (Tree.removeAll path.names)
| .read path =>
    w.look s fun tree => do
      match ← node path tree with
      | .file content => return content
      | .directory _ => throw .isDirectory
| .size path =>
    w.look s fun tree => do
      match ← node path tree with
      | .file content => return content.length
      | .directory _ => return Tree.directorySize
| .isPresent path => ((node path w.tree).isOk, w.advance)
| .isFile path =>
    ( match node path w.tree with
      | .ok (.file _) => true
      | _ => false,
      w.advance )
| .now => (s.instant w.steps, w.advance)
| .freshName => (s.name w.steps, w.advance)
| .isCancelled =>
    ( s.isCancelled w.checks,
      { w.advance with checks := w.checks + 1 } )

end World

------------------------------------------------------------
-- Running Programs
------------------------------------------------------------

namespace Program

variable {α : Type}

/- Run a program to its end. -/
def run
    (s : Surroundings) :
    Program α → World → α × World
| .done value, w => (value, w)
| .step operation next, w =>
    let (answer, w) := w.perform s operation
    (next answer).run s w

/- The worlds between the steps of a program, in order. -/
def worlds
    (s : Surroundings) :
    Program α → World → List World
| .done _, w => [w]
| .step operation next, w =>
    w ::
      (let (answer, w) := w.perform s operation
      (next answer).worlds s w)

end Program

end Federation
