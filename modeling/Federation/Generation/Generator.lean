import Federation.Generation.Versions
import Federation.Validation

/-
  This file defines generators, each of which generates and
  judges the documents of one version, and sets of them.

  Key definitions include:
    * `Generator`
    * `Generator.v1`, `Generator.v2`
    * `GeneratorSet`
    * `GeneratorSet.register`
    * `GeneratorSet.setEligibility`
    * `GeneratorError`
-/

namespace Federation

------------------------------------------------------------
-- Generators
------------------------------------------------------------

/-
  The generator of a version: whether the version may become
  the current one, and how its documents are generated at an
  instant and judged.
-/
structure Generator where
  version : Version
  isEligible : Bool
  generate :
    (kind : DocumentKind) → Instant → Registry →
      Except GenerationError (Document kind)
  validate :
    (kind : DocumentKind) → Document kind →
      Except ParameterError Unit

namespace Generator

/- The generator of given content, judged by a version's rules. -/
def ofContent
    (version : Version)
    (content : DocumentKind → Registry →
      Except GenerationFault Json.Members) : Generator :=
  { version
    isEligible := true
    generate := fun kind now r =>
      match content kind r with
      | .error fault => .error ⟨kind, version, fault⟩
      | .ok members => .ok (Document.new kind version now members)
    validate := fun _ document =>
      Validation.validateDocument version document }

/- The generator of the first version. -/
def v1 : Generator :=
  ofContent .v1 fun
    | .privateParameters => Content.privateV1
    | .sharedParameters => Content.sharedV1

/- The generator of the second version. -/
def v2 : Generator :=
  ofContent .v2 fun
    | .privateParameters => Content.privateV2
    | .sharedParameters => Content.sharedV2

end Generator

------------------------------------------------------------
-- Errors
------------------------------------------------------------

/- What a generator is asked for. -/
inductive GeneratorOperation where
| generate (kind : DocumentKind)
| validate (kind : DocumentKind)
deriving DecidableEq, Repr

/- The name of an operation. -/
def GeneratorOperation.name : GeneratorOperation → String
| .generate kind => s!"generate_{kind.name}_parameters"
| .validate kind => s!"validate_{kind.name}_parameters"

/- Why a set of generators does not do as asked. -/
inductive GeneratorError where
| unsupported
    (version : Version)
    (operation : GeneratorOperation)
| duplicate (version : Version)
| generation (cause : GenerationError)
| validation (cause : ParameterError)
deriving DecidableEq

/- The wording of an error. -/
def GeneratorError.message : GeneratorError → String
| .unsupported version operation =>
    s!"{operation.name} is not supported for configuration version {version}"
| .duplicate version =>
    s!"a generator for configuration version {version} is already registered"
| .generation cause => cause.message
| .validation cause => cause.message

------------------------------------------------------------
-- Sets
------------------------------------------------------------

/- Generators under the versions they are registered for. -/
structure GeneratorSet where
  table : Table Version Generator

namespace GeneratorSet

/- The set of no generators. -/
def empty : GeneratorSet :=
  ⟨[]⟩

/- The set of the library's own generators. -/
def builtin : GeneratorSet :=
  ⟨[(.v1, .v1), (.v2, .v2)]⟩

/- The registered versions in ascending order. -/
def versions (s : GeneratorSet) : List Version :=
  s.table.keys

/- The generators in ascending order of versions. -/
def generators (s : GeneratorSet) : List Generator :=
  s.table.map Prod.snd

/- There is no generator in a set. -/
def isEmpty (s : GeneratorSet) : Bool :=
  s.table.isEmpty

/- The generator of a version, for an operation. -/
def get
    (s : GeneratorSet)
    (version : Version)
    (operation : GeneratorOperation) :
    Except GeneratorError Generator :=
  match s.table.get? version with
  | some generator => .ok generator
  | none => .error (.unsupported version operation)

/- A set with one more generator, of a new version. -/
def register
    (s : GeneratorSet)
    (generator : Generator) :
    Except GeneratorError GeneratorSet :=
  match s.table.get? generator.version with
  | some _ => .error (.duplicate generator.version)
  | none =>
      .ok ⟨s.table.insert generator.version generator⟩

/- A set of generators registered one after the other. -/
def registerAll
    (s : GeneratorSet) :
    List Generator → Except GeneratorError GeneratorSet
| [] => .ok s
| generator :: rest => do
    let s ← s.register generator
    s.registerAll rest

/- A set in which a version may become current, or may not. -/
def setEligibility
    (s : GeneratorSet)
    (version : Version)
    (isEligible : Bool) :
    Except GeneratorError GeneratorSet := do
  let generator ←
    s.get version (.generate .privateParameters)
  return ⟨s.table.insert version { generator with isEligible }⟩

/- The document of a kind and version. -/
def generate
    (s : GeneratorSet)
    (kind : DocumentKind)
    (version : Version)
    (now : Instant)
    (r : Registry) :
    Except GeneratorError (Document kind) := do
  let generator ← s.get version (.generate kind)
  (generator.generate kind now r).mapError .generation

/- Judge a document by the rules of a version's generator. -/
def validate
    (s : GeneratorSet)
    {kind : DocumentKind}
    (version : Version)
    (document : Document kind) :
    Except GeneratorError Unit := do
  let generator ← s.get version (.validate kind)
  (generator.validate kind document).mapError .validation

end GeneratorSet

end Federation
