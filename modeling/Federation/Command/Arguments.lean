import Federation.Document
import Federation.Storage.Path

/-
  This file defines the commands that arguments give. A
  command has options of its own, options that all commands
  share, and names of files.

  Key definitions include:
    * `Level`
    * `Given`
    * `Given.take`
    * `Command`
    * `Request.ofArguments`
-/

namespace Federation

------------------------------------------------------------
-- Commands
------------------------------------------------------------

/- What a run of generation is told by arguments. -/
structure GenerateArguments where
  registry : Option String
  heldBack : List Version
  isSequential : Bool
  asJson : Bool
deriving DecidableEq

/- What a judgement of a document is told by arguments. -/
structure ValidateArguments where
  kind : DocumentKind
  version : Option Version
  path : Path
deriving DecidableEq

/- What a judgement of a certificate is told by arguments. -/
structure CertificateArguments where
  path : Path
  name : Option String
  isAuthority : Bool
  isCurrent : Bool
  asJson : Bool
deriving DecidableEq

/- A command with its arguments. -/
inductive Command where
| generate (arguments : GenerateArguments)
| validate (arguments : ValidateArguments)
| certificate (arguments : CertificateArguments)
| registryCheck (path : Option Path)
deriving DecidableEq

/- What every command may be told. -/
structure SharedArguments where
  config : Option Path
  outputDir : Option String
deriving DecidableEq

/- What arguments ask for. -/
inductive Request where
| command (shared : SharedArguments) (command : Command)
| version
| help
| misuse
deriving DecidableEq

------------------------------------------------------------
-- Options
------------------------------------------------------------

/- How far the names of a command have been given. -/
inductive Level where
| top
| generate
| validate
| cert
| certValidate
| registry
| registryCheck
deriving DecidableEq, Repr

/- What an option takes. -/
inductive OptionKind where
/- Nothing. -/
| switch
/- Nothing, and it may be repeated. -/
| counter
/- The name of a file, which is not empty. -/
| path
/- Any text. -/
| text
/- A kind of documents. -/
| documentKind
/- A version. -/
| version
/- A version, and it may be repeated. -/
| versions
deriving DecidableEq, Repr

namespace OptionKind

/- A value follows the option. -/
def takesValue : OptionKind → Bool
| .switch => false
| .counter => false
| _ => true

/- The option may be given more than once. -/
def mayRepeat : OptionKind → Bool
| .counter => true
| .versions => true
| _ => false

/- The text is a value of the option. -/
def accepts (kind : OptionKind) (value : String) : Bool :=
  match kind with
  | .path => value ≠ ""
  | .documentKind => (DocumentKind.parse value).isOk
  | .version => (Version.parse value).isOk
  | .versions => (Version.parse value).isOk
  | _ => true

end OptionKind

namespace Level

/- The options that every command has. -/
def sharedOptions : List (String × OptionKind) :=
  [ ("verbose", .counter), ("log-json", .switch),
    ("config", .path), ("output-dir", .path) ]

/- The options of a command itself. -/
def ownOptions : Level → List (String × OptionKind)
| .generate =>
    [ ("registry", .path), ("hold-back", .versions),
      ("sequential", .switch), ("json", .switch) ]
| .validate =>
    [("kind", .documentKind), ("version", .version)]
| .certValidate =>
    [ ("name", .text), ("ca", .switch), ("current", .switch),
      ("json", .switch) ]
| _ => []

/- What an option of a command takes. -/
def option? (level : Level) (name : String) : Option OptionKind :=
  (level.ownOptions ++ sharedOptions).lookup name

/- The commands that may follow a command's name. -/
def commands : Level → List (String × Level)
| .top =>
    [ ("generate", .generate), ("validate", .validate),
      ("cert", .cert), ("registry", .registry) ]
| .cert => [("validate", .certValidate)]
| .registry => [("check", .registryCheck)]
| _ => []

/- How many names of files a command takes at most. -/
def fileCount : Level → Nat
| .validate => 1
| .certValidate => 1
| .registryCheck => 1
| _ => 0

end Level

------------------------------------------------------------
-- Reading Arguments
------------------------------------------------------------

/-
  What has been given: options with their values, those of
  the present command first, and the names of files.
-/
structure Given where
  level : Level
  options : List (Level × String × String)
  files : List String

/- Why the reading of arguments ends before their end. -/
inductive Stop where
| version
| help
| misuse
deriving DecidableEq, Repr

namespace Given

/- Add an option with its value. -/
def addOption
    (g : Given)
    (name : String)
    (kind : OptionKind)
    (value : String) : Except Stop Given :=
  let isRepeated :=
    g.options.any fun (level, other, _) =>
      level = g.level && other = name
  if isRepeated && !kind.mayRepeat then .error .misuse
  else if kind.accepts value then
    .ok { g with options := (g.level, name, value) :: g.options }
  else .error .misuse

/- Add the name of a file. -/
def addFile (g : Given) (name : String) : Except Stop Given :=
  if g.files.length < g.level.fileCount ∧ name ≠ "" then
    .ok { g with files := g.files ++ [name] }
  else .error .misuse

/- Add a word that is no option: a command or a file. -/
def addWord (g : Given) (word : String) : Except Stop Given :=
  match g.level.commands.lookup word with
  | some level => .ok { g with level }
  | none =>
      if word = "help" ∧ g.level.commands ≠ [] then
        .error .help
      else g.addFile word

/- Add the letters after a single dash. -/
def addLetters (g : Given) : List Char → Except Stop Given
| [] => .ok g
| 'v' :: rest => do
    let g ← g.addOption "verbose" .counter ""
    g.addLetters rest
| 'h' :: _ => .error .help
| 'V' :: _ =>
    .error (if g.level = .top then .version else .misuse)
| _ => .error .misuse

/- Add an option whose value is attached to its name. -/
def addAttached
    (g : Given)
    (name value : String) : Except Stop Given :=
  match g.level.option? name with
  | none => .error .misuse
  | some kind =>
      if kind.takesValue then g.addOption name kind value
      else .error .misuse

/- The word begins with a dash, and so is no value. -/
def isDashed (word : String) : Bool :=
  word.toList.head? = some '-' && word ≠ "-"

/- Read arguments one after the other. -/
def take : Given → List String → Except Stop Given
| g, [] => .ok g
| g, word :: rest =>
    match word.toList with
    | ['-', '-'] => rest.foldlM addFile g
    | '-' :: '-' :: chars =>
        let name :=
          String.ofList (chars.takeWhile (· ≠ '='))
        if chars.contains '=' then do
          let value := (chars.dropWhile (· ≠ '=')).drop 1
          let g ← g.addAttached name (String.ofList value)
          g.take rest
        else
          match g.level.option? name with
          | none =>
              .error
                (if name = "help" then .help
                else if name = "version" ∧ g.level = .top then
                  .version
                else .misuse)
          | some kind =>
              if kind.takesValue then
                match rest with
                | [] => .error .misuse
                | value :: rest =>
                    if isDashed value then .error .misuse
                    else do
                      let g ← g.addOption name kind value
                      g.take rest
              else do
                let g ← g.addOption name kind ""
                g.take rest
    | '-' :: c :: chars => do
        let g ← g.addLetters (c :: chars)
        g.take rest
    | _ => do
        let g ← g.addWord word
        g.take rest

------------------------------------------------------------
-- Commands from What Is Given
------------------------------------------------------------

/- The value of an option, the one given last. -/
def value? (g : Given) (name : String) : Option String :=
  (g.options.find? fun (_, other, _) => other = name).map
    fun (_, _, value) => value

/- The values of an option in the order given. -/
def values (g : Given) (name : String) : List String :=
  (g.options.reverse.filter fun (_, other, _) =>
    other = name).map fun (_, _, value) => value

/- The option is given. -/
def has (g : Given) (name : String) : Bool :=
  (g.value? name).isSome

/- The version that an option has as its value. -/
def version? (value : String) : Option Version :=
  (Version.parse value).toOption

/- The command that is given, if it is complete. -/
def command? (g : Given) : Option Command :=
  match g.level with
  | .generate =>
      some (.generate
        { registry := g.value? "registry"
          heldBack := (g.values "hold-back").filterMap version?
          isSequential := g.has "sequential"
          asJson := g.has "json" })
  | .validate => do
      let kind ← g.value? "kind"
      let kind ← (DocumentKind.parse kind).toOption
      let file ← g.files.head?
      return .validate
        { kind
          version := (g.value? "version").bind version?
          path := Path.ofText file }
  | .certValidate => do
      let file ← g.files.head?
      return .certificate
        { path := Path.ofText file
          name := g.value? "name"
          isAuthority := g.has "ca"
          isCurrent := g.has "current"
          asJson := g.has "json" }
  | .registryCheck =>
      some (.registryCheck (g.files.head?.map Path.ofText))
  | _ => none

/- What is given for every command. -/
def shared (g : Given) : SharedArguments :=
  { config := (g.value? "config").map Path.ofText
    outputDir := g.value? "output-dir" }

end Given

/- What arguments ask for. -/
def Request.ofArguments (words : List String) : Request :=
  match Given.take ⟨.top, [], []⟩ words with
  | .error .version => .version
  | .error .help => .help
  | .error .misuse => .misuse
  | .ok g =>
      match g.command? with
      | none => .misuse
      | some given => .command g.shared given

end Federation
