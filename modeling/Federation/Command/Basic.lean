import Federation.Command.Generate
import Federation.Command.Judge
import Federation.Command.RegistryCheck

/-
  This file defines the answer to the arguments of a command
  line.

  Key definitions include:
    * `CommandLine.reply`
-/

namespace Federation

namespace CommandLine

/- The line that tells the version of the commands. -/
def versionLine : String := "fedconf 0.1.0"

/- Carry out a command. -/
def carryOut
    (environment : Settings.Environment)
    (shared : SharedArguments) : Command → Program Reply
| .generate arguments =>
    Generate.reply environment shared arguments
| .validate arguments => Judge.document arguments
| .certificate arguments => Judge.certificate arguments
| .registryCheck path =>
    RegistryCheck.reply environment shared path

/- The answer to arguments in an environment. -/
def reply
    (environment : Settings.Environment)
    (words : List String) : Program Reply :=
  match Request.ofArguments words with
  | .command shared command =>
      carryOut environment shared command
  | .version => .done (.output 0 [versionLine])
  | .help => .done (.output 0 [Reply.usage])
  | .misuse => .done .misuse

end CommandLine

end Federation
