/-! Why a command line makes no command. -/
namespace MultiCluster.CommandLine

inductive Refusal where
  /-- It asks for help. -/
  | help
  /-- It asks for the version. -/
  | version
  /-- It ends where a command is expected. -/
  | missingCommand
  | unknownCommand
  /-- A word has no place where it stands. -/
  | unknownArgument
  /-- An option has no value, or an empty path. -/
  | missingValue
  /-- A value is not a number that fits. -/
  | malformedValue
  /-- A switch has a value. -/
  | unexpectedValue
  /-- An option is repeated, or stands beside one that it excludes. -/
  | conflict
  deriving DecidableEq, Repr

def Refusal.message : Refusal → String
  | .help => "usage: subctl deploy-broker|gather|cloud prepare|cloud cleanup [options]"
  | .version => "subctl"
  | .missingCommand => "a command is missing"
  | .unknownCommand => "unknown command"
  | .unknownArgument => "unexpected argument"
  | .missingValue => "an option has no value"
  | .malformedValue => "a value is not a number that fits"
  | .unexpectedValue => "a switch takes no value"
  | .conflict => "options cannot be used together or twice"

/-- Help and version are answers and no failures. -/
def Refusal.exitCode : Refusal → Nat
  | .help => 0
  | .version => 0
  | _ => 2

end MultiCluster.CommandLine
