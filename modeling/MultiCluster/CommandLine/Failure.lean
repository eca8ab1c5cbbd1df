import MultiCluster.Error

/-! How a command fails. -/
namespace MultiCluster.CommandLine

inductive Failure where
  | operation (e : Error)
  | io (text : String)
  | validation (text : String)
  | command (text : String)
  deriving DecidableEq, Repr

namespace Failure

def message : Failure → String
  | .operation e => e.message
  | .io text => "io error: " ++ text
  | .validation text => "validation error: " ++ text
  | .command text => "command failed: " ++ text

def isInvalidConfiguration : Failure → Bool
  | .operation e => e.isInvalidConfiguration
  | .io _ => false
  | .validation _ => true
  | .command _ => false

/-- Rejected input is told from every other failure. -/
def exitCode (f : Failure) : Nat := if f.isInvalidConfiguration then 2 else 1

end Failure
end MultiCluster.CommandLine
