import MultiCluster.Text.Join
import MultiCluster.Text.Quoted
import MultiCluster.Text.Numeral

/-! What can go wrong, by cause. A failed deployment step carries the error that made it fail, and
the classes below look through it to that cause. -/
namespace MultiCluster

inductive ApiError where
  /-- The server answered with a failure. -/
  | answer (status message reason : String) (code : Nat)
  /-- The server was not reached, or the connection broke. -/
  | connection (text : String)
  /-- The exchange broke off, or went against the protocol. -/
  | protocol (text : String)
  /-- An event stream broke. -/
  | events (text : String)
  /-- A line of a stream did not end. -/
  | lines
  /-- The answer is not of the expected type. -/
  | payload (detail : String)
  /-- The client could not make the call, or use the answer, for a reason that the text gives. -/
  | client (text : String)
  deriving DecidableEq, Repr

def ApiError.message : ApiError → String
  | .answer status message reason code =>
    "ApiError: " ++ message ++ ": " ++ reason ++ " (ErrorResponse \x7b status: " ++
      Text.quoted status ++ ", message: " ++ Text.quoted message ++ ", reason: " ++
      Text.quoted reason ++ ", code: " ++ Text.decimal code ++ " \x7d)"
  | .connection text => "ServiceError: " ++ text
  | .protocol text => "HyperError: " ++ text
  | .events text => "Error reading events stream: " ++ text
  | .lines => "Error finding newline character"
  | .payload detail => "Error deserializing response: " ++ detail
  | .client text => text

/-- Broken connections, exchanges and streams and answers from 500 on may pass if the call is
repeated. -/
def ApiError.isTransient : ApiError → Bool
  | .answer _ _ _ code => 500 ≤ code
  | .connection _ => true
  | .protocol _ => true
  | .events _ => true
  | .lines => false
  | .payload _ => false
  | .client _ => false

inductive Error where
  | invalidConfiguration (message : String)
  | conflictingState (namespaceName message : String)
  | conflict (resource message : String)
  | stepFailure (step cluster : String) (source : Error)
  | clusterFailures (failed : List (String × String))
  | cancelled (operation : String)
  | api (source : ApiError)
  | io (text : String)
  | serialization (message : String) (kind : Option String)
  | internal (message context : String)
  deriving DecidableEq, Repr

namespace Error

def unknownContext : String := "unknown"

def failureText (f : String × String) : String := f.1 ++ " (" ++ f.2 ++ ")"

def message : Error → String
  | .invalidConfiguration m => "invalid configuration: " ++ m
  | .conflictingState ns m => "conflicting state in namespace " ++ ns ++ ": " ++ m
  | .conflict resource m => "concurrent modification of " ++ resource ++ ": " ++ m
  | .stepFailure step cluster source =>
    "step '" ++ step ++ "' failed on cluster " ++ cluster ++ ": " ++ source.message
  | .clusterFailures failed =>
    "operation failed on " ++ Text.decimal failed.length ++ " cluster(s): " ++
      Text.join ", " (failed.map failureText)
  | .cancelled operation => "cancelled: " ++ operation
  | .api source => "kubernetes error: " ++ source.message
  | .io text => "io error: " ++ text
  | .serialization m _ => "serialization error: " ++ m
  | .internal m context => "internal error [" ++ context ++ "]: " ++ m

/-- An API error met while working on a resource: 409 is a conflict with another writer. -/
def ofApi (resource : String) : ApiError → Error
  | .answer status message reason code =>
    if code = 409 then .conflict resource message
    else .api (.answer status message reason code)
  | e => .api e

/-- Whether the single call that failed may succeed if it is repeated at once. -/
def isTransient : Error → Bool
  | .api source => source.isTransient
  | _ => false

/-- Whether the whole operation may succeed if it is run again without a change. -/
def isRetryable : Error → Bool
  | .invalidConfiguration _ => false
  | .conflictingState _ _ => false
  | .conflict _ _ => true
  | .stepFailure _ _ source => source.isRetryable
  | .clusterFailures _ => true
  | .cancelled _ => true
  | .api source => source.isTransient
  | .io _ => true
  | .serialization _ _ => false
  | .internal _ _ => true

/-- Whether the input was rejected, directly or as the cause of a failed step. -/
def isInvalidConfiguration : Error → Bool
  | .invalidConfiguration _ => true
  | .stepFailure _ _ source => source.isInvalidConfiguration
  | _ => false

def step? : Error → Option String
  | .stepFailure step _ _ => some step
  | _ => none

def failedClusters : Error → List String
  | .clusterFailures failed => failed.map (·.1)
  | .stepFailure _ cluster _ => [cluster]
  | _ => []

end Error
end MultiCluster
