import MultiCluster.Program

/-! Progress of an operation as its reader sees it. -/
namespace MultiCluster

inductive EventKind where
  | start | success | warning | failure | finish
  deriving DecidableEq, Repr

/-- Something to report; `finish` closes a step without a message. -/
structure Event where
  kind : EventKind
  message : String
  deriving DecidableEq, Repr

namespace Event

def start (m : String) : Event := ⟨.start, m⟩
def success (m : String) : Event := ⟨.success, m⟩
def warning (m : String) : Event := ⟨.warning, m⟩
def failure (m : String) : Event := ⟨.failure, m⟩
def finish : Event := ⟨.finish, ""⟩

/-- The event with its message marked by a scope, such as a cluster's name. -/
def inScope (scope : String) (e : Event) : Event :=
  if e.kind = .finish then e else { e with message := "[" ++ scope ++ "] " ++ e.message }

/-- The event as it passes through scopes, the first of which is nearest to the reader. -/
def inScopes (scopes : List String) (e : Event) : Event :=
  scopes.foldr inScope e

def line? (e : Event) : Option String :=
  match e.kind with
  | .start => some (" • " ++ e.message ++ "...")
  | .success => some (" ✓ " ++ e.message)
  | .warning => some (" ⚠ " ++ e.message)
  | .failure => some (" ✗ " ++ e.message)
  | .finish => none

end Event

def Reports : Interface where
  Request := Event
  Answer _ := Unit

def report (e : Event) : Program Reports Unit := .ask (I := Reports) e .done

end MultiCluster
