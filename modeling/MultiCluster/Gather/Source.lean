import MultiCluster.Cluster.Client
import MultiCluster.Json.Printer
import MultiCluster.Report

/-! Where gathered data comes from: a source answers three kinds of questions. A cluster is a
source. -/
namespace MultiCluster.Gather

structure Pod where
  name : String
  containers : List String
  deriving DecidableEq, Repr

inductive Question where
  /-- The pods of a namespace that a label selector picks. -/
  | pods (namespaceName selector : String)
  /-- The log of a container. -/
  | log (namespaceName pod container : String)
  /-- All objects of a kind in a namespace. -/
  | objects (namespaceName : String) (kind : Cluster.Kind)
  deriving DecidableEq, Repr

def Source : Interface where
  Request := Question
  Answer
    | .pods _ _ => Except Error (List Pod)
    | .log _ _ _ => Except Error String
    | .objects _ _ => Except Error (List Json)

open Cluster

def Pod.ofObject? (v : Json) : Option Pod :=
  (Object.name? v).map fun name =>
    ⟨name, (v.itemsAt ["spec", "containers"]).filterMap fun c => c.textAt? ["name"]⟩

def podsOf (ns selector : String) : Work (List Pod) := do
  let pods ← (Collection.inNamespace .pod ns).list (ns ++ "/pods") (some selector)
  pure (pods.filterMap Pod.ofObject?)

def takeText (r : Reply) : Except ApiError String :=
  match r.payload with
  | .error e => .error e
  | .ok (.text s) => .ok s
  | .ok (.document v) => .ok v.compact

def logOf (ns pod container : String) : Work String :=
  exchange (pod ++ "/" ++ container) ((Collection.inNamespace .pod ns).logRequest pod container)
    takeText

/-- The items of a reply; a kind that the cluster does not know has none. -/
def takeObjects (k : Kind) (r : Reply) : Except ApiError (List Json) :=
  match r.read k.readList with
  | .error (.answer status message reason code) =>
    if code = 404 then .ok [] else .error (.answer status message reason code)
  | result => result

def objectsOf (ns : String) (k : Kind) : Work (List Json) :=
  exchange (ns ++ "/" ++ k.name) ((Collection.inNamespace k ns).listRequest none) (takeObjects k)

def askCluster : (q : Question) → Program Calls (Source.Answer q)
  | .pods ns selector => (podsOf ns selector).run
  | .log ns pod container => (logOf ns pod container).run
  | .objects ns k => (objectsOf ns k).run

end MultiCluster.Gather
