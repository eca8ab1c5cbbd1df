import MultiCluster.Cluster.Object
import MultiCluster.Error

/-! Gateway nodes: workers with a label. Nodes that have it already count toward the number that is
wanted; the others are taken in the order of their names, so that repeated runs pick the same. -/
namespace MultiCluster.Gateway

open Cluster

def gatewayLabel : String := "submariner.io/gateway"

def controlPlaneLabels : List String :=
  ["node-role.kubernetes.io/control-plane", "node-role.kubernetes.io/master"]

def isGateway (node : Json) : Bool := Object.label? gatewayLabel node == some "true"

def isReady (node : Json) : Bool :=
  (node.itemsAt ["status", "conditions"]).any fun c =>
    c.textAt? ["type"] == some "Ready" && c.textAt? ["status"] == some "True"

/-- A ready worker that is no gateway yet. -/
def isCandidate (node : Json) : Bool :=
  !isGateway node && !(controlPlaneLabels.any fun l => Object.hasLabel l node) && isReady node

structure Selection where
  /-- Nodes that are gateways already. -/
  existing : List String
  /-- Nodes to be labelled. -/
  chosen : List String
  deriving DecidableEq, Repr

def namesWhere (p : Json → Bool) (nodes : List Json) : List String :=
  ((nodes.filter p).filterMap Object.name?).mergeSort fun a b => decide (a ≤ b)

/-- The nodes to label for `wanted` gateways in all. -/
def select (nodes : List Json) (wanted : Nat) : Except Error Selection :=
  let existing := namesWhere isGateway nodes
  let missing := wanted - existing.length
  if missing = 0 then .ok ⟨existing, []⟩
  else
    let candidates := namesWhere isCandidate nodes
    if candidates.length < missing then
      .error (.internal (Text.decimal wanted ++ " gateway(s) requested but only " ++
        Text.decimal existing.length ++ " exist and " ++ Text.decimal candidates.length ++
        " worker node(s) can be labelled") "gateway")
    else .ok ⟨existing, candidates.take missing⟩

end MultiCluster.Gateway
