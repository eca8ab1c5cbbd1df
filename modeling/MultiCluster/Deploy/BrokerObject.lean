import MultiCluster.Deploy.Operator

/-! The broker object. Specs are compared by what they mean, so the order of components and
globalnet settings without globalnet force no update; an update keeps the stored metadata. -/
namespace MultiCluster.Deploy.BrokerObject

open Cluster

def name : String := "submariner-broker"

def spec (broker : Json) : BrokerSpec :=
  match BrokerSpec.ofJson ((broker.get? "spec").getD .null) with
  | .ok s => s
  | .error _ => BrokerSpec.default

def action (existing : Option Json) (desired : BrokerSpec) : Decision :=
  match existing with
  | none => .create
  | some b => if (spec b).normalized = desired.normalized then .unchanged else .update

/-- The metadata of a stored broker, except who manages which field. -/
def keptMetadata (broker : Json) : Fields := Fields.erase "managedFields" (Object.metadata broker)

def desired (existing : Option Json) (ns : String) (s : BrokerSpec) : Json :=
  let metadata := match existing with
    | some b => keptMetadata b
    | none => Object.named name ns
  Kind.broker.object metadata [("spec", s.normalized.toJson)]

/-- Create or replace the broker object in a namespace, unless it already means the same. -/
def ensure (ns : String) (s : BrokerSpec) : Work Outcome := do
  let c : Collection := .inNamespace .broker ns
  let label := c.label name
  let existing ← persistently (c.find? label name)
  match action existing s with
  | .create =>
    let _ ← persistently (c.create label (desired existing ns s))
    pure .created
  | .update =>
    let _ ← persistently (c.replace label name (desired existing ns s))
    pure .updated
  | .unchanged => pure .unchanged

end MultiCluster.Deploy.BrokerObject
