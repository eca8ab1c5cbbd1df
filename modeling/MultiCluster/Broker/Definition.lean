import MultiCluster.Cluster.Kind
import MultiCluster.Json.Basic

/-! The custom resource definition of brokers: what a cluster must know before it stores one. -/
namespace MultiCluster.BrokerSpec

def specSchema : Json := Json.object [
  ("description", .str "Desired state of the broker control point\n\nField names follow the operator's API so existing objects round-trip."),
  ("properties", Json.object [
    ("components", Json.object [
      ("default", .arr []),
      ("description", .str "Requested components (service-discovery, connectivity)"),
      ("items", Json.object [("type", .str "string")]),
      ("type", .str "array")]),
    ("defaultGlobalnetClusterSize", Json.object [
      ("description", .str "Addresses allotted to each joining cluster (0 = compute a default)"),
      ("format", .str "uint32"),
      ("minimum", .float Binary64.zero),
      ("type", .str "integer")]),
    ("globalnetCIDRRange", Json.object [
      ("description", .str "Cluster-spanning globalnet range"),
      ("type", .str "string")]),
    ("globalnetEnabled", Json.object [
      ("default", .bool false),
      ("description", .str "Whether globalnet is enabled"),
      ("type", .str "boolean")])]),
  ("type", .str "object")]

def schema : Json := Json.object [
  ("description", .str "Auto-generated derived type for BrokerSpec via `CustomResource`"),
  ("properties", Json.object [("spec", specSchema)]),
  ("required", Json.strings ["spec"]),
  ("title", .str "Broker"),
  ("type", .str "object")]

/-- The name of the definition: the plural of the kind in its group. -/
def definitionName : String :=
  Cluster.Kind.broker.plural ++ "." ++ Cluster.Kind.broker.group

def definition : Json := Json.object [
  ("apiVersion", .str Cluster.Kind.customResourceDefinition.apiVersion),
  ("kind", .str Cluster.Kind.customResourceDefinition.name),
  ("metadata", Json.object [("name", .str definitionName)]),
  ("spec", Json.object [
    ("group", .str Cluster.Kind.broker.group),
    ("names", Json.object [
      ("categories", .arr []),
      ("kind", .str Cluster.Kind.broker.name),
      ("plural", .str Cluster.Kind.broker.plural),
      ("shortNames", .arr []),
      ("singular", .str "broker")]),
    ("scope", .str "Namespaced"),
    ("versions", .arr [Json.object [
      ("additionalPrinterColumns", .arr []),
      ("name", .str Cluster.Kind.broker.version),
      ("schema", Json.object [("openAPIV3Schema", schema)]),
      ("served", .bool true),
      ("storage", .bool true),
      ("subresources", .obj [])]])])]

end MultiCluster.BrokerSpec
