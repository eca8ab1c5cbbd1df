import MultiCluster.Cluster.Decision
import MultiCluster.Cluster.Object
import MultiCluster.Globalnet.Settings
import MultiCluster.Json.Printer
import MultiCluster.Json.Record
import MultiCluster.Text.Case

/-! The globalnet record of a broker: its settings and the blocks that member clusters hold. It is
kept in a config map, whose entries are texts. -/
namespace MultiCluster.Globalnet

structure Allocation where
  clusterId : String
  blocks : List String
  deriving DecidableEq, Repr

structure Record where
  enabled : Bool
  range : String
  clusterSize : UInt32
  clusters : List Allocation
  deriving DecidableEq, Repr

namespace Record

def mapName : String := "submariner-globalnet-info"

def enabledKey : String := "globalnetEnabled"
def rangeKey : String := "globalnetCidrRange"
def sizeKey : String := "globalnetClusterSize"
def clustersKey : String := "clusterInfo"

def ofSpec (s : BrokerSpec) : Record := ⟨s.globalnetEnabled, s.globalnetRange, s.clusterSize, []⟩

/-- Disabled, without a range and without members: such a record may be replaced freely. -/
def isPlaceholder (r : Record) : Bool := !r.enabled && Text.blank r.range && r.clusters.isEmpty

def allocationJson (a : Allocation) : Json :=
  .obj [("clusterId", .str a.clusterId), ("globalCidr", Json.strings a.blocks)]

def clustersText (clusters : List Allocation) : String :=
  (Json.arr (clusters.map allocationJson)).compact

def entries (r : Record) : Fields := Fields.ofList [
  (enabledKey, .str (if r.enabled then "true" else "false")),
  (rangeKey, .str r.range),
  (sizeKey, .str (Text.decimal r.clusterSize.toNat)),
  (clustersKey, .str (clustersText r.clusters))]

def toConfigMap (r : Record) (ns : String) : Json :=
  Cluster.Kind.configMap.object (Cluster.Object.named mapName ns) [("data", .obj r.entries)]

/-- The cluster must be named; without blocks it holds none. -/
def allocation? (d : Json.Document) : Option Allocation := do
  match ← d.record? ["clusterId", "globalCidr"] with
  | [some id, none] => pure ⟨← id.string?, []⟩
  | [some id, some blocks] => pure ⟨← id.string?, ← blocks.strings?⟩
  | _ => none

def allocations? (text : String) : Option (List Allocation) := do
  let d ← Json.Document.parse? text
  (← d.items?).mapM allocation?

/-- An entry of a config map, empty if absent. -/
def entry (configMap : Json) (key : String) : String := (configMap.textAt? ["data", key]).getD ""

def readSize (text : String) : Except Error UInt32 :=
  if text == "" then .ok 0
  else match Text.word32? text with
    | some n => .ok n
    | none => .error (.serialization
        ("invalid " ++ sizeKey ++ " value " ++ Text.quoted text) (some "ConfigMap"))

def readClusters (text : String) : Except Error (List Allocation) :=
  if text == "" then .ok []
  else match allocations? text with
    | some clusters => .ok clusters
    | none => .error (.serialization "invalid cluster allocations" (some "ConfigMap"))

def ofConfigMap (configMap : Json) : Except Error Record := do
  let size ← readSize (entry configMap sizeKey)
  let clusters ← readClusters (entry configMap clustersKey)
  pure ⟨Text.equalsIgnoringCase (entry configMap enabledKey) "true",
    entry configMap rangeKey, size, clusters⟩

end Record

/-- Two ranges agree if they are the same block, or, where one is none, the same text. -/
def sameRange (a b : String) : Bool :=
  match Block.parse a, Block.parse b with
  | .ok x, .ok y => decide (x = y)
  | _, _ => Text.trim a == Text.trim b

/-- Compare a stored record with the desired one. A placeholder gives way to an enabled record;
otherwise flag and range are fixed, and so is the size once a cluster has joined. -/
def checkExisting (existing : Option Record) (desired : Record) (ns : String) :
    Except Error Decision :=
  match existing with
  | none => .ok .create
  | some e =>
    if e.isPlaceholder && desired.enabled then .ok .update
    else if e.enabled != desired.enabled then
      .error (.conflictingState ns ("broker was deployed with globalnet " ++
        (if e.enabled then "enabled" else "disabled") ++ "; redeploy with the same setting"))
    else if !sameRange e.range desired.range then
      .error (.conflictingState ns ("existing globalnet CIDR range " ++ e.range ++
        " conflicts with requested range " ++ desired.range))
    else if e.clusterSize == desired.clusterSize then .ok .unchanged
    else if !e.clusters.isEmpty then
      .error (.conflictingState ns ("cluster size " ++ Text.decimal desired.clusterSize.toNat ++
        " conflicts with size " ++ Text.decimal e.clusterSize.toNat ++ " already allotted to " ++
        Text.decimal e.clusters.length ++ " member cluster(s)"))
    else .ok .update

end MultiCluster.Globalnet
