import MultiCluster.Cluster.Client
import MultiCluster.Globalnet.Record

/-! The globalnet record as a cluster stores it. Members take their blocks from the range in it,
so an existing record is extended and never redefined. -/
namespace MultiCluster.Globalnet.Record

open Cluster

def maps (ns : String) : Collection := .inNamespace .configMap ns

def label (ns : String) : String := (maps ns).label mapName

def stored? (ns : String) : Work (Option (Json × Record)) := do
  match ← persistently ((maps ns).find? (label ns) mapName) with
  | none => pure none
  | some configMap =>
    match ofConfigMap configMap with
    | .ok r => pure (some (configMap, r))
    | .error e => throw e

def verdict (existing : Option (Json × Record)) (desired : Record) (ns : String) :
    Work Decision :=
  match checkExisting (existing.map (·.2)) desired ns with
  | .ok a => pure a
  | .error e => throw e

def validateStored (ns : String) (desired : Record) : Work Unit := do
  let existing ← stored? ns
  let _ ← verdict existing desired ns
  pure ()

/-- Write the record if that is called for. An update keeps the allocations and is bound to the
version that was read. -/
def ensureStored (ns : String) (desired : Record) : Work Outcome := do
  let existing ← stored? ns
  match ← verdict existing desired ns, existing with
  | .create, _ =>
    let _ ← persistently ((maps ns).create (label ns) (desired.toConfigMap ns))
    pure .created
  | .update, some (configMap, current) =>
    let updated := { desired with clusters := current.clusters }
    let _ ← persistently ((maps ns).replace (label ns) mapName
      (Object.withVersion (Object.version? configMap) (updated.toConfigMap ns)))
    pure .updated
  | .update, none => throw (.internal "update decided without a stored record" "globalnet")
  | .unchanged, _ => pure .unchanged

end MultiCluster.Globalnet.Record
