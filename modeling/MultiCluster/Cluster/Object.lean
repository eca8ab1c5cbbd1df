import MultiCluster.Broker.Spec
import MultiCluster.Cluster.Kind

/-! API objects as JSON values of their kind. -/
namespace MultiCluster.Cluster

namespace Kind

def object (k : Kind) (metadata : Fields) (rest : Fields) : Json :=
  .obj (Fields.ofList (("apiVersion", .str k.apiVersion) :: ("kind", .str k.name) ::
    ("metadata", .obj (Fields.ofList metadata)) :: rest))

/-- A stated API version or kind must be the right one. -/
def agrees (expected : String) : Option Json → Bool
  | none => true
  | some (.str s) => s == expected
  | some _ => false

/-- An object of a kind whose type is known field by field. -/
def readTyped (k : Kind) (v : Json) : Except String Json :=
  match v with
  | .obj given =>
    if agrees k.apiVersion (Fields.find? "apiVersion" given) &&
        agrees k.name (Fields.find? "kind" given) then
      (Shape.readFields given (Shape.req "metadata" Shape.metadata :: k.fields)).map fun fields =>
        .obj (Fields.ofList (("apiVersion", .str k.apiVersion) :: ("kind", .str k.name) :: fields))
    else .error "expected another kind"
  | _ => .error "expected an object"

/-- A broker must have metadata and a spec. -/
def readBroker (v : Json) : Except String Json := do
  match v.get? "metadata", v.get? "spec" with
  | some metadata, some spec =>
    let metadata ← Shape.metadata.read metadata
    let spec ← BrokerSpec.ofJson spec
    pure (.obj [("apiVersion", .str broker.apiVersion), ("kind", .str broker.name),
      ("metadata", metadata), ("spec", spec.toJson)])
  | _, _ => .error "expected metadata and a spec"

/-- An object of which only the metadata is typed. -/
def readUntyped (v : Json) : Except String Json :=
  match v with
  | .obj given =>
    match Fields.find? "metadata" given with
    | none => .ok v
    | some metadata => (Shape.metadata.read metadata).map fun m => v.set "metadata" m
  | _ => .error "expected an object"

def read (k : Kind) (v : Json) : Except String Json :=
  match k with
  | .broker => readBroker v
  | .machineSet => readUntyped v
  | k => k.readTyped v

def readList (k : Kind) (v : Json) : Except String (List Json) :=
  match v.get? "items" with
  | some (.arr items) => items.mapM k.read
  | some .null => .ok []
  | _ => .error "expected items"

end Kind

namespace Object

def name? (v : Json) : Option String := v.textAt? ["metadata", "name"]

def version? (v : Json) : Option String := v.textAt? ["metadata", "resourceVersion"]

def label? (key : String) (v : Json) : Option String := v.textAt? ["metadata", "labels", key]

def hasLabel (key : String) (v : Json) : Bool := (v.at? ["metadata", "labels", key]).isSome

def metadata (v : Json) : Fields := v.fieldsAt ["metadata"]

/-- The object as an update of what was read under a version. -/
def withVersion (version : Option String) (v : Json) : Json :=
  match version with
  | none => v
  | some s => v.updateAt (Fields.insert "resourceVersion" (.str s)) ["metadata"]

/-- Name and namespace, the metadata that every namespaced object has. -/
def named (name ns : String) : Fields := [("name", .str name), ("namespace", .str ns)]

end Object
end MultiCluster.Cluster
