import MultiCluster.Files.Tree
import MultiCluster.Gather.Options
import MultiCluster.Gather.ResourceRedaction
import MultiCluster.Gather.Source
import MultiCluster.Yaml.Printer

/-! Gathering from one cluster. Every module and type that is wanted is a part of its own: a part
that fails does not keep the others from being gathered, and all failures are reported together.
A cluster's files lie in `<directory>/<cluster>/<module>/`. -/
namespace MultiCluster.Gather

open Cluster (Kind)

structure Module where
  name : String
  namespaceName : String
  /-- Label selectors of the pods whose logs belong to the module. -/
  selectors : List String
  /-- The kinds of objects that belong to the module. -/
  kinds : List Kind
  deriving DecidableEq, Repr

/-- The modules in the order in which they are gathered. -/
def modules : List Module := [
  ⟨connectivity, "submariner-operator",
    ["app=submariner-gateway", "app=submariner-routeagent", "app=submariner-globalnet",
      "app=submariner-metrics-proxy"],
    [.daemonSet, .configMap]⟩,
  ⟨serviceDiscovery, "submariner-operator",
    ["app=submariner-lighthouse-agent", "app=submariner-lighthouse-coredns"],
    [.deployment, .configMap]⟩,
  ⟨brokerModule, "submariner-k8s-broker", [], [.broker, .configMap, .secret]⟩,
  ⟨operatorModule, "submariner-operator", ["name=submariner-operator"], [.deployment]⟩]

def isFileChar (c : Char) : Bool := c.isAlphanum || c == '.' || c == '_' || c == '-'

/-- A name in which every character that has no place in a file name is an underscore. -/
def fileName (name : String) : String :=
  String.ofList (name.toList.map fun c => if isFileChar c then c else '_')

/-- What gathering asks of its surroundings: questions to the source, files to write, and events
to report. -/
abbrev Requests : Interface := (Source.plus Files.Saves).plus Reports

abbrev Gathering (α : Type) := Action Requests Error α

def ask (q : Question) : Program Requests (Source.Answer q) :=
  .ask (I := Requests) (.inl (.inl q)) .done

def tell (e : Event) : Program Requests Unit := .ask (I := Requests) (.inr e) .done

def save (s : Files.Saving) : Gathering Unit :=
  .mk (.ask (I := Requests) (.inl (.inr s)) fun (result : Except Files.Problem Unit) =>
    .done (match result with
      | .ok () => .ok ()
      | .error p => .error (.io p.message)))

def logFile (pod container : String) : String := fileName (pod ++ "_" ++ container ++ ".log")

def objectFile (k : Kind) (name : String) : String :=
  fileName (Text.lower k.name ++ "_" ++ name ++ ".yaml")

def keptLog (o : Options) (text : String) : String :=
  if o.includeSensitiveData then text else redactLog text

def keptResource (o : Options) (kind : String) (v : Json) : Json :=
  if o.includeSensitiveData then v else redactResource kind v

/-- An object as it is kept: without the record of who manages which field. -/
def keptObject (o : Options) (k : Kind) (v : Json) : Json :=
  keptResource o k.name (v.updateAt (Fields.erase "managedFields") ["metadata"])

/-- Gather the log of one container; how many files that makes. A log that cannot be read is no
failure. -/
def gatherLog (o : Options) (m : Module) (directory : String) (pod : Pod) (container : String) :
    Gathering Nat :=
  .mk ((ask (.log m.namespaceName pod.name container)).bind fun (answer : Except Error String) =>
    match answer with
    | .ok text => ((do
        save ⟨directory, logFile pod.name container, keptLog o text⟩
        pure 1) : Gathering Nat).run
    | .error e => do
      tell (.warning ("No log for " ++ pod.name ++ "/" ++ container ++ ": " ++ e.message))
      pure (.ok 0))

def total {α : Type} (work : α → Gathering Nat) : List α → Gathering Nat
  | [] => pure 0
  | a :: rest => do
    let n ← work a
    let m ← total work rest
    pure (n + m)

def gatherSelected (o : Options) (m : Module) (directory selector : String) : Gathering Nat := do
  let pods ← (.mk (ask (.pods m.namespaceName selector)) : Gathering (List Pod))
  total (fun pod => total (gatherLog o m directory pod) pod.containers) pods

def gatherLogs (o : Options) (m : Module) (directory : String) : Gathering Nat :=
  total (gatherSelected o m directory) m.selectors

def gatherObject (o : Options) (directory : String) (k : Kind) (v : Json) : Gathering Nat := do
  let kept := keptObject o k v
  let name := (Cluster.Object.name? kept).getD "unnamed"
  save ⟨directory, objectFile k name, Yaml.document kept⟩
  pure 1

def gatherKind (o : Options) (m : Module) (directory : String) (k : Kind) : Gathering Nat := do
  let objects ← (.mk (ask (.objects m.namespaceName k)) : Gathering (List Json))
  total (gatherObject o directory k) objects

def gatherResources (o : Options) (m : Module) (directory : String) : Gathering Nat :=
  total (gatherKind o m directory) m.kinds

structure Part where
  moduleName : String
  typeName : String
  /-- What is counted in the end. -/
  unit : String
  work : Gathering Nat

def Part.title (p : Part) : String := p.moduleName ++ " " ++ p.typeName

/-- Gather a part; the failure, if there is one. -/
def Part.gather (p : Part) : Program Requests (Option String) := do
  tell (.start ("Gathering " ++ p.title))
  match ← p.work.run with
  | .ok count =>
    tell (.success ("Gathered " ++ Text.decimal count ++ " " ++ p.moduleName ++ " " ++ p.unit))
    pure none
  | .error e =>
    tell (.failure ("Failed to gather " ++ p.title ++ ": " ++ e.message))
    pure (some (p.title ++ ": " ++ e.message))

def clusterDirectory (o : Options) (cluster : String) : String :=
  Files.join o.directory (fileName cluster)

def Module.parts (o : Options) (cluster : String) (m : Module) : List Part :=
  let directory := Files.join (clusterDirectory o cluster) m.name
  (if o.wantsType logs && !m.selectors.isEmpty then
    [⟨m.name, logs, "log(s)", gatherLogs o m directory⟩] else []) ++
  (if o.wantsType resources then
    [⟨m.name, resources, "resource(s)", gatherResources o m directory⟩] else [])

def parts (o : Options) (cluster : String) : List Part :=
  (modules.filter fun m => o.wantsModule m.name).flatMap (Module.parts o cluster)

def gatherParts : List Part → Program Requests (List String)
  | [] => pure []
  | p :: rest => do
    let failure ← p.gather
    let others ← gatherParts rest
    pure (failure.toList ++ others)

def collect (o : Options) (cluster : String) : Gathering Unit :=
  .mk ((gatherParts (parts o cluster)).bind fun failures =>
    .done (if failures.isEmpty then .ok ()
      else .error (.internal (Text.join "; " failures) "gather")))

/-- Gathering from a cluster that is itself the source. -/
def collectFromCluster (o : Options) (cluster : String) :
    Action ((Cluster.Calls.plus Files.Saves).plus Reports) Error Unit :=
  .mk (Program.substituteLeft (fun r => Program.substituteLeft askCluster (.ask r .done))
    (collect o cluster).run)

end MultiCluster.Gather
