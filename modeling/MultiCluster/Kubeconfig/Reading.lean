import MultiCluster.Kubeconfig.Basic
import MultiCluster.Yaml.Document

/-! A library for kubeconfig files in plain YAML. It asks no more of users than a name, so that
every context with an address has a client. -/
namespace MultiCluster.Kubeconfig

open Yaml (Node)

def optionalText? (key : String) (entries : List (Node × Node)) : Option (Option String) := do
  match ← Node.only? key entries with
  | none => some none
  | some n => if n.isNull then some none else n.text?.map some

def text? (key : String) (entries : List (Node × Node)) : Option String := do
  (← Node.only? key entries).bind Node.text?

def mapping? : Node → Option (List (Node × Node))
  | .mapping entries => some entries
  | _ => none

def optionalRecord? (key : String) (entries : List (Node × Node)) :
    Option (Option (List (Node × Node))) := do
  match ← Node.only? key entries with
  | none => some none
  | some n => if n.isNull then some none else (mapping? n).map some

def optionalItems? (key : String) (entries : List (Node × Node)) : Option (List Node) := do
  match ← Node.only? key entries with
  | none => some []
  | some (.sequence items) => some items
  | some n => if n.isNull then some [] else none

def Cluster.ofNode? (n : Node) : Option Cluster := do
  let entries ← mapping? n
  let name ← text? "name" entries
  match ← optionalRecord? "cluster" entries with
  | none => pure ⟨name, none⟩
  | some cluster => pure ⟨name, some (← optionalText? "server" cluster)⟩

def Context.ofNode? (n : Node) : Option Context := do
  let entries ← mapping? n
  let name ← text? "name" entries
  match ← optionalRecord? "context" entries with
  | none => pure ⟨name, none⟩
  | some context =>
    let cluster ← text? "cluster" context
    let _ ← optionalText? "user" context
    pure ⟨name, some ⟨cluster, ← optionalText? "namespace" context⟩⟩

def isUser (n : Node) : Bool :=
  ((mapping? n).bind (text? "name")).isSome

def ofEntries? (entries : List (Node × Node)) : Option Kubeconfig := do
  let clusters ← (← optionalItems? "clusters" entries).mapM Cluster.ofNode?
  let contexts ← (← optionalItems? "contexts" entries).mapM Context.ofNode?
  if !(← optionalItems? "users" entries).all isUser then none
  pure ⟨← optionalText? "kind" entries, ← optionalText? "apiVersion" entries, clusters, contexts,
    ← optionalText? "current-context" entries⟩

def ofNode? (n : Node) : Option Kubeconfig := do ofEntries? (← n.entries?)

/-- Items whose name is new, behind those that are there. -/
def appendNew {α : Type} (name : α → String) (items added : List α) : List α :=
  items ++ added.filter fun a => !(items.any fun b => name b == name a)

def contradict : Option String → Option String → Bool
  | some a, some b => a != b
  | _, _ => false

/-- Both files as one; of equal names, and of single values, the first counts. -/
def merge? (a b : Kubeconfig) : Option Kubeconfig :=
  if contradict a.kind b.kind || contradict a.apiVersion b.apiVersion then none
  else some ⟨a.kind.or b.kind, a.apiVersion.or b.apiVersion,
    appendNew Cluster.name a.clusters b.clusters, appendNew Context.name a.contexts b.contexts,
    a.currentContext.or b.currentContext⟩

/-- The documents of a file as one. -/
def parse? (text : String) : Option Kubeconfig := do
  match ← (← Yaml.documents? text).mapM ofNode? with
  | [] => some empty
  | first :: rest => rest.foldlM merge? first

def read (files : Files.Tree) (path : String) : Except String Kubeconfig :=
  match files.read path with
  | .error p => .error (path ++ ": " ++ p.message)
  | .ok text =>
    match parse? text with
    | some k => .ok k
    | none => .error (path ++ " is not a kubeconfig")

def readAll (files : Files.Tree) (acc : Kubeconfig) : List String → Except String Kubeconfig
  | [] => .ok acc
  | path :: rest => do
    let k ← read files path
    match merge? acc k with
    | some merged => readAll files merged rest
    | none => throw "files contradict each other"

/-- The files to read: the one that is given, or those that `KUBECONFIG` lists, or the one in the
home directory. -/
def paths (vars : Text.Table) (home given : Option String) : List String :=
  let listed := (((vars.find? "KUBECONFIG").map (Text.splitOn ':')).getD []).filter (· != "")
  match given, listed with
  | some path, _ => [path]
  | none, [] => (home.map fun h => Files.join h ".kube/config").toList
  | none, listed => listed

def connection (k : Kubeconfig) (context : String) : Except String Connection :=
  match (k.contexts.find? fun c => c.name == context).bind Context.choice with
  | none => .error "no such context"
  | some choice =>
    match (k.clusters.find? fun c => c.name == choice.cluster).bind Cluster.server with
    | none => .error "no such cluster"
    | some none => .error "the cluster has no server"
    | some (some server) =>
      match Address.parse? server with
      | none => .error "malformed server address"
      | some address => .ok ⟨address, choice.namespaceName.getD "default"⟩

def loaded (k : Kubeconfig) : Loaded := ⟨k, k.connection, fun _ => .ok ()⟩

def plain : Library where
  readFrom files path := (readAll files empty [path]).map loaded
  read files vars home :=
    match paths vars home none with
    | [] => .error "no home directory"
    | paths => (readAll files empty paths).map loaded

end MultiCluster.Kubeconfig
