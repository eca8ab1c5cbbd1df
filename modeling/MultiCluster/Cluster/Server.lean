import MultiCluster.Cluster.Request
import MultiCluster.Json.MergePatch
import MultiCluster.Text.Numeral

/-! An API server kept as a value: the stored objects by path, a version counter that every write
advances, container logs, and faults that answer in its place. -/
namespace MultiCluster.Cluster

inductive FaultReply where
  | reset (text : String)
  | raw (code : Nat) (body : String)
  | failure (code : Nat) (reason message : String)
  deriving DecidableEq, Repr

/-- Answers requests of a method (any, if absent) whose path it covers, at most `times` times. -/
structure Fault where
  method : Option Method
  /-- The text of a path; with a star at its end, of all paths that begin so. -/
  path : String
  times : Option Nat
  reply : FaultReply
  deriving DecidableEq, Repr

abbrev Store := List (Path × Json)

namespace Store

def find? (p : Path) : Store → Option Json
  | [] => none
  | (q, v) :: rest => if q == p then some v else find? p rest

def put (p : Path) (v : Json) : Store → Store
  | [] => [(p, v)]
  | (q, w) :: rest => if q == p then (p, v) :: rest else (q, w) :: put p v rest

def erase (p : Path) (s : Store) : Store := s.filter fun o => o.1 != p

/-- The last segment of `q` if the rest of it is `p`. -/
def childName? (p q : Path) : Option String :=
  match q.reverse with
  | [] => none
  | name :: parent => if parent.reverse == p then some name else none

/-- The objects directly below a path, in the order of their names. -/
def children (p : Path) (s : Store) : List Json :=
  let found := s.filterMap fun (q, v) => (childName? p q).map fun name => (name, v)
  (found.mergeSort fun a b => decide (a.1 ≤ b.1)).map (·.2)

end Store

structure Server where
  objects : Store
  /-- By namespace, pod and container. -/
  logs : List (Path × String)
  version : Nat
  faults : List Fault
  deriving Repr

namespace Server

def statusFailure (code : Nat) (reason message : String) : Reply :=
  .document code (.obj [("code", .int code), ("message", .str message), ("reason", .str reason),
    ("status", .str "Failure")])

def notFound (p : Path) : Reply := statusFailure 404 "NotFound" (p.text ++ " not found")

end Server

def FaultReply.reply : FaultReply → Reply
  | .reset text => .broken text
  | .raw code body => .text code body
  | .failure code reason message => Server.statusFailure code reason message

namespace Fault

def covers (f : Fault) (path : String) : Bool :=
  match f.path.toList.reverse with
  | '*' :: stem => stem.reverse.isPrefixOf path.toList
  | _ => f.path == path

def applies (f : Fault) (r : Request) : Bool :=
  (match f.method with | none => true | some m => m == r.method) &&
    f.covers r.path.text &&
    (match f.times with | none => true | some n => decide (0 < n))

end Fault

namespace Server

/-- The first fault that applies, and the faults with that one used once. -/
def takeFault (r : Request) : List Fault → Option (FaultReply × List Fault)
  | [] => none
  | f :: rest =>
    if f.applies r then some (f.reply, { f with times := f.times.map (· - 1) } :: rest)
    else (takeFault r rest).map fun (reply, faults) => (reply, f :: faults)

def belowGroup : Path → Path
  | "api" :: "v1" :: rest => rest
  | "apis" :: _ :: _ :: rest => rest
  | p => p

def belowNamespace : Path → Path
  | "namespaces" :: _ :: next :: rest => next :: rest
  | p => p

/-- The resource, and the name and subresource if any, that a path leads to. -/
def resourcePath (p : Path) : Path := belowNamespace (belowGroup p)

def namespaceOf (p : Path) : String :=
  match belowGroup p with
  | "namespaces" :: ns :: _ :: _ => ns
  | _ => ""

def versionOf (v : Json) : Option String := v.textAt? ["metadata", "resourceVersion"]

def withVersion (version : Nat) (v : Json) : Json :=
  let metadata := (v.get? "metadata").getD (.obj [])
  v.set "metadata" (metadata.set "resourceVersion" (.str (Text.decimal version)))

/-- Store an object under the next version. -/
def write (s : Server) (p : Path) (v : Json) : Reply × Server :=
  let version := s.version + 1
  let v := withVersion version v
  (.document 200 v, { s with objects := s.objects.put p v, version := version })

/-- Whether an object carries the labels of a selector `key=value`. -/
def selected (selector : Option String) (v : Json) : Bool :=
  match selector with
  | none => true
  | some text =>
    match Text.splitAtFirst '=' text.toList with
    | none => false
    | some (key, value) =>
      v.textAt? ["metadata", "labels", String.ofList key] == some (String.ofList value)

def list (s : Server) (r : Request) : Reply :=
  let items := (s.objects.children r.path).filter
    (selected ((r.query.find? fun q => q.1 == "labelSelector").map (·.2)))
  .document 200 (.obj [("apiVersion", .str "v1"), ("items", .arr items), ("kind", .str "List"),
    ("metadata", .obj [])])

def read (s : Server) (r : Request) : Reply :=
  match resourcePath r.path with
  | [_] => s.list r
  | ["pods", pod, "log"] =>
    let container := ((r.query.find? fun q => q.1 == "container").map (·.2)).getD ""
    let log := [namespaceOf r.path, pod, container]
    match s.logs.find? fun l => l.1 == log with
    | some (_, text) => .text 200 text
    | none => notFound r.path
  | _ =>
    match s.objects.find? r.path with
    | some v => .document 200 v
    | none => notFound r.path

def create (s : Server) (r : Request) : Reply × Server :=
  let body := r.body.getD .null
  let p := r.path ++ [(body.textAt? ["metadata", "name"]).getD ""]
  match s.objects.find? p with
  | some _ => (statusFailure 409 "AlreadyExists" (Path.text p ++ " already exists"), s)
  | none => s.write p body

def replace (s : Server) (r : Request) : Reply × Server :=
  let body := r.body.getD .null
  match s.objects.find? r.path with
  | none => (notFound r.path, s)
  | some stored =>
    if (versionOf body).isSome && versionOf body != versionOf stored then
      (statusFailure 409 "Conflict" (r.path.text ++ " was modified"), s)
    else s.write r.path body

def patch (s : Server) (r : Request) : Reply × Server :=
  let body := r.body.getD .null
  match s.objects.find? r.path with
  | none =>
    if r.patch = some .apply then s.write r.path (Json.mergePatch .null body)
    else (notFound r.path, s)
  | some stored =>
    let merged := stored.mergePatch body
    if merged = stored then (.document 200 stored, s) else s.write r.path merged

def delete (s : Server) (r : Request) : Reply × Server :=
  match s.objects.find? r.path with
  | none => (notFound r.path, s)
  | some _ =>
    (.document 200 (.obj [("apiVersion", .str "v1"), ("kind", .str "Status"),
      ("metadata", .obj []), ("status", .str "Success")]),
      { s with objects := s.objects.erase r.path })

def serve (s : Server) (r : Request) : Reply × Server :=
  match r.method with
  | .get => (s.read r, s)
  | .post => s.create r
  | .put => s.replace r
  | .patch => s.patch r
  | .delete => s.delete r

/-- The answer to a request, faults first. -/
def answer (s : Server) (r : Request) : Reply × Server :=
  match takeFault r s.faults with
  | some (reply, faults) => (reply.reply, { s with faults := faults })
  | none => s.serve r

/-- Answers calls; waits take no time. -/
def handler : Program.Handler Calls Server
  | .send r, s => let (reply, s) := s.answer r; (some reply, s)
  | .pause _, s => (some (), s)

end Server
end MultiCluster.Cluster
