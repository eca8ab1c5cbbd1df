import MultiCluster.Cluster.Object
import MultiCluster.Cluster.Outcome
import MultiCluster.Cluster.StatusCode
import MultiCluster.Error
import MultiCluster.Json.Document
import MultiCluster.Retry

/-! Operations on the objects of a cluster, each a program of requests. A failure status becomes
an error with the fields of its body; a success must be of the expected type. -/
namespace MultiCluster.Cluster

/-- Who the server records as the writer of applied fields. -/
def fieldManager : String := "subctl"

/-- The objects of one kind, in one namespace if the kind has any. -/
structure Collection where
  kind : Kind
  namespaceName : Option String
  deriving DecidableEq, Repr

namespace Collection

def inNamespace (kind : Kind) (ns : String) : Collection := ⟨kind, some ns⟩

def clusterWide (kind : Kind) : Collection := ⟨kind, none⟩

def path (c : Collection) : Path :=
  c.kind.root ++ (match c.namespaceName with | none => [] | some ns => ["namespaces", ns]) ++
    [c.kind.plural]

def member (c : Collection) (name : String) : Path := c.path ++ [name]

/-- How errors name an object. -/
def label (c : Collection) (name : String) : String := c.kind.name ++ "/" ++ name

end Collection

inductive Payload where
  | document (v : Json)
  | text (s : String)
  deriving DecidableEq, Repr

namespace Reply

def isFailure (code : Nat) : Bool := 400 ≤ code && code < 600

/-- The failure a JSON body describes: strings `status`, `message` and `reason`, each empty if
absent, and an integer `code`. -/
def failureOf? (v : Json) : Option ApiError :=
  match v with
  | .obj fields =>
    let field (key : String) : Option String :=
      match Fields.find? key fields with
      | none => some ""
      | some (.str s) => some s
      | some _ => none
    match field "status", field "message", field "reason", Fields.find? "code" fields with
    | some status, some message, some reason, some (.int code) =>
      if 0 ≤ code && code ≤ 65535 then some (.answer status message reason code.toNat) else none
    | _, _, _, _ => none
  | _ => none

/-- The failure of a body that does not describe one: the body itself, quoted, is the message. -/
def unreadableFailure (code : Nat) (body : String) : ApiError :=
  .answer (StatusCode.text code) (Text.quoted body) "Failed to parse error data" code

/-- The body of a success, or the failure. -/
def payload : Reply → Except ApiError Payload
  | .broken reason => .error (.connection reason)
  | .document code v =>
    if isFailure code then .error ((failureOf? v).getD (unreadableFailure code ""))
    else .ok (.document v)
  | .text code body =>
    if isFailure code then
      .error (((Json.parse? body).bind failureOf?).getD (unreadableFailure code body))
    else .ok (.text body)

end Reply

def Payload.value : Payload → Except ApiError Json
  | .document v => .ok v
  | .text s =>
    match Json.parse? s with
    | some v => .ok v
    | none => .error (.payload "not a JSON document")

def Payload.read {α : Type} (reader : Json → Except String α) (p : Payload) : Except ApiError α :=
  match p.value with
  | .error e => .error e
  | .ok v =>
    match reader v with
    | .ok a => .ok a
    | .error detail => .error (.payload detail)

/-- A reply that must be a success read at a type. -/
def Reply.read {α : Type} (reader : Json → Except String α) (r : Reply) : Except ApiError α :=
  match r.payload with
  | .error e => .error e
  | .ok p => p.read reader

abbrev Work (α : Type) := Action Calls Error α

/-- Send a request and take its reply apart, blaming failures on a resource. -/
def exchange {α : Type} (resource : String) (r : Request) (take : Reply → Except ApiError α) :
    Work α :=
  .mk ((send r).bind fun reply =>
    .done (match take reply with
      | .ok a => .ok a
      | .error e => .error (Error.ofApi resource e)))

/-- Repeat work that failed for a transient reason. -/
def persistently {α : Type} (work : Work α) : Work α :=
  .mk (retry .standard Error.isTransient pause work.run)

/-- An absent object is an answer, not a failure. -/
def takeOptional (k : Kind) (r : Reply) : Except ApiError (Option Json) :=
  match r.read k.read with
  | .ok v => .ok (some v)
  | .error (.answer status message reason code) =>
    if reason == "NotFound" then .ok none else .error (.answer status message reason code)
  | .error e => .error e

def readRemoved (k : Kind) (v : Json) : Except String Json :=
  match v.get? "kind" with
  | some (.str "Status") =>
    match v.get? "status" with
    | none => .ok v
    | some .null => .ok v
    | some (.str s) =>
      if s == "Success" || s == "Failure" then .ok v else .error "expected a status"
    | some _ => .error "expected a status"
  | _ => k.read v

/-- Removing an absent object is an answer, not a failure. -/
def takeDeletion (k : Kind) (r : Reply) : Except ApiError Bool :=
  match r.read (readRemoved k) with
  | .ok _ => .ok true
  | .error (.answer status message reason code) =>
    if code = 404 then .ok false else .error (.answer status message reason code)
  | .error e => .error e

namespace Collection
variable (c : Collection)

def getRequest (name : String) : Request := ⟨.get, c.member name, [], none, none⟩

def listRequest (selector : Option String) : Request :=
  ⟨.get, c.path, (match selector with | none => [] | some s => [("labelSelector", s)]), none, none⟩

def applyRequest (name : String) (v : Json) : Request :=
  ⟨.patch, c.member name, [("fieldManager", fieldManager), ("force", "true")], some .apply, some v⟩

def mergeRequest (name : String) (v : Json) : Request :=
  ⟨.patch, c.member name, [], some .merge, some v⟩

def createRequest (v : Json) : Request := ⟨.post, c.path, [], none, some v⟩

def replaceRequest (name : String) (v : Json) : Request := ⟨.put, c.member name, [], none, some v⟩

def deleteRequest (name : String) : Request := ⟨.delete, c.member name, [], none, some (.obj [])⟩

def logRequest (pod container : String) : Request :=
  ⟨.get, c.path ++ [pod, "log"], [("container", container)], none, none⟩

def find? (resource name : String) : Work (Option Json) :=
  exchange resource (c.getRequest name) (takeOptional c.kind)

def list (resource : String) (selector : Option String) : Work (List Json) :=
  exchange resource (c.listRequest selector) (Reply.read c.kind.readList)

def create (resource : String) (v : Json) : Work Json :=
  exchange resource (c.createRequest v) (Reply.read c.kind.read)

def replace (resource name : String) (v : Json) : Work Json :=
  exchange resource (c.replaceRequest name v) (Reply.read c.kind.read)

def mergePatch (resource name : String) (v : Json) : Work Json :=
  exchange resource (c.mergeRequest name v) (Reply.read c.kind.read)

def serverApply (resource name : String) (v : Json) : Work Json :=
  exchange resource (c.applyRequest name v) (Reply.read c.kind.read)

/-- Remove an object; whether there was one. -/
def delete (resource name : String) : Work Bool :=
  exchange resource (c.deleteRequest name) (takeDeletion c.kind)

/-- Apply an object and say what that changed, by the versions before and after. -/
def apply (v : Json) : Work Outcome :=
  match Object.name? v with
  | none => throw (.internal (c.kind.name ++ " without metadata.name") "apply")
  | some name => do
    let before ← c.find? (c.label name) name
    let after ← c.serverApply (c.label name) name v
    pure (Outcome.ofVersions (before.map Object.version?) (Object.version? after))

end Collection

def ensureNamespace (name : String) : Work Outcome :=
  (Collection.clusterWide .namespaces).apply (Kind.namespaces.object [("name", .str name)] [])

end MultiCluster.Cluster
