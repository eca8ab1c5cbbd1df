import MultiCluster.Error
import MultiCluster.Files.Tree
import MultiCluster.Kubeconfig.Address
import MultiCluster.Text.Table

/-! Kubeconfig files: clusters, and contexts that pick one of them. A library reads the files and
makes clients for their contexts; which contexts to work on is decided here. -/
namespace MultiCluster

namespace Kubeconfig

structure Cluster where
  name : String
  /-- The address of the server, if the entry has a cluster at all. -/
  server : Option (Option String)
  deriving DecidableEq, Repr

structure Choice where
  cluster : String
  namespaceName : Option String
  deriving DecidableEq, Repr

structure Context where
  name : String
  choice : Option Choice
  deriving DecidableEq, Repr

end Kubeconfig

structure Kubeconfig where
  kind : Option String
  apiVersion : Option String
  clusters : List Kubeconfig.Cluster
  contexts : List Kubeconfig.Context
  currentContext : Option String
  deriving DecidableEq, Repr

namespace Kubeconfig

def empty : Kubeconfig := ⟨none, none, [], [], none⟩

def distinct (seen : List String) : List String → List String
  | [] => seen
  | name :: rest => distinct (if seen.contains name then seen else seen ++ [name]) rest

/-- The contexts to work on: all that are requested, each once, or else the current one. -/
def select (k : Kubeconfig) (requested : List String) : Except Error (List String) :=
  if requested.isEmpty then
    match k.currentContext.filter (· != "") with
    | some current => .ok [current]
    | none => .error (.invalidConfiguration
        "no context requested and kubeconfig has no current context")
  else
    let unknown := requested.filter fun name => !(k.contexts.any fun c => c.name == name)
    if unknown.isEmpty then .ok (distinct [] requested)
    else .error (.invalidConfiguration
      ("unknown kubeconfig context(s): " ++ Text.join ", " unknown))

/-- What it takes to talk to the cluster of a context. -/
structure Connection where
  address : Address
  namespaceName : String
  deriving DecidableEq, Repr

/-- A kubeconfig that has been read, with what becomes of its contexts. Failures are texts. -/
structure Loaded where
  config : Kubeconfig
  connection : String → Except String Connection
  /-- Whether a client can be made for a context: this also takes the credentials of its user. -/
  client : String → Except String Unit

/-- What is asked of the library: to read one file, or else those that the environment names. -/
structure Library where
  readFrom : Files.Tree → String → Except String Loaded
  read : Files.Tree → Text.Table → Option String → Except String Loaded

def unreadable (detail : String) : Error :=
  .invalidConfiguration ("failed to read kubeconfig: " ++ detail)

def unloadable (context detail : String) : Error :=
  .invalidConfiguration ("failed to load context " ++ context ++ ": " ++ detail)

def clientless (context detail : String) : Error :=
  .internal ("failed to create client for " ++ context ++ ": " ++ detail) "create_client"

def Library.load (l : Library) (files : Files.Tree) (vars : Text.Table)
    (home given : Option String) : Except Error Loaded :=
  match given with
  | some path => (l.readFrom files path).mapError unreadable
  | none => (l.read files vars home).mapError unreadable

/-- Make a client for a context. -/
def Loaded.connect (k : Loaded) (context : String) : Except Error Connection := do
  let connection ← (k.connection context).mapError (unloadable context)
  (k.client context).mapError (clientless context)
  pure connection

end Kubeconfig
end MultiCluster
