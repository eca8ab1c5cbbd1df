import MultiCluster.Error
import MultiCluster.Files.Tree
import MultiCluster.Json.Record
import MultiCluster.Yaml.Node

/-! Where OpenStack settings come from beside the command line: the metadata file that the
installer leaves, and the `clouds.yaml` with credentials. -/
namespace MultiCluster.Gateway.Openstack

/-- What the installer's metadata say; empty where they say nothing. -/
structure Metadata where
  infraId : String
  projectId : String
  deriving DecidableEq, Repr

namespace Metadata

def optionalText? : Option Json.Document → Option String
  | none => some ""
  | some d => d.string?

def project? : Option Json.Document → Option String
  | none => some ""
  | some d => do
    match ← d.record? ["projectID"] with
    | [project] => optionalText? project
    | _ => none

def parse? (text : String) : Option Metadata := do
  let d ← Json.Document.parse? text
  match ← d.record? ["infraID", "rhos"] with
  | [infra, rhos] => pure ⟨← optionalText? infra, ← project? rhos⟩
  | _ => none

def load (files : Files.Tree) (path : String) : Except Error Metadata :=
  match files.read path with
  | .error p => .error (.invalidConfiguration
      ("failed to read OCP metadata file " ++ path ++ ": " ++ p.message))
  | .ok text =>
    match parse? text with
    | some m => .ok m
    | none => .error (.invalidConfiguration
        ("failed to parse OCP metadata file " ++ path ++ ": not an installer's metadata"))

end Metadata

structure Cloud where
  authUrl : Option String
  projectId : Option String
  projectName : Option String
  regionName : Option String
  deriving DecidableEq, Repr

namespace Cloud

open Yaml (Node)

def text? (key : String) (entries : List (Node × Node)) : Option (Option String) := do
  match ← Node.only? key entries with
  | none => some none
  | some n => if n.isNull then some none else n.anyText?.map some

def fields? (n : Node) : Option (List (Node × Node)) := do
  let entries ← n.entries?
  if entries.all fun e => e.1.anyText?.isSome then pure entries else none

def child? (key : String) (entries : List (Node × Node)) : Option (List (Node × Node)) := do
  match ← Node.only? key entries with
  | none => some []
  | some n => fields? n

def ofNode? (n : Node) : Option Cloud := do
  let entries ← fields? n
  let auth ← child? "auth" entries
  pure ⟨← text? "auth_url" auth, ← text? "project_id" auth, ← text? "project_name" auth,
    ← text? "region_name" entries⟩

/-- The clouds of a document, by name; of repeated names the last counts. -/
def allOf? (n : Node) : Option (List (String × Cloud)) := do
  let entries ← child? "clouds" (← fields? n)
  entries.mapM fun e => do pure (← e.1.anyText?, ← ofNode? e.2)

def parse? (yaml : Yaml.Reader) (text : String) : Option (List (String × Cloud)) := do
  allOf? (← yaml.document? text)

def load (yaml : Yaml.Reader) (files : Files.Tree) (searchPath : List String) (name : String) :
    Except Error (String × Cloud) :=
  match searchPath.find? files.isFile with
  | none => .error (.invalidConfiguration
      ("no clouds.yaml found (searched " ++ Text.join ", " searchPath ++ ")"))
  | some path =>
    match files.read path with
    | .error p => .error (.io p.message)
    | .ok text =>
      match parse? yaml text with
      | none => .error (.invalidConfiguration
          ("failed to parse " ++ path ++ ": not a list of clouds"))
      | some clouds =>
        match clouds.reverse.find? fun c => c.1 == name with
        | none => .error (.invalidConfiguration
            ("cloud " ++ Text.quoted name ++ " not found in " ++ path))
        | some (_, cloud) =>
          if cloud.authUrl.isNone then .error (.invalidConfiguration
            ("cloud " ++ Text.quoted name ++ " in " ++ path ++ " has no auth.auth_url"))
          else .ok (path, cloud)

end Cloud

/-- Where `clouds.yaml` is looked for, first things first: a file that the environment names, the
current directory, the home directory, and the system. -/
def searchPath (named current home : Option String) : List String :=
  named.toList ++
    (current.map fun d => Files.join d "clouds.yaml").toList ++
    (home.map fun d => Files.join (Files.join d ".config/openstack") "clouds.yaml").toList ++
    ["/etc/openstack/clouds.yaml"]

end MultiCluster.Gateway.Openstack
