import MultiCluster.Gateway.Openstack.MachineSet
import MultiCluster.Gateway.Openstack.Sources
import MultiCluster.Text.Blank

/-! Completing OpenStack settings. The metadata file wins over the command line for infra ID and
project ID; project and region fall back to the entry in `clouds.yaml`; blank values count as
absent everywhere. -/
namespace MultiCluster.Gateway.Openstack

def defaultCloudEntry : String := "openstack"

def defaultInstanceType : String := "PnTAE.CPU_4_Memory_8192_Disk_50"

structure Config where
  dedicated : Bool
  infraId : Option String
  region : Option String
  projectId : Option String
  metadataFile : Option String
  cloudEntry : Option String
  instanceType : String
  deriving DecidableEq, Repr

abbrev Resolving (α : Type) := Action Reports Error α

def say (e : Event) : Resolving Unit := ExceptT.lift (report e)

def expect {α : Type} (complaint : Error → String) : Except Error α → Resolving α
  | .ok a => pure a
  | .error e => do
    say (.failure (complaint e))
    throw e

/-- Infra ID and project ID, from the metadata file if one is given. -/
def identity (files : Files.Tree) (c : Config) :
    Resolving (Option String × Option String) :=
  match c.metadataFile with
  | none => pure (Text.present c.infraId, Text.present c.projectId)
  | some path => do
    let m ← expect
      (fun _ => "Failed to read RHOS information from OCP metadata file " ++ path)
      (Metadata.load files path)
    let infraId := Text.present (some m.infraId)
    let projectId := Text.present (some m.projectId)
    say (.success ("Obtained infra ID " ++ Text.quoted (infraId.getD "") ++ " and project ID " ++
      Text.quoted (projectId.getD "") ++ " from OCP metadata file " ++ path))
    pure (infraId, projectId)

def require (complaint : String) : Option String → Except Error String
  | some s => .ok s
  | none => .error (.invalidConfiguration complaint)

/-- The settings made of what all sources say. -/
def complete (c : Config) (infraId projectId : Option String) (entry : String) (cloud : Cloud) :
    Except Error Settings := do
  let infraId ← require "an infra ID is required (--infra-id or --ocp-metadata)" infraId
  let region ← require
    "a region is required (--region, OS_REGION_NAME or region_name in clouds.yaml)"
    ((Text.present c.region).or (Text.present cloud.regionName))
  pure ⟨infraId, region, projectId.or (Text.present cloud.projectId), entry, c.dedicated,
    c.instanceType⟩

/-- Complete the settings, looking for `clouds.yaml` along a search path. -/
def resolve (yaml : Yaml.Reader) (files : Files.Tree) (searchPath : List String) (c : Config) :
    Resolving Settings := do
  let (infraId, projectId) ← identity files c
  say (.start "Retrieving RHOS credentials from your RHOS configuration")
  let entry := (Text.present c.cloudEntry).getD defaultCloudEntry
  let (_, cloud) ← expect (fun e => "Failed to load RHOS credentials: " ++ e.message)
    (Cloud.load yaml files searchPath entry)
  say .finish
  .mk (.done (complete c infraId projectId entry cloud))

end MultiCluster.Gateway.Openstack
