import MultiCluster.Gateway.Labelling

/-! Dedicated gateway machines on OpenShift clusters that run on OpenStack. -/
namespace MultiCluster.Gateway.Openstack

open Cluster

structure Settings where
  infraId : String
  region : String
  projectId : Option String
  cloudEntry : String
  /-- Make machines of their own instead of labelling workers. -/
  dedicated : Bool
  instanceType : String
  deriving DecidableEq, Repr

def machineNamespace : String := "openshift-machine-api"

def clusterKey : String := "machine.openshift.io/cluster-api-cluster"
def setKey : String := "machine.openshift.io/cluster-api-machineset"

def machineSetName (infraId : String) : String := infraId ++ "-submariner-gw"

def named (name : String) : Json := .obj [("name", .str name)]

def provider (s : Settings) : Json := Json.object [
  ("apiVersion", .str "openstackproviderconfig.openshift.io/v1alpha1"),
  ("kind", .str "OpenstackProviderSpec"),
  ("cloudName", .str s.cloudEntry),
  ("cloudsSecret", Json.object [
    ("name", .str "openstack-cloud-credentials"), ("namespace", .str machineNamespace)]),
  ("flavor", .str s.instanceType),
  ("image", .str (s.infraId ++ "-rhcos")),
  ("networks", .arr [Json.object [
    ("filter", .obj []),
    ("subnets", .arr [Json.object [
      ("filter", Json.object [
        ("name", .str (s.infraId ++ "-nodes")),
        ("tags", .str ("openshiftClusterID=" ++ s.infraId))])]])]]),
  ("securityGroups", .arr [
    named (s.infraId ++ "-worker"), named (s.infraId ++ "-submariner-gw-sg")]),
  ("serverMetadata", Json.object [
    ("Name", .str (s.infraId ++ "-worker")), ("openshiftClusterID", .str s.infraId)]),
  ("tags", Json.strings ["openshiftClusterID=" ++ s.infraId]),
  ("trunk", .bool true),
  ("userDataSecret", named "worker-user-data")]

def machineSet (s : Settings) (replicas : Nat) : Json :=
  let name := machineSetName s.infraId
  Kind.machineSet.object
    (("labels", .obj [(clusterKey, .str s.infraId)]) :: Object.named name machineNamespace) [
    ("spec", Json.object [
      ("replicas", .int replicas),
      ("selector", Json.object [
        ("matchLabels", Json.object [(clusterKey, .str s.infraId), (setKey, .str name)])]),
      ("template", Json.object [
        ("metadata", Json.object [("labels", Json.object [
          (clusterKey, .str s.infraId),
          ("machine.openshift.io/cluster-api-machine-role", .str "worker"),
          ("machine.openshift.io/cluster-api-machine-type", .str "worker"),
          (setKey, .str name)])]),
        ("spec", Json.object [
          ("metadata", Json.object [("labels", Json.object [
            (gatewayLabel, .str "true"), ("node-role.kubernetes.io/worker", .str "")])]),
          ("providerSpec", Json.object [("value", provider s)])])])])]

def machineSets : Collection := .inNamespace .machineSet machineNamespace

def deployMachines (s : Settings) (count : Nat) : SiteWork Unit := do
  let name := machineSetName s.infraId
  tell (.start ("Deploying " ++ Text.decimal count ++
    " dedicated gateway(s) through MachineSet " ++ name))
  let _ ← reporting (fun e => "Failed to deploy MachineSet " ++ name ++ ": " ++ e.message)
    (onCluster (machineSets.serverApply (machineSets.label name) name (machineSet s count)))
  tell (.success ("MachineSet " ++ name ++ " deployed"))

/-- Remove the machines, if there are any, and the labels of workers. -/
def removeMachines (s : Settings) : SiteWork Unit := do
  let name := machineSetName s.infraId
  tell (.start ("Removing gateway MachineSet " ++ name))
  let deleted ← reporting (fun e => "Failed to delete MachineSet " ++ name ++ ": " ++ e.message)
    (onCluster (machineSets.delete (machineSets.label name) name))
  tell (.success ("MachineSet " ++ name ++ if deleted then " deleted" else " not present"))
  workers.cleanup

/-- Gateways as the settings ask for them: machines of their own, or labelled workers. -/
def deployer (s : Settings) : Deployer Site where
  deploy count := if s.dedicated then deployMachines s count else workers.deploy count
  cleanup := removeMachines s

end MultiCluster.Gateway.Openstack
