import MultiCluster.CommandLine.Menu
import MultiCluster.CommandLine.Setting
import MultiCluster.Deploy.Options
import MultiCluster.Gather.Options
import MultiCluster.Gateway.Action

/-! What a command line asks for. A value that is not given is taken from the environment, where an
empty text counts, and else from the defaults. -/
namespace MultiCluster.CommandLine

open Gateway (GatewayAction Platform)

structure Choice where
  kubeconfig : Option String
  contexts : List String
  deriving DecidableEq, Repr

structure DeployRequest where
  components : List String
  globalnet : Bool
  range : String
  clusterSize : UInt32
  repository : String
  version : String
  imageOverrides : List String
  operatorDebug : Bool
  brokerNamespace : String
  /-- In seconds. -/
  timeout : Option Nat
  deriving DecidableEq, Repr

structure GatherRequest where
  types : List String
  modules : List String
  directory : Option String
  includeSensitiveData : Bool
  deriving DecidableEq, Repr

inductive Command where
  | deployBroker (r : DeployRequest)
  | gather (r : GatherRequest)
  | cloud (p : Platform) (a : GatewayAction)
  deriving DecidableEq, Repr

structure Invocation where
  clusters : Choice
  command : Command
  deriving DecidableEq, Repr

def deployName : String := "deploy-broker"
def gatherName : String := "gather"
def cloudName : String := "cloud"
def prepareName : String := "prepare"
def cleanupName : String := "cleanup"
def genericName : String := "generic"
def openstackName : String := "rhos"

def platformMenu : Menu := .entries [(genericName, .command), (openstackName, .command)]

def cloudMenu : Menu := .entries [(prepareName, platformMenu), (cleanupName, platformMenu)]

def menu : Menu :=
  .entries [(deployName, .command), (gatherName, .command), (cloudName, cloudMenu)]

def maxWord32 : Nat := 1 <<< 32 - 1
def maxWord64 : Nat := 1 <<< 64 - 1

def clusterSettings : List Setting := [.path "kubeconfig", ⟨"context", some "contexts", .list⟩]

def deploySettings : List Setting := clusterSettings ++ [.list "components", .switch "globalnet",
  .text "globalnet-cidr-range", .integer "globalnet-cluster-size" maxWord32, .text "repository",
  .text "version", ⟨"image-override", none, .each⟩, .switch "operator-debug",
  .text "broker-namespace", .number "timeout" maxWord64]

def gatherSettings : List Setting := clusterSettings ++ [.list "type", .list "module", .path "dir",
  .switch "include-sensitive-data"]

def gatewaySettings : List Setting := [.number "gateways" maxWord64]

def openstackSettings : List Setting := [.text "infra-id", .text "region", .text "project-id",
  .path "ocp-metadata", .text "cloud-entry", .switch "dedicated-gateway",
  .text "gateway-instance-type"]

/-- A value that may also come from the environment. -/
def Given.valueOr (g : Given) (vars : Text.Table) (name inEnvironment : String) :
    Option String :=
  (g.value? name).or (vars.find? inEnvironment)

def Choice.of (g : Given) : Choice := ⟨g.value? "kubeconfig", g.values "context"⟩

def DeployRequest.of (vars : Text.Table) (g : Given) : DeployRequest where
  components := if g.has "components" then g.values "components"
    else [Component.serviceDiscovery, Component.connectivity]
  globalnet := g.has "globalnet"
  range := (g.value? "globalnet-cidr-range").getD Globalnet.defaultRange
  clusterSize := ((g.number? "globalnet-cluster-size").map UInt32.ofNat).getD 0
  repository := (g.valueOr vars "repository" "SUBCTL_REPOSITORY").getD ""
  version := (g.valueOr vars "version" "SUBCTL_VERSION").getD ""
  imageOverrides := g.values "image-override"
  operatorDebug := g.has "operator-debug"
  brokerNamespace := (g.value? "broker-namespace").getD Deploy.brokerNamespace
  timeout := g.number? "timeout"

def GatherRequest.of (g : Given) : GatherRequest where
  types := g.values "type"
  modules := g.values "module"
  directory := g.value? "dir"
  includeSensitiveData := g.has "include-sensitive-data"

/-- The metadata file stands for both IDs, and neither may be given beside it. -/
def openstackConfig (vars : Text.Table) (g : Given) :
    Except Refusal Gateway.Openstack.Config :=
  if g.has "ocp-metadata" && (g.has "infra-id" || g.has "project-id") then .error .conflict
  else .ok {
    dedicated := g.has "dedicated-gateway"
    infraId := g.value? "infra-id"
    region := g.valueOr vars "region" "OS_REGION_NAME"
    projectId := g.value? "project-id"
    metadataFile := g.value? "ocp-metadata"
    cloudEntry := g.value? "cloud-entry"
    instanceType :=
      (g.value? "gateway-instance-type").getD Gateway.Openstack.defaultInstanceType }

def platformOf (vars : Text.Table) (name : String) (g : Given) : Except Refusal Platform :=
  if name == openstackName then do pure (.openstack (← openstackConfig vars g))
  else pure .generic

def actionOf (name : String) (g : Given) : GatewayAction :=
  if name == prepareName then .prepare ((g.number? "gateways").getD 1) else .cleanup

def cloudSettings (action platform : String) : List Setting :=
  clusterSettings ++ (if action == prepareName then gatewaySettings else []) ++
    (if platform == openstackName then openstackSettings else [])

namespace Invocation

def ofCloud (vars : Text.Table) (words : List String) : Except Refusal Invocation := do
  let (action, words) ← cloudMenu.choose false words
  let (platform, words) ← platformMenu.choose false words
  let g ← Given.ofWords (cloudSettings action platform) words
  pure ⟨.of g, .cloud (← platformOf vars platform g) (actionOf action g)⟩

def ofWords (vars : Text.Table) (words : List String) : Except Refusal Invocation := do
  let (name, words) ← menu.choose true words
  if name == deployName then
    let g ← Given.ofWords deploySettings words
    pure ⟨.of g, .deployBroker (.of vars g)⟩
  else if name == gatherName then
    let g ← Given.ofWords gatherSettings words
    pure ⟨.of g, .gather (.of g)⟩
  else ofCloud vars words

end Invocation
end MultiCluster.CommandLine
