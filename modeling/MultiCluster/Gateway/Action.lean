import MultiCluster.Gateway.Openstack.Resolution

/-! What can be done about the gateways of a cluster, and on which platform. -/
namespace MultiCluster.Gateway

inductive GatewayAction where
  /-- Make sure that there are so many gateways. -/
  | prepare (count : Nat)
  | cleanup
  deriving DecidableEq, Repr

/-- Accepts every action but preparing no gateway at all. -/
def GatewayAction.validate : GatewayAction → Except Error Unit
  | .prepare count =>
    if count = 0 then .error (.invalidConfiguration "--gateways must be at least 1") else .ok ()
  | .cleanup => .ok ()

def perform {I : Interface} (d : Deployer I) (a : GatewayAction) : Action I Error Unit :=
  match a.validate with
  | .error e => throw e
  | .ok () =>
    match a with
    | .prepare count => d.deploy count
    | .cleanup => d.cleanup

inductive Platform where
  /-- Any cluster: gateways are labelled workers. -/
  | generic
  /-- OpenShift on OpenStack. -/
  | openstack (c : Openstack.Config)
  deriving DecidableEq, Repr

def Platform.name : Platform → String
  | .generic => "generic"
  | .openstack _ => "rhos"

def Platform.deployer (yaml : Yaml.Reader) (files : Files.Tree) (searchPath : List String) :
    Platform → SiteWork (Deployer Site)
  | .generic => pure workers
  | .openstack c => do
    let settings ← (Openstack.resolve yaml files searchPath c).inRight
    pure (Openstack.deployer settings)

/-- Carry out an action on a cluster; invalid actions are rejected before anything else. -/
def runOn (yaml : Yaml.Reader) (files : Files.Tree) (searchPath : List String) (p : Platform)
    (a : GatewayAction) : SiteWork Unit :=
  match a.validate with
  | .error e => throw e
  | .ok () => do
    let d ← p.deployer yaml files searchPath
    perform d a

end MultiCluster.Gateway
