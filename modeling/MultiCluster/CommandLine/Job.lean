import MultiCluster.CommandLine.Failure
import MultiCluster.CommandLine.Invocation
import MultiCluster.Kubeconfig.Basic
import MultiCluster.Kubeconfig.Location

/-! From what a command line asks for to what is done: everything that can be checked without a
cluster is checked here. -/
namespace MultiCluster.CommandLine

open Gateway (GatewayAction Platform)

structure Environment where
  vars : Text.Table
  home : Option String
  /-- The current directory. -/
  directory : String
  files : Files.Tree
  now : Calendar.Instant
  yaml : Yaml.Reader
  kubeconfigs : Kubeconfig.Library

/-- Options to deploy with. The settings of globalnet are checked, and kept as they are given. -/
def DeployRequest.options (r : DeployRequest) : Except Error Deploy.Options := do
  let spec : BrokerSpec := ⟨r.components, r.globalnet, r.range, r.clusterSize⟩
  Component.validate spec.components
  (Globalnet.settle spec).1
  let overrides ← Image.parseOverrides r.imageOverrides
  pure {
    operatorDebug := r.operatorDebug
    repository := r.repository
    imageVersion := r.version
    imageOverrides := overrides
    brokerNamespace := r.brokerNamespace
    broker := spec
    stepTimeout := r.timeout.map Duration.ofSeconds }

def GatherRequest.options (r : GatherRequest) (now : Calendar.Instant) :
    Except Error Gather.Options :=
  Gather.Options.ofRequest r.types r.modules r.directory r.includeSensitiveData now

/-- Accepts at most one context, for a command that works on one cluster. -/
def Choice.ensureSingle (c : Choice) (command : String) : Except Failure Unit :=
  if c.contexts.length > 1 then
    .error (.validation (command ++ " runs against a single context, got " ++
      Text.join ", " c.contexts))
  else .ok ()

structure Target where
  name : String
  connection : Kubeconfig.Connection
  deriving DecidableEq, Repr

def Choice.location? (c : Choice) (env : Environment) : Option String :=
  Kubeconfig.location? env.home c.kubeconfig (env.vars.find? "SUBCTL_KUBECONFIG")

def Choice.targets (c : Choice) (env : Environment) : Except Error (List Target) := do
  let k ← env.kubeconfigs.load env.files env.vars env.home (c.location? env)
  let names ← k.config.select c.contexts
  names.mapM fun name => do pure ⟨name, ← k.connect name⟩

def liftError {α : Type} : Except Error α → Except Failure α
  | .ok a => .ok a
  | .error e => .error (.operation e)

def Choice.target (c : Choice) (env : Environment) (command : String) : Except Failure Target := do
  c.ensureSingle command
  match ← liftError (c.targets env) with
  | target :: _ => pure target
  | [] => throw (.validation "no kubeconfig context selected")

def Environment.searchPath (env : Environment) : List String :=
  Gateway.Openstack.searchPath (env.vars.find? "OS_CLIENT_CONFIG_FILE") (some env.directory)
    env.home

/-- What is left to do when nothing is wrong with the input. -/
inductive Job where
  | deployBroker (o : Deploy.Options) (target : Target)
  | gather (o : Gather.Options) (targets : List Target)
  | cloud (p : Platform) (a : GatewayAction) (searchPath : List String) (target : Target)

/-- Check the options of a command before its clusters are looked up. -/
def Invocation.job (env : Environment) (i : Invocation) : Except Failure Job :=
  match i.command with
  | .deployBroker r => do
    let o ← liftError r.options
    pure (.deployBroker o (← i.clusters.target env deployName))
  | .gather r => do
    let o ← liftError (r.options env.now)
    pure (.gather o (← liftError (i.clusters.targets env)))
  | .cloud p a => do
    liftError a.validate
    let target ← i.clusters.target env cloudName
    pure (.cloud p a env.searchPath target)

end MultiCluster.CommandLine
