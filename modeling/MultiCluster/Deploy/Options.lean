import MultiCluster.Component
import MultiCluster.Globalnet.Record
import MultiCluster.Image
import MultiCluster.Time.Duration

/-! What a deployment is asked to do, and the plan it makes of that. -/
namespace MultiCluster.Deploy

def brokerNamespace : String := "submariner-k8s-broker"
def operatorNamespace : String := "submariner-operator"

structure Options where
  operatorDebug : Bool
  repository : String
  imageVersion : String
  imageOverrides : Text.Table
  brokerNamespace : String
  broker : BrokerSpec
  /-- How long each step may take. -/
  stepTimeout : Option Duration
  deriving DecidableEq, Repr

def Options.default : Options where
  operatorDebug := false
  repository := ""
  imageVersion := ""
  imageOverrides := []
  brokerNamespace := Deploy.brokerNamespace
  broker := ⟨[Component.serviceDiscovery, Component.connectivity], false, Globalnet.defaultRange, 0⟩
  stepTimeout := none

structure Rights where
  brokerNamespace : String
  components : List String
  deriving DecidableEq, Repr

structure Operator where
  namespaceName : String
  image : String
  debug : Bool
  deriving DecidableEq, Repr

structure Plan where
  namespaceName : String
  broker : BrokerSpec
  rights : Rights
  operator : Operator
  deriving DecidableEq, Repr

def Plan.record (p : Plan) : Globalnet.Record := .ofSpec p.broker

/-- The plan for valid options; nothing has been applied yet when they are rejected. -/
def plan (o : Options) : Except Error Plan := do
  Component.validate o.broker.components
  let (settled, spec) := Globalnet.settle o.broker
  settled
  let spec := spec.normalized
  let source := Image.Source.of o.repository o.imageVersion o.imageOverrides
  pure {
    namespaceName := o.brokerNamespace
    broker := spec
    rights := ⟨o.brokerNamespace, Component.effective spec.components spec.globalnetEnabled⟩
    operator := ⟨operatorNamespace, source.resolve Image.operator, o.operatorDebug⟩ }

end MultiCluster.Deploy
