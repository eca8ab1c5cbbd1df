import MultiCluster.Deploy.BrokerObject
import MultiCluster.Deploy.Pipeline
import MultiCluster.Deploy.StoredRecord

/-! The work of the deployment steps on a cluster. -/
namespace MultiCluster.Deploy

def clusterAppliers : Appliers Cluster.Calls where
  rbac := Rights.ensure
  operator := Operator.ensure
  broker := BrokerObject.ensure
  validateRecord := Globalnet.Record.validateStored
  ensureRecord := Globalnet.Record.ensureStored

end MultiCluster.Deploy
