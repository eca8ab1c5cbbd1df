import MultiCluster.Cluster.Kind.Metadata

/-! The shape of nodes. -/
namespace MultiCluster.Cluster.Shape

def nodeConfigSource : Shape := .record [
  opt "configMap" (.record [
    req "kubeletConfigKey" .string, req "name" .string, req "namespace" .string,
    opt "resourceVersion" .string, opt "uid" .string])]

def nodeSpec : Shape := .record [
  opt "configSource" nodeConfigSource, opt "externalID" .string, opt "podCIDR" .string,
  opt "podCIDRs" strings, opt "providerID" .string,
  opt "taints" (.list (.record [
    req "effect" .string, req "key" .string, opt "timeAdded" .timestamp,
    opt "value" .string])),
  opt "unschedulable" .boolean]

def nodeInfo : Shape := .record [
  req "architecture" .string, req "bootID" .string, req "containerRuntimeVersion" .string,
  req "kernelVersion" .string, req "kubeProxyVersion" .string, req "kubeletVersion" .string,
  req "machineID" .string, req "operatingSystem" .string, req "osImage" .string,
  req "systemUUID" .string]

def nodeStatus : Shape := .record [
  opt "addresses" (.list (.record [req "address" .string, req "type" .string])),
  opt "allocatable" (.table .string), opt "capacity" (.table .string),
  opt "conditions" (.list (condition [opt "lastHeartbeatTime" .timestamp])),
  opt "config" (.record [
    opt "active" nodeConfigSource, opt "assigned" nodeConfigSource, opt "error" .string,
    opt "lastKnownGood" nodeConfigSource]),
  opt "daemonEndpoints" (.record [opt "kubeletEndpoint" (.record [req "Port" .int32])]),
  opt "features" (.record [opt "supplementalGroupsPolicy" .boolean]),
  opt "images" (.list (.record [opt "names" strings, opt "sizeBytes" .int64])),
  opt "nodeInfo" nodeInfo, opt "phase" .string,
  opt "runtimeHandlers" (.list (.record [
    opt "features" (.record [
      opt "recursiveReadOnlyMounts" .boolean, opt "userNamespaces" .boolean]),
    opt "name" .string])),
  opt "volumesAttached" (.list (.record [req "devicePath" .string, req "name" .string])),
  opt "volumesInUse" strings]

end MultiCluster.Cluster.Shape
