import MultiCluster.Cluster.Kind.Pod

/-! The shapes of deployments and daemon sets. -/
namespace MultiCluster.Cluster.Shape

def rollingUpdate : Shape := .record [
  opt "rollingUpdate" (.record [opt "maxSurge" .intOrString, opt "maxUnavailable" .intOrString]),
  opt "type" .string]

def deploymentSpec : Shape := .record [
  opt "minReadySeconds" .int32, opt "paused" .boolean, opt "progressDeadlineSeconds" .int32,
  opt "replicas" .int32, opt "revisionHistoryLimit" .int32, req "selector" labelSelector,
  opt "strategy" rollingUpdate, req "template" podTemplate]

def deploymentStatus : Shape := .record [
  opt "availableReplicas" .int32, opt "collisionCount" .int32,
  opt "conditions" (.list (condition [opt "lastUpdateTime" .timestamp])),
  opt "observedGeneration" .int64, opt "readyReplicas" .int32, opt "replicas" .int32,
  opt "unavailableReplicas" .int32, opt "updatedReplicas" .int32]

def daemonSetSpec : Shape := .record [
  opt "minReadySeconds" .int32, opt "revisionHistoryLimit" .int32,
  req "selector" labelSelector, req "template" podTemplate, opt "updateStrategy" rollingUpdate]

def daemonSetStatus : Shape := .record [
  opt "collisionCount" .int32, opt "conditions" (.list (condition [])),
  req "currentNumberScheduled" .int32, req "desiredNumberScheduled" .int32,
  opt "numberAvailable" .int32, req "numberMisscheduled" .int32, req "numberReady" .int32,
  opt "numberUnavailable" .int32, opt "observedGeneration" .int64,
  opt "updatedNumberScheduled" .int32]

end MultiCluster.Cluster.Shape
