import MultiCluster.Cluster.Shape

/-! Shapes that every kind of object shares. -/
namespace MultiCluster.Cluster.Shape

def labels : Shape := .table .string

def strings : Shape := .list .string

def managedField : Shape := .record [
  opt "apiVersion" .string, opt "fieldsType" .string, opt "fieldsV1" .any,
  opt "manager" .string, opt "operation" .string, opt "subresource" .string,
  opt "time" .timestamp]

def ownerReference : Shape := .record [
  req "apiVersion" .string, opt "blockOwnerDeletion" .boolean, opt "controller" .boolean,
  req "kind" .string, req "name" .string, req "uid" .string]

def metadata : Shape := .record [
  opt "annotations" labels, opt "creationTimestamp" .timestamp,
  opt "deletionGracePeriodSeconds" .int64, opt "deletionTimestamp" .timestamp,
  opt "finalizers" strings, opt "generateName" .string, opt "generation" .int64,
  opt "labels" labels, opt "managedFields" (.list managedField), opt "name" .string,
  opt "namespace" .string, opt "ownerReferences" (.list ownerReference),
  opt "resourceVersion" .string, opt "selfLink" .string, opt "uid" .string]

def labelSelectorRequirement : Shape := .record [
  req "key" .string, req "operator" .string, opt "values" strings]

def labelSelector : Shape := .record [
  opt "matchExpressions" (.list labelSelectorRequirement), opt "matchLabels" labels]

/-- A condition with the fields that the conditions of all kinds draw from. -/
def condition (extra : List (String × Bool × Shape)) : Shape := .record ([
  opt "lastTransitionTime" .timestamp, opt "message" .string, opt "reason" .string,
  req "status" .string, req "type" .string] ++ extra)

end MultiCluster.Cluster.Shape
