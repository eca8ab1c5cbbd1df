import MultiCluster.Cluster.Kind.Workload
import MultiCluster.Cluster.Kind.Node
import MultiCluster.Cluster.Request

/-! The kinds of objects that this library reads and writes: where they live, how they are named,
and their types. -/
namespace MultiCluster.Cluster

inductive Kind where
  | namespaces | pod | configMap | secret | serviceAccount | deployment | daemonSet | node
  | role | roleBinding | clusterRole | clusterRoleBinding | customResourceDefinition
  | broker | machineSet
  deriving DecidableEq, Repr

namespace Kind

def name : Kind → String
  | .namespaces => "Namespace"
  | .pod => "Pod"
  | .configMap => "ConfigMap"
  | .secret => "Secret"
  | .serviceAccount => "ServiceAccount"
  | .deployment => "Deployment"
  | .daemonSet => "DaemonSet"
  | .node => "Node"
  | .role => "Role"
  | .roleBinding => "RoleBinding"
  | .clusterRole => "ClusterRole"
  | .clusterRoleBinding => "ClusterRoleBinding"
  | .customResourceDefinition => "CustomResourceDefinition"
  | .broker => "Broker"
  | .machineSet => "MachineSet"

def all : List Kind := [.namespaces, .pod, .configMap, .secret, .serviceAccount, .deployment,
  .daemonSet, .node, .role, .roleBinding, .clusterRole, .clusterRoleBinding,
  .customResourceDefinition, .broker, .machineSet]

def ofName? (name : String) : Option Kind := all.find? fun k => k.name == name

/-- The API group; the core group is empty. -/
def group : Kind → String
  | .deployment => "apps"
  | .daemonSet => "apps"
  | .role => "rbac.authorization.k8s.io"
  | .roleBinding => "rbac.authorization.k8s.io"
  | .clusterRole => "rbac.authorization.k8s.io"
  | .clusterRoleBinding => "rbac.authorization.k8s.io"
  | .customResourceDefinition => "apiextensions.k8s.io"
  | .broker => "submariner.io"
  | .machineSet => "machine.openshift.io"
  | _ => ""

def version : Kind → String
  | .broker => "v1alpha1"
  | .machineSet => "v1beta1"
  | _ => "v1"

def plural : Kind → String
  | .namespaces => "namespaces"
  | .pod => "pods"
  | .configMap => "configmaps"
  | .secret => "secrets"
  | .serviceAccount => "serviceaccounts"
  | .deployment => "deployments"
  | .daemonSet => "daemonsets"
  | .node => "nodes"
  | .role => "roles"
  | .roleBinding => "rolebindings"
  | .clusterRole => "clusterroles"
  | .clusterRoleBinding => "clusterrolebindings"
  | .customResourceDefinition => "customresourcedefinitions"
  | .broker => "brokers"
  | .machineSet => "machinesets"

def apiVersion (k : Kind) : String :=
  if k.group == "" then k.version else k.group ++ "/" ++ k.version

def root (k : Kind) : Path := if k.group == "" then ["api", k.version] else ["apis", k.group, k.version]

open Shape in
/-- The fields of an object beside `apiVersion`, `kind` and `metadata`. -/
def fields : Kind → List (String × Bool × Shape)
  | .namespaces => [
    opt "spec" (.record [opt "finalizers" strings]),
    opt "status" (.record [opt "conditions" (.list (condition [])), opt "phase" .string])]
  | .pod => [opt "spec" podSpec, opt "status" podStatus]
  | .configMap => [
    opt "binaryData" (.table .bytes), opt "data" (.table .string), opt "immutable" .boolean]
  | .secret => [
    opt "data" (.table .bytes), opt "immutable" .boolean, opt "stringData" (.table .string),
    opt "type" .string]
  | .serviceAccount => [
    opt "automountServiceAccountToken" .boolean, opt "imagePullSecrets" (.list localReference),
    opt "secrets" (.list (.record [
      opt "apiVersion" .string, opt "fieldPath" .string, opt "kind" .string, opt "name" .string,
      opt "namespace" .string, opt "resourceVersion" .string, opt "uid" .string]))]
  | .deployment => [opt "spec" deploymentSpec, opt "status" deploymentStatus]
  | .daemonSet => [opt "spec" daemonSetSpec, opt "status" daemonSetStatus]
  | .node => [opt "spec" nodeSpec, opt "status" nodeStatus]
  | .role => [opt "rules" (.list policyRule)]
  | .roleBinding => [req "roleRef" roleRef, opt "subjects" (.list subject)]
  | .clusterRole => [
    opt "aggregationRule" (.record [opt "clusterRoleSelectors" (.list labelSelector)]),
    opt "rules" (.list policyRule)]
  | .clusterRoleBinding => [req "roleRef" roleRef, opt "subjects" (.list subject)]
  | .customResourceDefinition => [opt "spec" .any, opt "status" .any]
  | .broker => []
  | .machineSet => []
where
  policyRule : Shape := .record [
    opt "apiGroups" strings, opt "nonResourceURLs" strings, opt "resourceNames" strings,
    opt "resources" strings, req "verbs" strings]
  roleRef : Shape := .record [req "apiGroup" .string, req "kind" .string, req "name" .string]
  subject : Shape := .record [
    opt "apiGroup" .string, req "kind" .string, req "name" .string, opt "namespace" .string]

end Kind
end MultiCluster.Cluster
