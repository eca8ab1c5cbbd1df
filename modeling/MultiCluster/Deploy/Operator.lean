import MultiCluster.Cluster.Decision
import MultiCluster.Deploy.Rights

/-! The operator that looks after the broker object: its account, its rights and its deployment.
The deployment is replaced only if its container runs another image or verbosity. -/
namespace MultiCluster.Deploy

open Cluster

namespace Operator

def name : String := "submariner-operator"

def arguments (debug : Bool) : List String := [if debug then "-v=3" else "-v=1"]

/-- A tag that moves has to be pulled every time. -/
def pullPolicy (image : String) : String :=
  if image.endsWith ":devel" || image.endsWith ":latest" then "Always" else "IfNotPresent"

def fieldVariable (name path : String) : Json := .obj [
  ("name", .str name),
  ("valueFrom", .obj [("fieldRef", .obj [("fieldPath", .str path)])])]

def labels : Json := .obj [("name", .str name)]

def container (o : Operator) : Json := .obj [
  ("args", Json.strings (arguments o.debug)),
  ("command", Json.strings [name]),
  ("env", .arr [
    fieldVariable "WATCH_NAMESPACE" "metadata.namespace",
    fieldVariable "POD_NAME" "metadata.name",
    .obj [("name", .str "OPERATOR_NAME"), ("value", .str name)]]),
  ("image", .str o.image),
  ("imagePullPolicy", .str (pullPolicy o.image)),
  ("name", .str name)]

def deployment (o : Operator) : Json :=
  Kind.deployment.object (("labels", labels) :: Object.named name o.namespaceName) [
    ("spec", .obj [
      ("replicas", .int 1),
      ("selector", .obj [("matchLabels", labels)]),
      ("template", .obj [
        ("metadata", .obj [("labels", labels)]),
        ("spec", .obj [
          ("containers", .arr [o.container]),
          ("serviceAccountName", .str name)])])])]

end Operator

namespace Operator

def container? (deployment : Json) : Option Json :=
  (deployment.itemsAt ["spec", "template", "spec", "containers"]).find? fun c =>
    c.textAt? ["name"] == some name

/-- Whether a container runs the image at the verbosity that is wanted. -/
def runs (o : Operator) (container : Json) : Bool :=
  container.textAt? ["image"] == some o.image &&
    container.get? "args" == some (Json.strings (arguments o.debug))

def action (existing : Option Json) (o : Operator) : Decision :=
  match existing with
  | none => .create
  | some d =>
    match container? d with
    | some c => if o.runs c then .unchanged else .update
    | none => .update

def rules : List Json :=
  [(["submariner.io"], ["*"]),
    (["apps"], ["deployments", "daemonsets", "replicasets"]),
    ([""], ["pods", "services", "configmaps", "secrets", "serviceaccounts", "namespaces"]),
    (["rbac.authorization.k8s.io"],
      ["roles", "rolebindings", "clusterroles", "clusterrolebindings"]),
    (["apiextensions.k8s.io"], ["customresourcedefinitions"]),
    (["multicluster.x-k8s.io"], ["*"]),
    (["discovery.k8s.io"], ["endpointslices"])].map fun (groups, resources) =>
      ruleJson groups resources ["*"]

def account (o : Operator) : Json :=
  Kind.serviceAccount.object (Object.named name o.namespaceName) []

def role : Json := Kind.clusterRole.object [("name", .str name)] [("rules", .arr rules)]

def binding (o : Operator) : Json :=
  Kind.clusterRoleBinding.object [("name", .str name)] [
    ("roleRef", roleReference .clusterRole name),
    ("subjects", .arr [accountSubject name o.namespaceName])]

/-- The objects that are applied before the deployment, after the namespace. -/
def objects (o : Operator) : List (Collection × List Json) := [
  (.inNamespace .serviceAccount o.namespaceName, [o.account]),
  (.clusterWide .clusterRole, [role]),
  (.clusterWide .clusterRoleBinding, [o.binding])]

def deployments (o : Operator) : Collection := .inNamespace .deployment o.namespaceName

/-- Create or replace the deployment, unless it already runs what is wanted. A replacement is
bound to the version that was read. -/
def ensureDeployment (o : Operator) : Work Outcome := do
  let c := o.deployments
  let label := c.label name
  let existing ← persistently (c.find? label name)
  match action existing o with
  | .create =>
    let _ ← persistently (c.create label o.deployment)
    pure .created
  | .update =>
    let version := existing.bind Object.version?
    let _ ← persistently (c.replace label name (Object.withVersion version o.deployment))
    pure .updated
  | .unchanged => pure .unchanged

def ensure (o : Operator) : Work Outcome := do
  let first ← persistently (Cluster.ensureNamespace o.namespaceName)
  let others ← applyObjects o.objects
  let last ← o.ensureDeployment
  pure (Outcome.combine (first :: others ++ [last]))

end Operator
end MultiCluster.Deploy
