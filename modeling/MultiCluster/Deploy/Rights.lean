import MultiCluster.Broker.Definition
import MultiCluster.Cluster.Client
import MultiCluster.Deploy.Options

/-! Access rights in the broker's namespace. Member clusters join through a client account, whose
role grants what the deployed components exchange through the broker; an admin account has the
wider role that manages the broker. -/
namespace MultiCluster.Deploy

open Cluster

/-- A rule of a role: verbs on resources of API groups. -/
def ruleJson (groups resources verbs : List String) : Json := .obj [
  ("apiGroups", Json.strings groups), ("resources", Json.strings resources),
  ("verbs", Json.strings verbs)]

def roleReference (k : Kind) (name : String) : Json := .obj [
  ("apiGroup", .str k.group), ("kind", .str k.name), ("name", .str name)]

def accountSubject (name ns : String) : Json := .obj [
  ("kind", .str Kind.serviceAccount.name), ("name", .str name), ("namespace", .str ns)]

def applyAll (c : Collection) : List Json → Work (List Outcome)
  | [] => pure []
  | v :: rest => do
    let outcome ← persistently (c.apply v)
    let others ← applyAll c rest
    pure (outcome :: others)

namespace Rights

def adminName : String := "submariner-k8s-broker-admin"
def clientName : String := "submariner-k8s-broker-client"
def clusterRoleName : String := "submariner-k8s-broker-cluster"
def tokenName : String := "submariner-k8s-broker-client-token"

def submarinerGroup : String := "submariner.io"
def servicesGroup : String := "multicluster.x-k8s.io"
def discoveryGroup : String := "discovery.k8s.io"
def rightsGroup : String := "rbac.authorization.k8s.io"

/-- What it takes to keep two copies of a resource in step. -/
def syncVerbs : List String := ["create", "get", "list", "watch", "patch", "update", "delete"]

def metadata (name ns : String) : Fields :=
  ("labels", .obj [("app.kubernetes.io/managed-by", .str "subctl")]) :: Object.named name ns

def adminRules (components : List String) : List Json :=
  [ruleJson [submarinerGroup] ["*"] ["*"],
    ruleJson [""] ["secrets", "serviceaccounts", "configmaps"] ["*"],
    ruleJson [rightsGroup] ["rolebindings"] ["*"]] ++
  if components.contains Component.serviceDiscovery then
    [ruleJson [servicesGroup] ["*"] ["*"]]
  else []

def clusterRules (components : List String) : List Json :=
  [ruleJson [submarinerGroup] ["clusters", "endpoints"] syncVerbs] ++
  (if components.contains Component.serviceDiscovery then
    [ruleJson [servicesGroup] ["serviceimports"] syncVerbs,
      ruleJson [discoveryGroup] ["endpointslices"] syncVerbs]
  else []) ++
  if components.contains Component.globalnet then
    [ruleJson [""] ["configmaps"] ["get", "list", "watch", "update"]]
  else []

/-- The role of the admin and the role of the clusters. -/
def roles (r : Rights) : List Json := [
  Kind.role.object (metadata adminName r.brokerNamespace)
    [("rules", .arr (adminRules r.components))],
  Kind.role.object (metadata clusterRoleName r.brokerNamespace)
    [("rules", .arr (clusterRules r.components))]]

def accounts (r : Rights) : List Json :=
  [adminName, clientName].map fun name =>
    Kind.serviceAccount.object (metadata name r.brokerNamespace) []

def bindings (r : Rights) : List Json :=
  [(adminName, adminName), (clientName, clusterRoleName)].map fun (account, role) =>
    Kind.roleBinding.object (metadata account r.brokerNamespace) [
      ("roleRef", roleReference .role role),
      ("subjects", .arr [accountSubject account r.brokerNamespace])]

/-- A secret that the cluster fills with the client's token. -/
def clientToken (r : Rights) : Json :=
  Kind.secret.object
    (("annotations", .obj [("kubernetes.io/service-account.name", .str clientName)]) ::
      metadata tokenName r.brokerNamespace)
    [("type", .str "kubernetes.io/service-account-token")]

/-- The objects in the order in which they are applied, after the namespace. -/
def objects (r : Rights) : List (Collection × List Json) :=
  let inNamespace (k : Kind) : Collection := .inNamespace k r.brokerNamespace
  [(.clusterWide .customResourceDefinition, [BrokerSpec.definition]),
    (inNamespace .serviceAccount, r.accounts),
    (inNamespace .role, r.roles),
    (inNamespace .roleBinding, r.bindings),
    (inNamespace .secret, [r.clientToken])]

end Rights

def applyObjects : List (Collection × List Json) → Work (List Outcome)
  | [] => pure []
  | (c, objects) :: rest => do
    let outcomes ← applyAll c objects
    let others ← applyObjects rest
    pure (outcomes ++ others)

/-- Bring the rights about: the namespace first, then everything in it. -/
def Rights.ensure (r : Rights) : Work Outcome := do
  let first ← persistently (Cluster.ensureNamespace r.brokerNamespace)
  let others ← applyObjects r.objects
  pure (Outcome.combine (first :: others))

end MultiCluster.Deploy
