import MultiCluster.Cluster.Kind.Metadata

/-! The shape of pods: containers, volumes, placement and status. -/
namespace MultiCluster.Cluster.Shape

def localReference : Shape := .record [req "name" .string]

def resourceAmounts : Shape := .table .string

def objectFieldSelector : Shape := .record [opt "apiVersion" .string, req "fieldPath" .string]

def resourceFieldSelector : Shape := .record [
  opt "containerName" .string, opt "divisor" .string, req "resource" .string]

def keySelector : Shape := .record [
  req "key" .string, req "name" .string, opt "optional" .boolean]

def envVar : Shape := .record [
  req "name" .string, opt "value" .string,
  opt "valueFrom" (.record [
    opt "configMapKeyRef" keySelector, opt "fieldRef" objectFieldSelector,
    opt "resourceFieldRef" resourceFieldSelector, opt "secretKeyRef" keySelector])]

def envFrom : Shape :=
  let source : Shape := .record [req "name" .string, opt "optional" .boolean]
  .record [opt "configMapRef" source, opt "prefix" .string, opt "secretRef" source]

def execAction : Shape := .record [opt "command" strings]

def httpGetAction : Shape := .record [
  opt "host" .string,
  opt "httpHeaders" (.list (.record [req "name" .string, req "value" .string])),
  opt "path" .string, req "port" .intOrString, opt "scheme" .string]

def tcpSocketAction : Shape := .record [opt "host" .string, req "port" .intOrString]

def lifecycleHandler : Shape := .record [
  opt "exec" execAction, opt "httpGet" httpGetAction,
  opt "sleep" (.record [req "seconds" .int64]), opt "tcpSocket" tcpSocketAction]

def lifecycle : Shape := .record [
  opt "postStart" lifecycleHandler, opt "preStop" lifecycleHandler]

def probe : Shape := .record [
  opt "exec" execAction, opt "failureThreshold" .int32,
  opt "grpc" (.record [req "port" .int32, opt "service" .string]),
  opt "httpGet" httpGetAction, opt "initialDelaySeconds" .int32, opt "periodSeconds" .int32,
  opt "successThreshold" .int32, opt "tcpSocket" tcpSocketAction,
  opt "terminationGracePeriodSeconds" .int64, opt "timeoutSeconds" .int32]

def containerPort : Shape := .record [
  req "containerPort" .int32, opt "hostIP" .string, opt "hostPort" .int32, opt "name" .string,
  opt "protocol" .string]

def resourceRequirements : Shape := .record [
  opt "claims" (.list (.record [req "name" .string, opt "request" .string])),
  opt "limits" resourceAmounts, opt "requests" resourceAmounts]

def seLinuxOptions : Shape := .record [
  opt "level" .string, opt "role" .string, opt "type" .string, opt "user" .string]

def localProfile : Shape := .record [opt "localhostProfile" .string, req "type" .string]

def windowsOptions : Shape := .record [
  opt "gmsaCredentialSpec" .string, opt "gmsaCredentialSpecName" .string,
  opt "hostProcess" .boolean, opt "runAsUserName" .string]

def securityContext : Shape := .record [
  opt "allowPrivilegeEscalation" .boolean, opt "appArmorProfile" localProfile,
  opt "capabilities" (.record [opt "add" strings, opt "drop" strings]),
  opt "privileged" .boolean, opt "procMount" .string, opt "readOnlyRootFilesystem" .boolean,
  opt "runAsGroup" .int64, opt "runAsNonRoot" .boolean, opt "runAsUser" .int64,
  opt "seLinuxOptions" seLinuxOptions, opt "seccompProfile" localProfile,
  opt "windowsOptions" windowsOptions]

def volumeMount : Shape := .record [
  req "mountPath" .string, opt "mountPropagation" .string, req "name" .string,
  opt "readOnly" .boolean, opt "recursiveReadOnly" .string, opt "subPath" .string,
  opt "subPathExpr" .string]

def containerFields : List (String × Bool × Shape) := [
  opt "args" strings, opt "command" strings, opt "env" (.list envVar),
  opt "envFrom" (.list envFrom), opt "image" .string, opt "imagePullPolicy" .string,
  opt "lifecycle" lifecycle, opt "livenessProbe" probe, req "name" .string,
  opt "ports" (.list containerPort), opt "readinessProbe" probe,
  opt "resizePolicy" (.list (.record [req "resourceName" .string, req "restartPolicy" .string])),
  opt "resources" resourceRequirements, opt "restartPolicy" .string,
  opt "securityContext" securityContext, opt "startupProbe" probe, opt "stdin" .boolean,
  opt "stdinOnce" .boolean, opt "terminationMessagePath" .string,
  opt "terminationMessagePolicy" .string, opt "tty" .boolean,
  opt "volumeDevices" (.list (.record [req "devicePath" .string, req "name" .string])),
  opt "volumeMounts" (.list volumeMount), opt "workingDir" .string]

def container : Shape := .record containerFields

def ephemeralContainer : Shape := .record (containerFields ++ [opt "targetContainerName" .string])

def nodeSelectorTerm : Shape :=
  let requirement : Shape := .record [req "key" .string, req "operator" .string,
    opt "values" strings]
  .record [opt "matchExpressions" (.list requirement), opt "matchFields" (.list requirement)]

def nodeAffinity : Shape := .record [
  opt "preferredDuringSchedulingIgnoredDuringExecution" (.list (.record [
    req "preference" nodeSelectorTerm, req "weight" .int32])),
  opt "requiredDuringSchedulingIgnoredDuringExecution" (.record [
    req "nodeSelectorTerms" (.list nodeSelectorTerm)])]

def podAffinityTerm : Shape := .record [
  opt "labelSelector" labelSelector, opt "matchLabelKeys" strings,
  opt "mismatchLabelKeys" strings, opt "namespaceSelector" labelSelector,
  opt "namespaces" strings, req "topologyKey" .string]

def podAffinity : Shape := .record [
  opt "preferredDuringSchedulingIgnoredDuringExecution" (.list (.record [
    req "podAffinityTerm" podAffinityTerm, req "weight" .int32])),
  opt "requiredDuringSchedulingIgnoredDuringExecution" (.list podAffinityTerm)]

def affinity : Shape := .record [
  opt "nodeAffinity" nodeAffinity, opt "podAffinity" podAffinity,
  opt "podAntiAffinity" podAffinity]

def toleration : Shape := .record [
  opt "effect" .string, opt "key" .string, opt "operator" .string,
  opt "tolerationSeconds" .int64, opt "value" .string]

def topologySpread : Shape := .record [
  opt "labelSelector" labelSelector, opt "matchLabelKeys" strings, req "maxSkew" .int32,
  opt "minDomains" .int32, opt "nodeAffinityPolicy" .string, opt "nodeTaintsPolicy" .string,
  req "topologyKey" .string, req "whenUnsatisfiable" .string]

def keyToPath : Shape := .record [req "key" .string, opt "mode" .int32, req "path" .string]

def downwardFile : Shape := .record [
  opt "fieldRef" objectFieldSelector, opt "mode" .int32, req "path" .string,
  opt "resourceFieldRef" resourceFieldSelector]

def projection : Shape := .record [
  opt "clusterTrustBundle" (.record [
    opt "labelSelector" labelSelector, opt "name" .string, opt "optional" .boolean,
    req "path" .string, opt "signerName" .string]),
  opt "configMap" (.record [
    opt "items" (.list keyToPath), req "name" .string, opt "optional" .boolean]),
  opt "downwardAPI" (.record [opt "items" (.list downwardFile)]),
  opt "secret" (.record [
    opt "items" (.list keyToPath), req "name" .string, opt "optional" .boolean]),
  opt "serviceAccountToken" (.record [
    opt "audience" .string, opt "expirationSeconds" .int64, req "path" .string])]

def claimSpec : Shape := .record [
  opt "accessModes" strings,
  opt "dataSource" (.record [opt "apiGroup" .string, req "kind" .string, req "name" .string]),
  opt "dataSourceRef" (.record [
    opt "apiGroup" .string, req "kind" .string, req "name" .string, opt "namespace" .string]),
  opt "resources" (.record [opt "limits" resourceAmounts, opt "requests" resourceAmounts]),
  opt "selector" labelSelector, opt "storageClassName" .string,
  opt "volumeAttributesClassName" .string, opt "volumeMode" .string, opt "volumeName" .string]

def volume : Shape := .record [
  opt "awsElasticBlockStore" (.record [
    opt "fsType" .string, opt "partition" .int32, opt "readOnly" .boolean,
    req "volumeID" .string]),
  opt "azureDisk" (.record [
    opt "cachingMode" .string, req "diskName" .string, req "diskURI" .string,
    opt "fsType" .string, opt "kind" .string, opt "readOnly" .boolean]),
  opt "azureFile" (.record [
    opt "readOnly" .boolean, req "secretName" .string, req "shareName" .string]),
  opt "cephfs" (.record [
    req "monitors" strings, opt "path" .string, opt "readOnly" .boolean,
    opt "secretFile" .string, opt "secretRef" localReference, opt "user" .string]),
  opt "cinder" (.record [
    opt "fsType" .string, opt "readOnly" .boolean, opt "secretRef" localReference,
    req "volumeID" .string]),
  opt "configMap" (.record [
    opt "defaultMode" .int32, opt "items" (.list keyToPath), req "name" .string,
    opt "optional" .boolean]),
  opt "csi" (.record [
    req "driver" .string, opt "fsType" .string, opt "nodePublishSecretRef" localReference,
    opt "readOnly" .boolean, opt "volumeAttributes" labels]),
  opt "downwardAPI" (.record [
    opt "defaultMode" .int32, opt "items" (.list downwardFile)]),
  opt "emptyDir" (.record [opt "medium" .string, opt "sizeLimit" .string]),
  opt "ephemeral" (.record [
    opt "volumeClaimTemplate" (.record [opt "metadata" metadata, req "spec" claimSpec])]),
  opt "fc" (.record [
    opt "fsType" .string, opt "lun" .int32, opt "readOnly" .boolean, opt "targetWWNs" strings,
    opt "wwids" strings]),
  opt "flexVolume" (.record [
    req "driver" .string, opt "fsType" .string, opt "options" labels, opt "readOnly" .boolean,
    opt "secretRef" localReference]),
  opt "flocker" (.record [opt "datasetName" .string, opt "datasetUUID" .string]),
  opt "gcePersistentDisk" (.record [
    opt "fsType" .string, opt "partition" .int32, req "pdName" .string,
    opt "readOnly" .boolean]),
  opt "gitRepo" (.record [
    opt "directory" .string, req "repository" .string, opt "revision" .string]),
  opt "glusterfs" (.record [
    req "endpoints" .string, req "path" .string, opt "readOnly" .boolean]),
  opt "hostPath" (.record [req "path" .string, opt "type" .string]),
  opt "image" (.record [opt "pullPolicy" .string, opt "reference" .string]),
  opt "iscsi" (.record [
    opt "chapAuthDiscovery" .boolean, opt "chapAuthSession" .boolean, opt "fsType" .string,
    opt "initiatorName" .string, req "iqn" .string, opt "iscsiInterface" .string,
    req "lun" .int32, opt "portals" strings, opt "readOnly" .boolean,
    opt "secretRef" localReference, req "targetPortal" .string]),
  req "name" .string,
  opt "nfs" (.record [req "path" .string, opt "readOnly" .boolean, req "server" .string]),
  opt "persistentVolumeClaim" (.record [req "claimName" .string, opt "readOnly" .boolean]),
  opt "photonPersistentDisk" (.record [opt "fsType" .string, req "pdID" .string]),
  opt "portworxVolume" (.record [
    opt "fsType" .string, opt "readOnly" .boolean, req "volumeID" .string]),
  opt "projected" (.record [opt "defaultMode" .int32, opt "sources" (.list projection)]),
  opt "quobyte" (.record [
    opt "group" .string, opt "readOnly" .boolean, req "registry" .string, opt "tenant" .string,
    opt "user" .string, req "volume" .string]),
  opt "rbd" (.record [
    opt "fsType" .string, req "image" .string, opt "keyring" .string, req "monitors" strings,
    opt "pool" .string, opt "readOnly" .boolean, opt "secretRef" localReference,
    opt "user" .string]),
  opt "scaleIO" (.record [
    opt "fsType" .string, req "gateway" .string, opt "protectionDomain" .string,
    opt "readOnly" .boolean, req "secretRef" localReference, opt "sslEnabled" .boolean,
    opt "storageMode" .string, opt "storagePool" .string, req "system" .string,
    opt "volumeName" .string]),
  opt "secret" (.record [
    opt "defaultMode" .int32, opt "items" (.list keyToPath), opt "optional" .boolean,
    opt "secretName" .string]),
  opt "storageos" (.record [
    opt "fsType" .string, opt "readOnly" .boolean, opt "secretRef" localReference,
    opt "volumeName" .string, opt "volumeNamespace" .string]),
  opt "vsphereVolume" (.record [
    opt "fsType" .string, opt "storagePolicyID" .string, opt "storagePolicyName" .string,
    req "volumePath" .string])]

def podSecurityContext : Shape := .record [
  opt "appArmorProfile" localProfile, opt "fsGroup" .int64, opt "fsGroupChangePolicy" .string,
  opt "runAsGroup" .int64, opt "runAsNonRoot" .boolean, opt "runAsUser" .int64,
  opt "seLinuxChangePolicy" .string, opt "seLinuxOptions" seLinuxOptions,
  opt "seccompProfile" localProfile, opt "supplementalGroups" (.list .int64),
  opt "supplementalGroupsPolicy" .string,
  opt "sysctls" (.list (.record [req "name" .string, req "value" .string])),
  opt "windowsOptions" windowsOptions]

def podSpec : Shape := .record [
  opt "activeDeadlineSeconds" .int64, opt "affinity" affinity,
  opt "automountServiceAccountToken" .boolean, req "containers" (.list container),
  opt "dnsConfig" (.record [
    opt "nameservers" strings,
    opt "options" (.list (.record [opt "name" .string, opt "value" .string])),
    opt "searches" strings]),
  opt "dnsPolicy" .string, opt "enableServiceLinks" .boolean,
  opt "ephemeralContainers" (.list ephemeralContainer),
  opt "hostAliases" (.list (.record [opt "hostnames" strings, req "ip" .string])),
  opt "hostIPC" .boolean, opt "hostNetwork" .boolean, opt "hostPID" .boolean,
  opt "hostUsers" .boolean, opt "hostname" .string,
  opt "imagePullSecrets" (.list localReference), opt "initContainers" (.list container),
  opt "nodeName" .string, opt "nodeSelector" labels, opt "os" (.record [req "name" .string]),
  opt "overhead" resourceAmounts, opt "preemptionPolicy" .string, opt "priority" .int32,
  opt "priorityClassName" .string,
  opt "readinessGates" (.list (.record [req "conditionType" .string])),
  opt "resourceClaims" (.list (.record [
    req "name" .string, opt "resourceClaimName" .string,
    opt "resourceClaimTemplateName" .string])),
  opt "resources" resourceRequirements, opt "restartPolicy" .string,
  opt "runtimeClassName" .string, opt "schedulerName" .string,
  opt "schedulingGates" (.list (.record [req "name" .string])),
  opt "securityContext" podSecurityContext, opt "serviceAccount" .string,
  opt "serviceAccountName" .string, opt "setHostnameAsFQDN" .boolean,
  opt "shareProcessNamespace" .boolean, opt "subdomain" .string,
  opt "terminationGracePeriodSeconds" .int64, opt "tolerations" (.list toleration),
  opt "topologySpreadConstraints" (.list topologySpread), opt "volumes" (.list volume)]

def containerState : Shape := .record [
  opt "running" (.record [opt "startedAt" .timestamp]),
  opt "terminated" (.record [
    opt "containerID" .string, req "exitCode" .int32, opt "finishedAt" .timestamp,
    opt "message" .string, opt "reason" .string, opt "signal" .int32,
    opt "startedAt" .timestamp]),
  opt "waiting" (.record [opt "message" .string, opt "reason" .string])]

def containerStatus : Shape := .record [
  opt "allocatedResources" resourceAmounts,
  opt "allocatedResourcesStatus" (.list (.record [
    req "name" .string,
    opt "resources" (.list (.record [opt "health" .string, req "resourceID" .string]))])),
  opt "containerID" .string, req "image" .string, req "imageID" .string,
  opt "lastState" containerState, req "name" .string, req "ready" .boolean,
  opt "resources" resourceRequirements, req "restartCount" .int32, opt "started" .boolean,
  opt "state" containerState,
  opt "user" (.record [
    opt "linux" (.record [
      req "gid" .int64, opt "supplementalGroups" (.list .int64), req "uid" .int64])]),
  opt "volumeMounts" (.list (.record [
    req "mountPath" .string, req "name" .string, opt "readOnly" .boolean,
    opt "recursiveReadOnly" .string]))]

def podStatus : Shape := .record [
  opt "conditions" (.list (condition [opt "lastProbeTime" .timestamp])),
  opt "containerStatuses" (.list containerStatus),
  opt "ephemeralContainerStatuses" (.list containerStatus), opt "hostIP" .string,
  opt "hostIPs" (.list (.record [req "ip" .string])),
  opt "initContainerStatuses" (.list containerStatus), opt "message" .string,
  opt "nominatedNodeName" .string, opt "phase" .string, opt "podIP" .string,
  opt "podIPs" (.list (.record [req "ip" .string])), opt "qosClass" .string,
  opt "reason" .string, opt "resize" .string,
  opt "resourceClaimStatuses" (.list (.record [
    req "name" .string, opt "resourceClaimName" .string])),
  opt "startTime" .timestamp]

def podTemplate : Shape := .record [opt "metadata" metadata, opt "spec" podSpec]

end MultiCluster.Cluster.Shape
