import QubershipZookeeper.Provider

/-!
# The objects of the ZooKeeper servers

`zookeeper_provider.go`: a client Service and a headless domain Service for the
ensemble, and for each server a Service, possibly a PersistentVolumeClaim, and a
Deployment.
-/

namespace QubershipZookeeper.Operator

/-- `ZooKeeperResourceProvider`: the custom resource with its ZooKeeper section. -/
structure ZooKeeperResourceProvider where
  /-- the custom resource -/
  cr : ZooKeeperService
  /-- its section on ZooKeeper -/
  spec : ZooKeeper
  /-- the section is the resource's own -/
  spec_eq : cr.spec.zooKeeper = some spec

/-- `fmt.Sprintf("%s-%d", name, serverId)`: the name of a server's Service and
Deployment. -/
def serverName (name : String) (serverId : ℕ) : String := name ++ "-" ++ toString serverId

/-- `persistentVolumeClaimPattern`, `pvc-%s-%d`. -/
def persistentVolumeClaimPattern (name : String) (serverId : ℕ) : String :=
  "pvc-" ++ name ++ "-" ++ toString serverId

namespace ZooKeeperResourceProvider

variable (p : ZooKeeperResourceProvider)

/-- `GetServiceName`. -/
def getServiceName : String := p.cr.name

/-- `GetServiceAccountName`. -/
def getServiceAccountName : String := p.getServiceName

/-! ## Services and claims -/

/-- `NewZooKeeperClientServiceForCR`. -/
def newZooKeeperClientServiceForCR : Except Panic Service := do
  let global ← deref p.cr.spec.global
  return newServiceForCR p.cr.name p.cr.namespaceName
    (getZooKeeperLabels p.cr.name global.defaultLabels) (getZooKeeperSelectorLabels p.cr.name)
    [{ name := "zookeeper-client", port := 2181 },
     { name := "nonencrypted-zookeeper-client", port := 2182 }]

/-- `NewZooKeeperDomainServiceForCR`. -/
def newZooKeeperDomainServiceForCR : Except Panic Service := do
  let global ← deref p.cr.spec.global
  let labels := (getZooKeeperLabels p.cr.name global.defaultLabels).insert
    "app.kubernetes.io/instance" ("zookeper-" ++ p.cr.namespaceName)
  return { newServiceForCR (p.cr.name ++ "-server") p.cr.namespaceName labels
      (getZooKeeperSelectorLabels p.cr.name)
      [{ name := "zookeeper-client", port := 2181 },
       { name := "nonencrypted-zookeeper-client", port := 2182 },
       { name := "zookeeper-followers", port := 2888 },
       { name := "zookeeper-election", port := 3888 },
       { name := "zookeeper-backup", port := 8081 }] with
    clusterIP := "None"
    publishNotReadyAddresses := true }

/-- `NewZooKeeperServerServiceForCR`. -/
def newZooKeeperServerServiceForCR (serverId : ℕ) : Except Panic Service := do
  let global ← deref p.cr.spec.global
  let serviceName := serverName p.cr.name serverId
  return newServiceForCR serviceName p.cr.namespaceName
    ((getZooKeeperLabels p.cr.name global.defaultLabels).insert "name" serviceName)
    ((getZooKeeperSelectorLabels p.cr.name).insert "name" serviceName)
    [{ name := "zookeeper-client", port := 2181 },
     { name := "nonencrypted-zookeeper-client", port := 2182 },
     { name := "zookeeper-followers", port := 2888 },
     { name := "zookeeper-election", port := 3888 },
     { name := "zookeeper-backup", port := 8081 },
     { name := "zookeeper-jolokia", port := p.spec.jolokiaPort },
     { name := "prometheus-http", port := 8080 }]

/-- The entry of a list with one entry per server; the empty list has the empty entry
for every server. -/
def perServer (xs : List String) (serverId : ℕ) : Except Panic String :=
  if xs = [] then .ok "" else index xs (serverId - 1)

/-- The storage class of a server: its own when there is one per server, and the
first one otherwise. -/
def storageClassName (serverId : ℕ) : Except Panic (Option String) :=
  match p.spec.storage.className with
  | [] => .ok none
  | className :: more =>
    if ((className :: more).length : ℤ) = p.spec.replicas then
      some <$> index (className :: more) (serverId - 1)
    else .ok (some className)

/-- `NewZooKeeperPersistentVolumeClaimForCR`. -/
def newZooKeeperPersistentVolumeClaimForCR (serverId : ℕ) :
    Except Panic (Option PersistentVolumeClaim) := do
  let persistentVolumeName ← perServer p.spec.storage.volumes serverId
  let persistentVolumeLabel ← perServer p.spec.storage.labels serverId
  let storageClassName ← p.storageClassName serverId
  let global ← deref p.cr.spec.global
  let labels := (getZooKeeperLabels p.cr.name global.defaultLabels).insert
    "cloud-backuper.netcracker.com/exclude-from-physical-backup" "true"
  processNonSharedPersistentVolumeClaim (persistentVolumeClaimPattern p.cr.name serverId)
    persistentVolumeName persistentVolumeLabel storageClassName p.spec.storage.size
    p.cr.namespaceName labels global.pvcAnnotations

/-! ## The Deployment of a server -/

/-- `getCommand`. -/
def getCommand : List String := if p.cr.vault?.isSome then ["/vault/vault-env"] else []

/-- `getArgs`. -/
def getArgs : List String :=
  if p.cr.vault?.isSome then ["/sbin/tini", "--", "/docker-entrypoint.sh", "start"] else []

/-- `getInitContainers`. -/
def getInitContainers : List Container := (p.cr.vault?.map getVaultInitContainer).toList

/-- `getExecCommand`. -/
def getExecCommand (originalCommand : List String) : ProbeHandler :=
  .exec (if p.cr.vault?.isSome then "/vault/vault-env" :: originalCommand else originalCommand)

/-- A probe that runs `zkHealth.sh`. -/
def healthProbe (argument : String) (initialDelaySeconds : ℕ) : Probe where
  handler := p.getExecCommand ["./bin/zkHealth.sh", argument]
  initialDelaySeconds := initialDelaySeconds
  timeoutSeconds := 20
  periodSeconds := 20
  successThreshold := 1
  failureThreshold := 5

/-- `getSecretEnvs`. -/
def getSecretEnvs : List EnvVar :=
  p.cr.vault?.elim [] fun vault =>
    let source := getVaultSecretEnvVarSource p.getServiceName vault p.cr.namespaceName
    [{ name := "ADMIN_USERNAME", value := source "admin-credentials" "username" },
     { name := "ADMIN_PASSWORD", value := source "admin-credentials" "password" },
     { name := "CLIENT_USERNAME", value := source "client-credentials" "username" },
     { name := "CLIENT_PASSWORD", value := source "client-credentials" "password" },
     { name := "ADDITIONAL_USERS", value := source "additional-users" "users" }]

/-- `getZooKeeperAffinityRules`. -/
def getZooKeeperAffinityRules (serverId : ℕ) : Except Panic Affinity :=
  if p.spec.storage.nodes = [] then .ok p.spec.affinity
  else p.spec.affinity.pinnedTo <$> index p.spec.storage.nodes (serverId - 1)

/-- `GetZooKeeperCustomLabels`. -/
def getZooKeeperCustomLabels (global : Global) (zooKeeperLabels : StringMap) : StringMap :=
  .joinMaps (.joinMaps global.customLabels p.spec.customLabels) zooKeeperLabels

/-- Are the credentials mounted from the Secret? -/
def mountsSecret : Bool := !p.cr.vault?.isSome && p.spec.secretName ≠ ""

/-- Is a diagnostics agent used? -/
def usesDiagnostics : Bool :=
  p.spec.diagnostics.mode = "dev" || p.spec.diagnostics.mode = "prod"

/-- The environment of a server, before the additional variables. -/
def serverEnvVars (global : Global) (serverId : ℕ) : List EnvVar :=
  [{ name := "SERVER_NAME", value := p.cr.name },
   { name := "SERVER_ID", value := toString serverId },
   { name := "SERVER_DOMAIN", value := p.cr.name ++ "-server" },
   namespaceEnv "SERVER_NAMESPACE",
   { name := "SERVER_COUNT", value := toString p.spec.replicas },
   { name := "HEAP_OPTS", value := "-Xms" ++ toString p.spec.heapSize ++ "m -Xmx" ++
       toString p.spec.heapSize ++ "m" },
   { name := "QUORUM_AUTH_ENABLED", value := toString p.spec.quorumAuthEnabled },
   { name := "JOLOKIA_PORT", value := toString p.spec.jolokiaPort },
   { name := "AUDIT_ENABLED", value := toString p.spec.auditEnabled }] ++
  p.getSecretEnvs ++
  (if p.mountsSecret then
    [{ name := "ZOOKEEPER_SECRETS_DIR", value := getPodSecretsMountPath "zookeeper" }]
   else []) ++
  (if p.usesDiagnostics then
    [namespaceEnv "CLOUD_NAMESPACE",
     { name := "MICROSERVICE_NAME", value := p.getServiceName },
     { name := "NC_DIAGNOSTIC_MODE", value := p.spec.diagnostics.mode },
     { name := "NC_DIAGNOSTIC_AGENT_SERVICE", value := p.spec.diagnostics.agentService }]
   else []) ++
  (p.cr.vault?.elim [] fun vault =>
    getVaultConnectionEnvVars p.getServiceName vault p.cr.namespaceName) ++
  (if global.usesSsl then
    [{ name := "ENABLE_SSL", value := "true" },
     { name := "SSL_CIPHER_SUITES", value := ",".intercalate p.spec.ssl.cipherSuites },
     { name := "ENABLE_2WAY_SSL", value := toString p.spec.ssl.enableTwoWaySsl },
     { name := "ALLOW_NONENCRYPTED_ACCESS", value := toString p.spec.ssl.allowNonencryptedAccess }]
   else [])

/-- What the data of a server is stored on. -/
def dataVolumeSource (serverId : ℕ) : VolumeSource :=
  if p.spec.storage.volumes ≠ [] ∨ p.spec.storage.labels ≠ [] ∨ p.spec.storage.className ≠ [] then
    .persistentVolumeClaim (persistentVolumeClaimPattern p.cr.name serverId)
  else .emptyDir none

/-- What snapshots are stored on. -/
def backupVolumeSource : VolumeSource :=
  let storage := p.spec.snapshotStorage
  if storage.persistentVolumeType = "" ∨ storage.persistentVolumeType = "standalone" then
    .emptyDir none
  else if storage.persistentVolumeClaimName = "" then
    .persistentVolumeClaim (snapshotsPersistentVolumeClaimPattern p.cr.name)
  else .persistentVolumeClaim storage.persistentVolumeClaimName

/-- The volumes of a server. -/
def serverVolumes (global : Global) (serverId : ℕ) : List Volume :=
  [⟨"data", p.dataVolumeSource serverId⟩,
   ⟨"log", .emptyDir none⟩,
   ⟨"backup-storage", p.backupVolumeSource⟩,
   getTmpVolume "32Mi"] ++
  (if p.mountsSecret then
    [newPodSecretsProjectedVolume "zookeeper-pod-secrets" [⟨p.spec.secretName,
      [⟨"admin-username", "admin-username"⟩,
       ⟨"admin-password", "admin-password"⟩,
       ⟨"client-username", "client-username"⟩,
       ⟨"client-password", "client-password"⟩,
       ⟨"additional-users", "additional-users"⟩]⟩]]
   else []) ++
  (if p.cr.vault?.isSome then [⟨"vault-env", .emptyDir none⟩] else []) ++
  (if global.usesSsl then [⟨"ssl-certs", .secret global.zooKeeperSsl.secretName⟩] else [])

/-- The volume mounts of a server. -/
def serverVolumeMounts (global : Global) : List VolumeMount :=
  [{ name := "data", mountPath := "/var/opt/zookeeper/data" },
   { name := "log", mountPath := "/opt/zookeeper/log" },
   { name := "backup-storage", mountPath := "/opt/zookeeper/backup-storage" },
   getTmpVolumeMount] ++
  (if p.mountsSecret then
    [newPodSecretsVolumeMount "zookeeper-pod-secrets" (getPodSecretsMountPath "zookeeper")]
   else []) ++
  (if p.cr.vault?.isSome then [{ name := "vault-env", mountPath := "/vault" }] else []) ++
  (if global.usesSsl then [{ name := "ssl-certs", mountPath := "/opt/zookeeper/tls" }] else [])

/-- The container of a server. -/
def serverContainer (global : Global) (serverId : ℕ) : Container where
  name := "zookeeper"
  image := p.spec.dockerImage
  command := p.getCommand
  args := p.getArgs
  ports := [{ containerPort := 2181 }, { containerPort := 2182 }, { containerPort := 2888 },
    { containerPort := 3888 }, { containerPort := p.spec.jolokiaPort }, { containerPort := 8080 }]
  env := buildEnvs (p.serverEnvVars global serverId) p.spec.environmentVariables
  resources := p.spec.resources
  volumeMounts := p.serverVolumeMounts global
  livenessProbe := some (p.healthProbe "liveness-probe" 20)
  readinessProbe := some (p.healthProbe "readiness-probe" 40)
  imagePullPolicy := .always
  securityContext := getDefaultContainerSecurityContext

/-- The labels of a server's Deployment. -/
def serverLabels (global : Global) (serverId : ℕ) : StringMap :=
  (((getZooKeeperLabels p.cr.name global.defaultLabels).insert
    "name" (serverName p.cr.name serverId)).insert
    "app.kubernetes.io/technology" "java-others").insert
    "app.kubernetes.io/instance" (p.cr.name ++ "-" ++ p.cr.namespaceName)

/-- `NewServerDeploymentForCR`. -/
def newServerDeploymentForCR (serverId : ℕ) : Except Panic Deployment := do
  let global ← deref p.cr.spec.global
  let affinity ← p.getZooKeeperAffinityRules serverId
  let deploymentName := serverName p.cr.name serverId
  return {
    metadata := { name := deploymentName, namespaceName := p.cr.namespaceName,
                  labels := p.serverLabels global serverId }
    replicas := 1
    selector := (getZooKeeperSelectorLabels p.cr.name).insert "name" deploymentName
    templateLabels := p.getZooKeeperCustomLabels global (p.serverLabels global serverId)
    podSpec := {
      volumes := p.serverVolumes global serverId
      initContainers := p.getInitContainers
      containers := [p.serverContainer global serverId]
      securityContext := p.spec.securityContext
      hostname := deploymentName
      serviceAccountName := p.getServiceAccountName
      subdomain := p.cr.name ++ "-server"
      affinity := affinity
      tolerations := p.spec.tolerations
      priorityClassName := p.spec.priorityClassName }
    strategy := "Recreate" }

end ZooKeeperResourceProvider

end QubershipZookeeper.Operator
