import QubershipZookeeper.Provider

/-!
# The objects of the monitoring agent

`monitoring_provider.go`: a Service and a Deployment. The Deployment is built from the
monitoring section, and also from the **backup daemon's** section and from the Vault
section of the custom resource.
-/

namespace QubershipZookeeper.Operator

/-- `MonitoringResourceProvider`: the custom resource with its monitoring section. -/
structure MonitoringResourceProvider where
  /-- the custom resource -/
  cr : ZooKeeperService
  /-- its section on monitoring -/
  spec : Monitoring
  /-- the section is the resource's own -/
  spec_eq : cr.spec.monitoring = some spec

namespace MonitoringResourceProvider

variable (p : MonitoringResourceProvider)

/-- `GetServiceName`. -/
def getServiceName : String := p.cr.name ++ "-monitoring"

/-- `GetServiceAccountName`. -/
def getServiceAccountName : String := p.getServiceName

/-! ## Labels and the Service -/

/-- `GetMonitoringSelectorLabels`. -/
def getMonitoringSelectorLabels : StringMap :=
  .ofList [("name", p.getServiceName), ("component", "zookeeper-monitoring")]

/-- `GetMonitoringLabels`. -/
def getMonitoringLabels (global : Global) : StringMap :=
  .joinMaps (.joinMaps (.ofList [("app.kubernetes.io/name", p.getServiceName)])
    p.getMonitoringSelectorLabels) global.defaultLabels

/-- `GetMonitoringCustomLabels`. -/
def getMonitoringCustomLabels (global : Global) (monitoringLabels : StringMap) : StringMap :=
  .joinMaps (.joinMaps global.customLabels p.spec.customLabels) monitoringLabels

/-- `NewMonitoringClientService`. -/
def newMonitoringClientService : Except Panic Service := do
  let global ← deref p.cr.spec.global
  return newServiceForCR p.getServiceName p.cr.namespaceName (p.getMonitoringLabels global)
    p.getMonitoringSelectorLabels
    ([{ name := "zookeeper-monitoring-statsd", port := 8125 },
      { name := "zookeeper-monitoring-tcp", port := 8094 },
      { name := "zookeeper-monitoring-udp", port := 8092, protocol := .udp }] ++
     if p.spec.monitoringType = "prometheus" then [{ name := "prometheus-cli", port := 8096 }]
     else [])

/-! ## The Deployment -/

/-- `getCommand`. -/
def getCommand : List String := if p.cr.vault?.isSome then ["/vault/vault-env"] else []

/-- `getArgs`. -/
def getArgs : List String := if p.cr.vault?.isSome then ["/docker-entrypoint.sh"] else []

/-- `getInitContainers`. -/
def getInitContainers : List Container := (p.cr.vault?.map getVaultInitContainer).toList

/-- `getLivenessProbe`, which is also the readiness probe. -/
def getLivenessProbe : Probe where
  handler := .tcpSocket 8096
  initialDelaySeconds := 30
  timeoutSeconds := 5
  periodSeconds := 10
  successThreshold := 1
  failureThreshold := 5

/-- Does the backup daemon store backups in S3? -/
def s3Enabled (backupDaemon : BackupDaemon) : Bool := (backupDaemon.s3.map (·.enabled)).getD false

/-- `getMonitoringEnvironmentVariables`. -/
def getMonitoringEnvironmentVariables (global : Global) : List EnvVar :=
  [namespaceEnv "OS_PROJECT",
   { name := "ZOOKEEPER_HOST", value := p.spec.zooKeeperHost },
   { name := "ZOOKEEPER_ENABLE_SSL", value := toString global.zooKeeperSsl.enabled }] ++
  (p.cr.spec.backupDaemon.elim [] fun backupDaemon =>
    [{ name := "ZOOKEEPER_BACKUP_DAEMON_HOST", value := p.spec.zooKeeperBackupDaemonHost },
     { name := "S3_ENABLED", value := toString (s3Enabled backupDaemon) }])

/-- `getZooKeeperCredentialsEnvs`. -/
def getZooKeeperCredentialsEnvs : List EnvVar :=
  p.cr.vault?.elim [] fun vault =>
    let source := getVaultSecretEnvVarSource p.cr.name vault p.cr.namespaceName "client-credentials"
    [{ name := "ZOOKEEPER_CLIENT_USERNAME", value := source "username" },
     { name := "ZOOKEEPER_CLIENT_PASSWORD", value := source "password" }]

/-- The Secrets the pod reads its credentials from, when they are not in Vault. -/
def projectedSources : List SecretProjection :=
  (if p.spec.secretName ≠ "" then
    [⟨p.spec.secretName,
      [⟨"zookeeper-client-username", "ZOOKEEPER_CLIENT_USERNAME"⟩,
       ⟨"zookeeper-client-password", "ZOOKEEPER_CLIENT_PASSWORD"⟩]⟩]
   else []) ++
  (p.cr.spec.backupDaemon.elim [] fun backupDaemon =>
    if backupDaemon.secretName ≠ "" then
      [⟨backupDaemon.secretName,
        [⟨"username", "ZOOKEEPER_BACKUP_DAEMON_USERNAME"⟩,
         ⟨"password", "ZOOKEEPER_BACKUP_DAEMON_PASSWORD"⟩]⟩]
    else [])

/-- The Secret with the certificates of the backup daemon, when it uses TLS. -/
def backupDaemonTls : Option String :=
  p.cr.spec.backupDaemon.bind fun backupDaemon =>
    if backupDaemon.backupDaemonSsl.enabled then some backupDaemon.backupDaemonSsl.secretName
    else none

/-- The environment of the agent. -/
def envVars (global : Global) : List EnvVar :=
  p.getMonitoringEnvironmentVariables global ++
  p.getZooKeeperCredentialsEnvs ++
  (if p.cr.vault?.isSome then []
   else [{ name := "MONITORING_SECRETS_DIR", value := getPodSecretsMountPath "monitoring" }]) ++
  (p.cr.vault?.elim [] fun vault =>
    getVaultConnectionEnvVars p.getServiceName vault p.cr.namespaceName) ++
  (if p.backupDaemonTls.isSome then [{ name := "BACKUP_DAEMON_TLS_ENABLED", value := "true" }]
   else [])

/-- The volumes of the agent, `getMonitoringVolumes` first. -/
def volumes (global : Global) : List Volume :=
  [⟨"config", .configMap (p.getServiceName ++ "-configuration") [⟨"config", "telegraf.conf"⟩]⟩,
   getTmpVolume "8Mi"] ++
  (if p.cr.vault?.isSome ∨ p.projectedSources = [] then []
   else [newPodSecretsProjectedVolume "monitoring-pod-secrets" p.projectedSources]) ++
  (if p.cr.vault?.isSome then [⟨"vault-env", .emptyDir none⟩] else []) ++
  (if global.usesSsl then [⟨"ssl-certs", .secret global.zooKeeperSsl.secretName⟩] else []) ++
  (p.backupDaemonTls.elim [] fun secretName => [⟨"backup-daemon-tls-certs", .secret secretName⟩])

/-- The volume mounts of the agent, `getMonitoringVolumeMounts` first. -/
def volumeMounts (global : Global) : List VolumeMount :=
  [{ name := "config", mountPath := "/etc/telegraf" }, getTmpVolumeMount] ++
  (if p.cr.vault?.isSome ∨ p.projectedSources = [] then []
   else
    [newPodSecretsVolumeMount "monitoring-pod-secrets" (getPodSecretsMountPath "monitoring")]) ++
  (if p.cr.vault?.isSome then [{ name := "vault-env", mountPath := "/vault" }] else []) ++
  (if global.usesSsl then [{ name := "ssl-certs", mountPath := "/tls" }] else []) ++
  (if p.backupDaemonTls.isSome then
    [{ name := "backup-daemon-tls-certs", mountPath := "/tls/backup" }]
   else [])

/-- The container of the agent. -/
def container (global : Global) : Container where
  name := p.getServiceName
  image := p.spec.dockerImage
  command := p.getCommand
  args := p.getArgs
  ports := [{ containerPort := 8125 }, { containerPort := 8094 },
      { containerPort := 8092, protocol := .udp }] ++
    if p.spec.monitoringType = "prometheus" then
      [{ name := "prometheus-cli", containerPort := 8096 }]
    else []
  env := p.envVars global
  resources := p.spec.resources
  volumeMounts := p.volumeMounts global
  livenessProbe := some getLivenessProbe
  readinessProbe := some getLivenessProbe
  imagePullPolicy := .always
  securityContext := getDefaultContainerSecurityContext

/-- The labels of the Deployment. -/
def deploymentLabels (global : Global) : StringMap :=
  ((p.getMonitoringLabels global).insert "app.kubernetes.io/technology" "python").insert
    "app.kubernetes.io/instance" (p.getServiceName ++ "-" ++ p.cr.namespaceName)

/-- `NewMonitoringDeployment`. -/
def newMonitoringDeployment : Except Panic Deployment := do
  let global ← deref p.cr.spec.global
  return {
    metadata := { name := p.getServiceName, namespaceName := p.cr.namespaceName,
                  labels := p.deploymentLabels global }
    replicas := 1
    selector := p.getMonitoringSelectorLabels
    templateLabels := p.getMonitoringCustomLabels global (p.deploymentLabels global)
    podSpec := {
      volumes := p.volumes global
      initContainers := p.getInitContainers
      containers := [p.container global]
      securityContext := p.spec.securityContext
      hostname := p.getServiceName
      serviceAccountName := p.getServiceAccountName
      affinity := p.spec.affinity
      tolerations := p.spec.tolerations
      priorityClassName := p.spec.priorityClassName }
    strategy := "Recreate" }

end MonitoringResourceProvider

end QubershipZookeeper.Operator
