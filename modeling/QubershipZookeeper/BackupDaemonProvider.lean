import QubershipZookeeper.Provider

/-!
# The objects of the backup daemon

`backupdaemon_provider.go`: a Service and a Deployment. Whether the Secret with the S3
aliases is mounted depends on whether the reconciler has found one.
-/

namespace QubershipZookeeper.Operator

/-- `BackupDaemonResourceProvider`: the custom resource with its backup daemon section. -/
structure BackupDaemonResourceProvider where
  /-- the custom resource -/
  cr : ZooKeeperService
  /-- its section on the backup daemon -/
  spec : BackupDaemon
  /-- the section is the resource's own -/
  spec_eq : cr.spec.backupDaemon = some spec

/-- `fmt.Sprintf("%s-backup-daemon-s3-aliases", cr.Name)`. -/
def s3AliasesSecretName (name : String) : String := name ++ "-backup-daemon-s3-aliases"

namespace BackupDaemonResourceProvider

variable (p : BackupDaemonResourceProvider)

/-- `GetServiceName`. -/
def getServiceName : String := p.cr.name ++ "-backup-daemon"

/-- `GetServiceAccountName`. -/
def getServiceAccountName : String := p.getServiceName

/-- `getS3AliasesSecretName`. -/
def getS3AliasesSecretName : String := s3AliasesSecretName p.cr.name

/-- `getBackupDaemonPort`. -/
def getBackupDaemonPort : ℤ := if p.spec.backupDaemonSsl.enabled then 8443 else 8080

/-! ## Labels and the Service -/

/-- `GetBackupDaemonSelectorLabels`. -/
def getBackupDaemonSelectorLabels : StringMap :=
  .ofList [("name", p.getServiceName), ("component", "zookeeper-backup-daemon")]

/-- `GetBackupDaemonLabels`. -/
def getBackupDaemonLabels (global : Global) : StringMap :=
  .joinMaps (.joinMaps (.ofList [("app.kubernetes.io/name", p.getServiceName)])
    p.getBackupDaemonSelectorLabels) global.defaultLabels

/-- `GetBackupDaemonCustomLabels`. -/
def getBackupDaemonCustomLabels (global : Global) (backupDaemonLabels : StringMap) : StringMap :=
  .joinMaps (.joinMaps global.customLabels p.spec.customLabels) backupDaemonLabels

/-- `NewBackupDaemonClientService`. -/
def newBackupDaemonClientService : Except Panic Service := do
  let global ← deref p.cr.spec.global
  return newServiceForCR p.getServiceName p.cr.namespaceName
    ((p.getBackupDaemonLabels global).insert "cloud-backuper.netcracker.com/use-backup-daemon"
      "true")
    p.getBackupDaemonSelectorLabels [{ name := "http", port := p.getBackupDaemonPort }]

/-! ## The Deployment -/

/-- `getCommand`. -/
def getCommand : List String := if p.cr.vault?.isSome then ["/vault/vault-env"] else []

/-- `getArgs`. -/
def getArgs : List String :=
  if p.cr.vault?.isSome then ["python3", "/opt/backup/backup-daemon.py"] else []

/-- `getInitContainers`. -/
def getInitContainers : List Container := (p.cr.vault?.map getVaultInitContainer).toList

/-- `getHTTPProbe`. -/
def getHTTPProbe (path : String) : Probe where
  handler := .httpGet path p.getBackupDaemonPort
    (if p.spec.backupDaemonSsl.enabled then "HTTPS" else "HTTP")
  initialDelaySeconds := 30
  timeoutSeconds := 5
  periodSeconds := 5
  successThreshold := 1
  failureThreshold := 3

/-- `getBackupDaemonAffinityRules`. -/
def getBackupDaemonAffinityRules : Affinity :=
  if p.spec.backupStorage.nodeName ≠ "" then p.spec.affinity.pinnedTo p.spec.backupStorage.nodeName
  else p.spec.affinity

/-- The S3 section, when it is there and switched on. -/
def s3? : Option S3 := p.spec.s3.filter (·.enabled)

/-- Is a certificate of the S3 store mounted? -/
def usesS3Certificate : Bool :=
  (p.s3?.map fun s3 => s3.sslVerify && s3.sslCert ≠ "").getD false

/-- Does the daemon itself use TLS, with certificates to use? -/
def usesBackupSsl : Bool :=
  p.spec.backupDaemonSsl.enabled && p.spec.backupDaemonSsl.secretName ≠ ""

/-- `getZooKeeperCredentialsEnvs`. -/
def getZooKeeperCredentialsEnvs : List EnvVar :=
  p.cr.vault?.elim [] fun vault =>
    let own := getVaultSecretEnvVarSource p.getServiceName vault p.cr.namespaceName "credentials"
    let admin := getVaultSecretEnvVarSource p.cr.name vault p.cr.namespaceName "admin-credentials"
    [{ name := "BACKUP_DAEMON_API_CREDENTIALS_USERNAME", value := own "username" },
     { name := "BACKUP_DAEMON_API_CREDENTIALS_PASSWORD", value := own "password" },
     { name := "ZOOKEEPER_ADMIN_USERNAME", value := admin "username" },
     { name := "ZOOKEEPER_ADMIN_PASSWORD", value := admin "password" }]

/-- The Secrets the pod reads its credentials from, when they are not in Vault. -/
def projectedSources : List SecretProjection :=
  (if p.spec.secretName ≠ "" then
    [⟨p.spec.secretName,
      [⟨"username", "BACKUP_DAEMON_API_CREDENTIALS_USERNAME"⟩,
       ⟨"password", "BACKUP_DAEMON_API_CREDENTIALS_PASSWORD"⟩,
       ⟨"zookeeper-admin-username", "ZOOKEEPER_ADMIN_USERNAME"⟩,
       ⟨"zookeeper-admin-password", "ZOOKEEPER_ADMIN_PASSWORD"⟩]⟩]
   else []) ++
  (p.s3?.elim [] fun s3 =>
    if s3.secretName ≠ "" then
      [⟨s3.secretName, [⟨"s3-key-id", "S3_KEY_ID"⟩, ⟨"s3-key-secret", "S3_KEY_SECRET"⟩]⟩]
    else [])

/-- The part of the environment that comes before the credentials. -/
def settingsEnvVars (global : Global) : List EnvVar :=
  [{ name := "SERVICE_NAME", value := p.getServiceName },
   { name := "ZOOKEEPER_HOST", value := p.spec.zooKeeperHost },
   { name := "ZOOKEEPER_PORT", value := toString p.spec.zooKeeperPort },
   { name := "PV_TYPE", value := p.spec.backupStorage.persistentVolumeType },
   namespaceEnv "NAMESPACE",
   { name := "ZOOKEEPER_ENABLE_SSL", value := toString global.zooKeeperSsl.enabled },
   { name := "PYTHONDONTWRITEBYTECODE", value := "1" }] ++
  (if p.spec.backupSchedule ≠ "" then
    [{ name := "BACKUP_SCHEDULE", value := p.spec.backupSchedule }] else []) ++
  (if p.spec.evictionPolicy ≠ "" then
    [{ name := "EVICTION_POLICY", value := p.spec.evictionPolicy }] else []) ++
  (if p.spec.ipv6 then [{ name := "BROADCAST_ADDRESS", value := "::" }] else []) ++
  (p.s3?.elim [] fun s3 =>
    [{ name := "S3_ENABLED", value := toString s3.enabled },
     { name := "S3_URL", value := s3.url },
     { name := "S3_BUCKET", value := s3.bucket },
     { name := "S3_SSL_VERIFY", value := toString s3.sslVerify }])

/-- The environment of the daemon. -/
def envVars (global : Global) (s3AliasesEnabled : Bool) : List EnvVar :=
  p.settingsEnvVars global ++
  p.getZooKeeperCredentialsEnvs ++
  (if p.cr.vault?.isSome then []
   else
    [{ name := "BACKUP_DAEMON_SECRETS_DIR", value := getPodSecretsMountPath "backup-daemon" }]) ++
  (p.cr.vault?.elim [] fun vault =>
    getVaultConnectionEnvVars p.getServiceName vault p.cr.namespaceName) ++
  (if p.usesBackupSsl then
    [{ name := "TLS_ENABLED", value := "true" }, { name := "CERTS_PATH", value := "/backupTLS" }]
   else []) ++
  (if p.usesS3Certificate then [{ name := "S3_CERTS_PATH", value := "/s3Certs" }] else []) ++
  [{ name := "S3_ALIASES_USED", value := toString s3AliasesEnabled }]

/-- What backups are stored on. -/
def backupVolumeSource : VolumeSource :=
  let storage := p.spec.backupStorage
  if storage.persistentVolumeType = "" then .emptyDir none
  else if storage.persistentVolumeClaimName = "" then
    .persistentVolumeClaim (snapshotsPersistentVolumeClaimPattern p.cr.name)
  else .persistentVolumeClaim storage.persistentVolumeClaimName

/-- The volumes of the daemon, `getBackupDaemonVolumes` first. -/
def volumes (global : Global) (s3AliasesEnabled : Bool) : List Volume :=
  [⟨"backup-storage", p.backupVolumeSource⟩, getTmpVolume "50Mi", getVarLogVolume] ++
  (if p.cr.vault?.isSome ∨ p.projectedSources = [] then []
   else [newPodSecretsProjectedVolume "backup-daemon-pod-secrets" p.projectedSources]) ++
  (if p.cr.vault?.isSome then [⟨"vault-env", .emptyDir none⟩] else []) ++
  (if global.usesSsl then [⟨"ssl-certs", .secret global.zooKeeperSsl.secretName⟩] else []) ++
  (if p.usesBackupSsl then [⟨"backup-ssl-certs", .secret p.spec.backupDaemonSsl.secretName⟩]
   else []) ++
  (if p.usesS3Certificate then
    [⟨"s3-ssl-certs", .secret ((p.s3?.map (·.sslSecretName)).getD "")⟩] else []) ++
  (if s3AliasesEnabled then [⟨p.getS3AliasesSecretName, .secret p.getS3AliasesSecretName⟩] else [])

/-- The volume mounts of the daemon, `getBackupDaemonVolumeMounts` first. -/
def volumeMounts (global : Global) (s3AliasesEnabled : Bool) : List VolumeMount :=
  [{ name := "backup-storage", mountPath := "/opt/zookeeper/backup-storage" },
   getTmpVolumeMount, getVarLogVolumeMount] ++
  (if p.cr.vault?.isSome ∨ p.projectedSources = [] then []
   else [newPodSecretsVolumeMount "backup-daemon-pod-secrets"
     (getPodSecretsMountPath "backup-daemon")]) ++
  (if p.cr.vault?.isSome then [{ name := "vault-env", mountPath := "/vault" }] else []) ++
  (if global.usesSsl then [{ name := "ssl-certs", mountPath := "/tls" }] else []) ++
  (if p.usesBackupSsl then [{ name := "backup-ssl-certs", mountPath := "/backupTLS" }] else []) ++
  (if p.usesS3Certificate then [{ name := "s3-ssl-certs", mountPath := "/s3Certs" }] else []) ++
  (if s3AliasesEnabled then
    [{ name := p.getS3AliasesSecretName, mountPath := "/aliases/", readOnly := true }] else [])

/-- The container of the daemon. -/
def container (global : Global) (s3AliasesEnabled : Bool) : Container where
  name := p.getServiceName
  image := p.spec.dockerImage
  command := p.getCommand
  args := p.getArgs
  ports := [{ containerPort := p.getBackupDaemonPort }]
  env := p.envVars global s3AliasesEnabled
  resources := p.spec.resources
  volumeMounts := p.volumeMounts global s3AliasesEnabled
  livenessProbe := some (p.getHTTPProbe "/health/live")
  readinessProbe := some (p.getHTTPProbe "/health/ready")
  imagePullPolicy := .always
  securityContext := getDefaultContainerSecurityContext

/-- The labels of the Deployment. -/
def deploymentLabels (global : Global) : StringMap :=
  ((p.getBackupDaemonLabels global).insert
    "app.kubernetes.io/instance" (p.getServiceName ++ "-" ++ p.cr.namespaceName)).insert
    "app.kubernetes.io/technology" "python"

/-- `NewBackupDaemonDeployment`. -/
def newBackupDaemonDeployment (s3AliasesEnabled : Bool) : Except Panic Deployment := do
  let global ← deref p.cr.spec.global
  return {
    metadata := { name := p.getServiceName, namespaceName := p.cr.namespaceName,
                  labels := p.deploymentLabels global }
    replicas := 1
    selector := p.getBackupDaemonSelectorLabels
    templateLabels := p.getBackupDaemonCustomLabels global (p.deploymentLabels global)
    podSpec := {
      volumes := p.volumes global s3AliasesEnabled
      initContainers := p.getInitContainers
      containers := [p.container global s3AliasesEnabled]
      securityContext := p.spec.securityContext
      hostname := p.getServiceName
      serviceAccountName := p.getServiceAccountName
      affinity := p.getBackupDaemonAffinityRules
      tolerations := p.spec.tolerations
      priorityClassName := p.spec.priorityClassName }
    strategy := "Recreate" }

end BackupDaemonResourceProvider

end QubershipZookeeper.Operator
