import QubershipZookeeper.VaultSecrets

/-!
# The component reconcilers

`zookeeper_reconciler.go`, `monitoring_reconciler.go`, `backupdaemon_reconciler.go` and
`integrationtests_reconciler.go`. `Reconcile` of a component first watches the Secrets of
the component and then decides whether anything has **changed**: the hash of its section,
the hash of the global section, or the version of one of the Secrets. Only if so does it go
through its **apply branch**. Either way it ends by remembering the versions and the hash.

`Status` waits until the pods of the component are ready and reports what came of it.
-/

namespace QubershipZookeeper.Operator

/-! ## Watching and remembering -/

/-- `globalHashName`. -/
def globalHashName : String := "spec.global"

/-- The name under which the hash of a component's section is remembered. -/
def hashName : Component → String
  | .zooKeeper => "spec.zookeeper"
  | .monitoring => "spec.monitoring"
  | .backupDaemon => "spec.backupDaemon"

/-- Watch the own Secret of a component. With Vault on it may be missing: an empty Secret
takes its place. -/
def watchOwnSecret (secretName : String) (cr : ZooKeeperService) : Op Secret :=
  (watchSecret secretName cr).recover fun e =>
    if isVaultSecretManagementEnabled cr && e.isNotFound then some (pure {}) else none

/-- Watch a further Secret, if there is one to watch; when it is missing the pointer is
nil. -/
def watchOtherSecret (secretName : Option String) (cr : ZooKeeperService) : Op (Option Secret) :=
  match secretName with
  | none => pure none
  | some secretName => (some <$> watchSecret secretName cr).recover fun e =>
    if e.isNotFound then some (pure none) else none

/-- The passages of Secrets; a nil one has none. -/
def passagesOf (c : Component) (secrets : List (Option Secret)) : List Passage :=
  secrets.flatMap fun secret => secret.elim [] (passageOf c)

/-- The change test of a component. -/
def changed (c : Component) (digest : Digest) (secrets : List (Option Secret)) (w : World) : Bool :=
  w.resourceHashes.lookup (hashName c) ≠ some digest ||
    w.resourceHashes.lookup globalHashName ≠ w.globalSpecHash ||
    secrets.any (secretVersionChanged w.resourceVersions)

/-- Run the change test of a component, and record which Secrets it has looked at. When
something has changed the apply branch follows, and this is recorded as well. -/
def testChanged (c : Component) (digest : Digest) (secrets : List (Option Secret)) : Op Bool :=
  fun w =>
    let answer := changed c digest secrets w
    .ok answer { w with
      tested := passagesOf c secrets ++ w.tested
      applied := if answer then passagesOf c secrets ++ w.applied else w.applied }

/-- `ResourceVersions[secret.Name] = secret.ResourceVersion`, for every Secret that is not
nil. -/
def rememberedVersions (secrets : List (Option Secret)) (versions : Finmap fun _ : String => ℕ) :
    Finmap fun _ : String => ℕ :=
  secrets.foldl (fun versions secret => secret.elim versions fun s =>
    versions.insert s.metadata.name s.metadata.resourceVersion) versions

/-- The end of `Reconcile` of a component. -/
def remember (c : Component) (digest : Digest) (secrets : List (Option Secret)) : Op Unit :=
  Proc.update fun w => { w with
    resourceVersions := rememberedVersions secrets w.resourceVersions
    resourceHashes := w.resourceHashes.insert (hashName c) digest }

/-! ## Objects with an owner -/

/-- Build a Service, make the custom resource its controller, and store it. -/
def applyService (cr : ZooKeeperService) (service : Except Panic Service) : Op Unit := do
  let service ← build service
  let m ← Proc.lift (setControllerReference cr service.metadata)
  createOrUpdateService { service with metadata := m }

/-- Build a Deployment, make the custom resource its controller, mark it for the restarts
that its Secrets ask for, and store it. -/
def applyDeployment (cr : ZooKeeperService) (deployment : Except Panic Deployment)
    (secrets : List (Option Secret)) : Op Unit := do
  let deployment ← build deployment
  let m ← Proc.lift (setControllerReference cr deployment.metadata)
  createOrUpdateDeployment
    (applyAutoRestartSecretAnnotations { deployment with metadata := m } secrets).1

/-- Store a claim, if there is one. -/
def applyClaim (claim : Option PersistentVolumeClaim) : Op Unit :=
  claim.elim (pure ()) createPersistentVolumeClaim

/-- The claim for snapshots or backups. -/
def applySnapshotsClaim (storage : SnapshotStorage) (cr : ZooKeeperService) : Op Unit := do
  let claim ← processSnapshotsPersistentVolumeClaim storage cr
  applyClaim claim

/-- Put the names of the pods with some labels into the status, and store it. -/
def updatePodStatus (labels : StringMap)
    (set : List String → ZooKeeperServiceStatus → ZooKeeperServiceStatus) : Op Unit := do
  let pods ← listPods labels
  Proc.update fun w => { w with status := set (getPodNames pods) w.status }
  statusUpdate

/-! ## ZooKeeper -/

namespace ZooKeeperResourceProvider

variable (p : ZooKeeperResourceProvider)

/-- The servers, `for serverId := 1; serverId <= Replicas; serverId++`. -/
def serverIds : List ℕ := List.range' 1 p.spec.replicas.toNat

/-- `getCurrentDeploymentsCount`: the Deployments of servers with at least one replica. -/
def getCurrentDeploymentsCount : Op ℕ := do
  let deployments ← listDeployments (getZooKeeperSelectorLabels p.cr.name)
  pure (Multiset.card (deployments.filter fun d => d.replicas > 0))

/-- `isPodRunning`: none of the pods of a Deployment is in another phase. The first list
of pods is thrown away by the second. -/
def isPodRunning (deploymentName : String) : Op Bool := do
  let global ← build (deref p.cr.spec.global)
  let _ ← listPods (getZooKeeperLabels p.cr.name global.defaultLabels)
  let pods ← listPods (.ofList [("name", deploymentName)])
  pure (pods.all fun pod => pod.phase = "Running")

/-- The servers to be scaled down, `for i := Replicas + 1; i <= currentReplicas; i++`. -/
def excessIds (currentReplicas : ℕ) : List ℕ :=
  List.range' (p.spec.replicas.toNat + 1) (currentReplicas - p.spec.replicas.toNat)

/-- Scale down the servers beyond the wanted number. -/
def scaleDown (currentReplicas : ℕ) : Op Unit :=
  Proc.forEach (p.excessIds currentReplicas) fun i => scaleDeployment (serverName p.cr.name i) 0

/-- Are servers replaced one at a time in this pass? -/
def rolling (currentReplicas : ℕ) : Bool :=
  p.spec.rollingUpdate && !(currentReplicas ≤ 2 || (currentReplicas : ℤ) ≠ p.spec.replicas)

/-- The wait for the pod of a server, and for its Deployment in a rolling update. -/
def awaitServer (rolling : Bool) (serverId : ℕ) : Op Unit := do
  let deploymentName := serverName p.cr.name serverId
  poll (tries 300) (p.isPodRunning deploymentName)
  Proc.whenever rolling do
    sleep
    poll (tries 300) (isDeploymentReady deploymentName)

/-- The credentials step of the apply branch. -/
def applyVault (secret : Secret) : Op Secret :=
  p.cr.vault?.elim (pure secret) fun vault => p.processVaultSecrets vault secret

/-- One round of the loop over the servers. The Secret is passed along, because the
credentials step may clean it. -/
def applyServer (rolling : Bool) (secret : Secret) (serverId : ℕ) : Op Secret := do
  applyService p.cr (p.newZooKeeperServerServiceForCR serverId)
  let claim ← build (p.newZooKeeperPersistentVolumeClaimForCR serverId)
  applyClaim claim
  createServiceAccount (newServiceAccount p.getServiceAccountName p.cr.namespaceName)
  let secret ← p.applyVault secret
  applyDeployment p.cr (p.newServerDeploymentForCR serverId) [some secret]
  p.awaitServer rolling serverId
  pure secret

/-- Is there a claim for snapshots to be stored? -/
def hasSnapshotsClaim : Bool :=
  p.spec.snapshotStorage.persistentVolumeType ≠ "" &&
    p.spec.snapshotStorage.persistentVolumeType ≠ "standalone"

/-- The apply branch, when there are servers at all. -/
def applyServers (secret : Secret) : Op Secret := do
  Proc.whenever p.hasSnapshotsClaim (applySnapshotsClaim p.spec.snapshotStorage p.cr)
  applyService p.cr p.newZooKeeperClientServiceForCR
  applyService p.cr p.newZooKeeperDomainServiceForCR
  let currentReplicas ← p.getCurrentDeploymentsCount
  p.scaleDown currentReplicas
  Proc.foldEach p.serverIds secret (p.applyServer (p.rolling currentReplicas))

/-- `updateZooKeeperStatus`. -/
def updateZooKeeperStatus : Op Unit :=
  updatePodStatus (getZooKeeperSelectorLabels p.cr.name) fun names status =>
    { status with servers := names }

/-- The apply branch. -/
def apply (secret : Secret) : Op Secret := do
  let secret ← (if p.spec.replicas > 0 then p.applyServers secret else pure secret)
  p.updateZooKeeperStatus
  pure secret

/-- Mark the Deployments of the servers for the restarts that the Secret asks for. -/
def markRestarts (secret : Secret) : Op Unit :=
  Proc.forEach p.serverIds fun serverId =>
    updateDeploymentSecretRestartAnnotations (serverName p.cr.name serverId) [some secret]

/-- `ReconcileZooKeeper.Reconcile` up to its end, with the Secret as it then is. -/
def pass : Op Secret := do
  let secret ← watchOwnSecret p.spec.secretName p.cr
  let isChanged ← testChanged .zooKeeper (.zooKeeper p.spec) [some secret]
  let secret ← (if isChanged then p.apply secret else pure secret)
  p.markRestarts secret
  pure secret

/-- `ReconcileZooKeeper.Reconcile`. -/
def reconcile : Op Unit := do
  let secret ← p.pass
  remember .zooKeeper (.zooKeeper p.spec) [some secret]

end ZooKeeperResourceProvider

/-! ## Monitoring -/

namespace MonitoringResourceProvider

variable (p : MonitoringResourceProvider)

/-- The Secret of the backup daemon, which the agent uses as well. -/
def backupDaemonSecretName : Option String :=
  p.cr.spec.backupDaemon.bind fun backupDaemon =>
    if backupDaemon.secretName ≠ "" then some backupDaemon.secretName else none

/-- The credentials step of the apply branch. -/
def applyVault (secret : Secret) : Op Secret :=
  p.cr.vault?.elim (pure secret) fun vault => p.processVaultSecrets vault secret

/-- `updateMonitoringStatus`. -/
def updateMonitoringStatus : Op Unit :=
  updatePodStatus p.getMonitoringSelectorLabels fun names status =>
    { status with monitoringNodes := names }

/-- The apply branch. -/
def apply (secret : Secret) (backupDaemonSecret : Option Secret) : Op Secret := do
  applyService p.cr p.newMonitoringClientService
  createServiceAccount (newServiceAccount p.getServiceAccountName p.cr.namespaceName)
  let secret ← p.applyVault secret
  applyDeployment p.cr p.newMonitoringDeployment [some secret, backupDaemonSecret]
  p.updateMonitoringStatus
  pure secret

/-- `ReconcileMonitoring.Reconcile`. -/
def reconcile : Op Unit := do
  let secret ← watchOwnSecret p.spec.secretName p.cr
  let backupDaemonSecret ← watchOtherSecret p.backupDaemonSecretName p.cr
  let isChanged ← testChanged .monitoring (.monitoring p.spec) [some secret, backupDaemonSecret]
  let secret ← (if isChanged then p.apply secret backupDaemonSecret else pure secret)
  updateDeploymentSecretRestartAnnotations p.getServiceName [some secret, backupDaemonSecret]
  remember .monitoring (.monitoring p.spec) [some secret, backupDaemonSecret]

end MonitoringResourceProvider

/-! ## Backup daemon -/

namespace BackupDaemonResourceProvider

variable (p : BackupDaemonResourceProvider)

/-- The Secret with the keys of the S3 store. -/
def s3SecretName : Option String :=
  p.s3?.bind fun s3 => if s3.secretName ≠ "" then some s3.secretName else none

/-- The credentials step of the apply branch. -/
def applyVault (secret : Secret) : Op Secret :=
  p.cr.vault?.elim (pure secret) fun vault => p.processVaultSecrets vault secret

/-- `updateBackupDaemonStatus`. -/
def updateBackupDaemonStatus : Op Unit :=
  updatePodStatus p.getBackupDaemonSelectorLabels fun names status =>
    { status with backupDaemonNodes := names }

/-- The apply branch. -/
def apply (secret : Secret) (s3Secret s3AliasesSecret : Option Secret) : Op Secret := do
  Proc.whenever (p.spec.backupStorage.persistentVolumeType ≠ "")
    (applySnapshotsClaim p.spec.backupStorage p.cr)
  applyService p.cr p.newBackupDaemonClientService
  createServiceAccount (newServiceAccount p.getServiceAccountName p.cr.namespaceName)
  let secret ← p.applyVault secret
  applyDeployment p.cr (p.newBackupDaemonDeployment s3AliasesSecret.isSome)
    [some secret, s3Secret, s3AliasesSecret]
  p.updateBackupDaemonStatus
  pure secret

/-- `findSecret` for the S3 aliases. Any error means that there are none; the pointer is
then not nil but to an empty Secret, which is left out everywhere. -/
def findS3Aliases : Op (Option Secret) :=
  (some <$> clientGet .secret p.getS3AliasesSecretName).recover fun e =>
    if e.isPanic then none else some (pure none)

/-- `ReconcileBackupDaemon.Reconcile`. -/
def reconcile : Op Unit := do
  let secret ← watchOwnSecret p.spec.secretName p.cr
  let s3Secret ← watchOtherSecret p.s3SecretName p.cr
  let s3AliasesSecret ← p.findS3Aliases
  let isChanged ← testChanged .backupDaemon (.backupDaemon p.spec)
    [some secret, s3Secret, s3AliasesSecret]
  let secret ← (if isChanged then p.apply secret s3Secret s3AliasesSecret else pure secret)
  updateDeploymentSecretRestartAnnotations p.getServiceName [some secret, s3Secret, s3AliasesSecret]
  remember .backupDaemon (.backupDaemon p.spec) [some secret, s3Secret, s3AliasesSecret]

end BackupDaemonResourceProvider

end QubershipZookeeper.Operator
