import QubershipZookeeper.Interplay
import QubershipZookeeper.Reconcilers

/-!
# The controller

`zookeeperservice_controller.go`: `Reconcile` of the whole custom resource. It runs the
reconcilers of the components that the resource has, one after the other; the first error
ends the call, after it has been written into the status. When the specification has
changed since the last call that succeeded, it also waits for the components and reports
their readiness.
-/

namespace QubershipZookeeper.Operator

/-! ## Readiness -/

/-- Record that the check with a reason has timed out. -/
def noteTimedOut (reason : String) : Op Unit :=
  Proc.update fun w => { w with timedOut := reason :: w.timedOut }

/-- The pattern of `Status` of a component: report that the check has begun, wait, and
report what came of it. -/
def checkStatus (reason inProgress failed ready : String) (timeoutSeconds : ℤ)
    (condition : Op Bool) : Op Unit := do
  updateConditions (newCondition "False" "In progress" reason inProgress)
  let inTime ← Proc.recover (do
      poll (tries timeoutSeconds) condition
      pure true)
    fun e => if e.isPanic then none else some (pure false)
  Proc.whenever (!inTime) (noteTimedOut reason)
  updateConditions (if inTime then newCondition "True" "Ready" reason ready
    else newCondition "False" "Failed" reason failed)

/-- Are all these Deployments ready? The first one that is not ends the check. -/
def allReady : List String → Op Bool
  | [] => pure true
  | name :: names => do
    let ready ← isDeploymentReady name
    if ready then allReady names else pure false

/-- `ReconcileZooKeeper.Status`. -/
def ZooKeeperResourceProvider.status (p : ZooKeeperResourceProvider) (global : Global) : Op Unit :=
  checkStatus "ZooKeeperReadinessStatus" "ZooKeeper health check" "ZooKeeper pods are not ready"
    "ZooKeeper pods are ready" global.podsReadyTimeout
    (allReady (p.serverIds.map (serverName p.cr.name)))

/-- `ReconcileMonitoring.Status`. -/
def MonitoringResourceProvider.status (p : MonitoringResourceProvider) (global : Global) :
    Op Unit :=
  checkStatus "ZooKeeperMonitoringReadinessStatus" "ZooKeeper Monitoring health check"
    "ZooKeeper Monitoring pod is not ready" "ZooKeeper Monitoring pod is ready"
    global.podsReadyTimeout (isDeploymentReady p.getServiceName)

/-- `ReconcileBackupDaemon.Status`. -/
def BackupDaemonResourceProvider.status (p : BackupDaemonResourceProvider) (global : Global) :
    Op Unit :=
  checkStatus "ZooKeeperBackupDaemonReadinessStatus" "ZooKeeper Backup Daemon health check"
    "ZooKeeper Backup Daemon pod is not ready" "ZooKeeper Backup Daemon pod is ready"
    global.podsReadyTimeout (isDeploymentReady p.getServiceName)

/-- `ReconcileIntegrationTests.Status`. -/
def IntegrationTests.status (tests : IntegrationTests) : Op Unit :=
  Proc.whenever tests.waitForResult
    (checkStatus "ZooKeeperIntegrationTestsStatus" "Start checking for ZooKeeper Integration Tests"
      "ZooKeeper Integration Tests failed. See more details in integration test logs."
      "ZooKeeper Integration Tests performed successfully" tests.timeout
      (isDeploymentReady tests.serviceName))

/-! ## The reconcilers of a custom resource -/

/-- A `ReconcileService`. -/
inductive Reconciler where
  /-- `ReconcileZooKeeper` -/
  | zooKeeper (p : ZooKeeperResourceProvider)
  /-- `ReconcileMonitoring` -/
  | monitoring (p : MonitoringResourceProvider)
  /-- `ReconcileBackupDaemon` -/
  | backupDaemon (p : BackupDaemonResourceProvider)
  /-- `ReconcileIntegrationTests` -/
  | integrationTests (tests : IntegrationTests)

namespace Reconciler

/-- `Reconcile` of a component; the integration tests have nothing to reconcile. -/
def reconcile : Reconciler → Op Unit
  | zooKeeper p => p.reconcile
  | monitoring p => p.reconcile
  | backupDaemon p => p.reconcile
  | integrationTests _ => pure ()

/-- `Status` of a component. -/
def status (global : Global) : Reconciler → Op Unit
  | zooKeeper p => p.status global
  | monitoring p => p.status global
  | backupDaemon p => p.status global
  | integrationTests tests => tests.status

/-- The name of the Go type, as `%T` prints it. -/
def typeName : Reconciler → String
  | zooKeeper _ => "controllers.ReconcileZooKeeper"
  | monitoring _ => "controllers.ReconcileMonitoring"
  | backupDaemon _ => "controllers.ReconcileBackupDaemon"
  | integrationTests _ => "controllers.ReconcileIntegrationTests"

end Reconciler

/-- The provider of ZooKeeper's objects, when the custom resource has the section. -/
def zooKeeperProvider? (cr : ZooKeeperService) : Option ZooKeeperResourceProvider :=
  match h : cr.spec.zooKeeper with
  | some spec => some ⟨cr, spec, h⟩
  | none => none

/-- The provider of the monitoring agent's objects. -/
def monitoringProvider? (cr : ZooKeeperService) : Option MonitoringResourceProvider :=
  match h : cr.spec.monitoring with
  | some spec => some ⟨cr, spec, h⟩
  | none => none

/-- The provider of the backup daemon's objects. -/
def backupDaemonProvider? (cr : ZooKeeperService) : Option BackupDaemonResourceProvider :=
  match h : cr.spec.backupDaemon with
  | some spec => some ⟨cr, spec, h⟩
  | none => none

/-- `buildReconcilers`. -/
def buildReconcilers (cr : ZooKeeperService) : List Reconciler :=
  ((zooKeeperProvider? cr).map Reconciler.zooKeeper).toList ++
  ((monitoringProvider? cr).map Reconciler.monitoring).toList ++
  ((backupDaemonProvider? cr).map Reconciler.backupDaemon).toList ++
  (cr.spec.integrationTests.map Reconciler.integrationTests).toList

/-! ## Reconcile -/

/-- The text of an error. -/
def GoError.text : GoError → String
  | api .notFound => "not found"
  | api .alreadyExists => "already exists"
  | api .conflict => "the object has been modified"
  | api .unavailable => "the request has failed"
  | message text => text
  | deadline => "context deadline exceeded"
  | panic _ => "panic"

/-- Run a step; when it returns an error, write it into the status and return it. -/
def reporting (describe : GoError → String) (m : Op Unit) : Op Unit :=
  m.recover fun e => if e.isPanic then none else some do
    writeFailedStatus (describe e)
    Proc.raise e

/-- The beginning of a cycle for a changed specification: forget the conditions. -/
def startCycle : Op Unit := do
  Proc.update fun w => { w with status := { w.status with conditions := [] } }
  updateConditions (newCondition "False" "In progress" zooKeeperServiceConditionReason
    "Reconciliation cycle started")

/-- `updateStatus`. -/
def updateStatus (cr : ZooKeeperService) : Op Unit := do
  let global ← build (deref cr.spec.global)
  let annotations ← Proc.observe fun w => w.status.pvcAnnotations
  Proc.whenever (annotations ≠ global.pvcAnnotations) do
    Proc.update fun w =>
      { w with status := { w.status with pvcAnnotations := global.pvcAnnotations } }
    statusUpdate

/-- The wait for all components. -/
def awaitComponents (cr : ZooKeeperService) (global : Global) : Op Unit := do
  updateConditions (newCondition "False" "In progress" zooKeeperServiceConditionReason
    "Checking deployment readiness status")
  sleep
  Proc.forEach (buildReconcilers cr) fun r =>
    reporting (fun e =>
      "The status reconciliation cycle failed for " ++ r.typeName ++ " due to: " ++
      e.text) (r.status global)

/-- The end of a cycle for a changed specification: report the readiness. -/
def finishCycle (cr : ZooKeeperService) : Op Unit := do
  cr.spec.global.elim (pure ()) fun global =>
    Proc.whenever global.waitForPodsReady (awaitComponents cr global)
  let failed ← Proc.observe fun w => hasFailedConditions w.status
  updateConditions (if failed then
      newCondition "False" "Failed" zooKeeperServiceConditionReason
        "The deployment readiness status check failed"
    else
      newCondition "True" "Successful" zooKeeperServiceConditionReason
        "The deployment readiness status check is successful")

/-- The reconcilers of all components, one after the other. -/
def reconcileComponents (cr : ZooKeeperService) : Op Unit :=
  Proc.forEach (buildReconcilers cr) fun r =>
    reporting (fun e => "Reconciliation cycle failed for " ++ r.typeName ++ " due to: " ++ e.text)
      r.reconcile

/-- The part of `Reconcile` before the components: is there a new specification? -/
def prepare (cr : ZooKeeperService) : Op Bool := do
  Proc.update fun w => { w with globalSpecHash := some (.global cr.spec.global) }
  let isCustomResourceChanged ← Proc.observe fun w =>
    decide (w.resourceHashes.lookup "spec" ≠ some (.spec cr.spec))
  Proc.whenever isCustomResourceChanged startCycle
  cr.vault?.elim (pure ()) fun vault =>
    reporting (fun e => "An error occurred while creating Vault client: " ++ e.text)
      (initVaultClient vault)
  pure isCustomResourceChanged

/-- The part of `Reconcile` that follows the fetching of the instance. -/
def reconcileInstance (cr : ZooKeeperService) : Op Unit := do
  let isCustomResourceChanged ← prepare cr
  reconcileComponents cr
  updateStatus cr
  Proc.whenever isCustomResourceChanged (finishCycle cr)
  Proc.update fun w => { w with
    resourceHashes := (w.resourceHashes.insert "spec" (.spec cr.spec)).insert globalHashName
      (.global cr.spec.global) }

/-- `ZooKeeperServiceReconciler.Reconcile`. A custom resource that is gone needs nothing. -/
def reconcile : Op Unit := do
  let found ← (some <$> getInstance).recover fun e =>
    if e.isNotFound then some (pure none) else none
  found.elim (pure ()) reconcileInstance

/-! ## Calls -/

/-- A call of `Reconcile`: what becomes of its requests, and what nobody controls while it lasts. -/
structure Call where
  /-- what becomes of the requests -/
  faults : List Fault
  /-- what nobody controls -/
  environment : Environment

/-- The world at the beginning of a call, with nothing on record about the call yet. -/
def Call.start (call : Call) (w : World) : World :=
  { w with
    faults := call.faults
    environment := call.environment
    tested := []
    timedOut := []
    rollouts := [] }

end QubershipZookeeper.Operator
