import QubershipZookeeper.Cluster

/-!
# Requests the component reconcilers share

The methods of `zookeeperservice_reconciler.go`, `deployment_secret_restart.go` and
`condition.go`: create or update an object, watch a Secret, wait for a Deployment, and
keep the status conditions of the custom resource.
-/

namespace QubershipZookeeper.Operator

/-! ## Owner references -/

/-- The controller reference to a custom resource. -/
def controllerReference (cr : ZooKeeperService) : OwnerReference :=
  ⟨"netcracker.com/v1", "ZooKeeperService", cr.name, true⟩

/-- The group of an API version, `schema.ParseGroupVersion`; `none` for a text with two
slashes. -/
def parseGroup (apiVersion : String) : Option String :=
  match apiVersion.toList.count '/' with
  | 0 => some ""
  | 1 => some (.ofList (apiVersion.toList.takeWhile (· ≠ '/')))
  | _ => if apiVersion = "/" then some "" else none

/-- `referSameObject`: the same group, kind and name. -/
def referSameObject (aName aGroup aKind bName bGroup bKind : String) : Bool :=
  match parseGroup aGroup, parseGroup bGroup with
  | some a, some b => a = b && aKind = bKind && aName = bName
  | _, _ => false

/-- Two references to the same owner. -/
def OwnerReference.same (a b : OwnerReference) : Bool :=
  referSameObject a.name a.apiVersion a.kind b.name b.apiVersion b.kind

/-- `metav1.GetControllerOf`. -/
def getControllerOf (owners : List OwnerReference) : Option OwnerReference :=
  owners.find? (·.controller)

/-- `upsertOwnerRef`: replace the reference to the owner, or add it. -/
def upsertOwnerRef (ref : OwnerReference) : List OwnerReference → List OwnerReference
  | [] => [ref]
  | owner :: owners => if ref.same owner then ref :: owners else owner :: upsertOwnerRef ref owners

/-- `controllerutil.SetControllerReference`: an object has at most one controller. -/
def setControllerReference (cr : ZooKeeperService) (m : ObjectMeta) : Except GoError ObjectMeta :=
  let owned :=
    { m with ownerReferences := upsertOwnerRef (controllerReference cr) m.ownerReferences }
  match getControllerOf m.ownerReferences with
  | some existing =>
    if existing.same (controllerReference cr) then .ok owned
    else .error (.message "object is already owned by another controller")
  | none => .ok owned

/-! ## Objects -/

/-- `createOrUpdateService`. A found Service keeps its address. -/
def createOrUpdateService (service : Service) : Op Unit := do
  let found ← (some <$> clientGet .service service.metadata.name).recover fun e =>
    if e.isNotFound then some (pure none) else none
  match found with
  | none => discard (clientCreate .service service)
  | some found =>
    discard (clientUpdate .service
      (if found.type = "ClusterIP" then { service with clusterIP := found.clusterIP } else service))

/-- `createServiceAccount`. -/
def createServiceAccount (serviceAccount : ServiceAccount) : Op Unit :=
  (discard (clientGet .serviceAccount serviceAccount.metadata.name)).recover fun e =>
    if e.isNotFound then some (discard (clientCreate .serviceAccount serviceAccount)) else none

/-- The annotations of a found claim after an update: the wanted ones are copied over, and
those that the last reconciliation wanted and this one does not are removed. Copying into
a nil map panics, and an empty map is nil when it is fetched. -/
def updatedAnnotations (found : Option StringMap) (wanted previous : StringMap) :
    Except Panic (Option StringMap) :=
  match found.bind storedAnnotations with
  | none => if wanted = ∅ then .ok none else .error .nilMapWrite
  | some annotations => .ok (some ((wanted ∪ annotations) \ (previous \ wanted)))

/-- `updatePersistentVolumeClaim`. -/
def updatePersistentVolumeClaim (found claim : PersistentVolumeClaim) : Op Unit := do
  let previous ← Proc.observe fun w => w.status.pvcAnnotations
  let wanted := claim.metadata.annotations.getD ∅
  Proc.whenever (wanted ≠ previous) do
    let annotations ← build (updatedAnnotations found.metadata.annotations wanted previous)
    discard (clientUpdate .persistentVolumeClaim
      { found with metadata := { found.metadata with annotations := annotations } })

/-- Record that a claim was created or found. -/
def noteClaim (name : String) : Op Unit :=
  Proc.update fun w => { w with claimed := name :: w.claimed }

/-- `createPersistentVolumeClaim`. -/
def createPersistentVolumeClaim (claim : PersistentVolumeClaim) : Op Unit := do
  let found ← (some <$> clientGet .persistentVolumeClaim claim.metadata.name).recover fun e =>
    if e.isNotFound then some (pure none) else none
  match found with
  | none => do
    let _ ← clientCreate .persistentVolumeClaim claim
    noteClaim claim.metadata.name
  | some found => do
    noteClaim claim.metadata.name
    updatePersistentVolumeClaim found claim

/-- `processSnapshotsPersistentVolumeClaim`. -/
def processSnapshotsPersistentVolumeClaim (storage : SnapshotStorage) (cr : ZooKeeperService) :
    Op (Option PersistentVolumeClaim) := do
  let name := if storage.persistentVolumeClaimName = "" then
      snapshotsPersistentVolumeClaimPattern cr.name
    else storage.persistentVolumeClaimName
  let global ← build (deref cr.spec.global)
  let labels := getZooKeeperLabels cr.name global.defaultLabels
  if storage.persistentVolumeType = "standalone" then
    build (processNonSharedPersistentVolumeClaim name storage.persistentVolumeName
      storage.persistentVolumeLabel storage.storageClass storage.volumeSize cr.namespaceName labels
      global.pvcAnnotations)
  else if storage.persistentVolumeType = "predefined_claim" then
    some <$> clientGet .persistentVolumeClaim name
  else if storage.persistentVolumeType = "predefined" then
    if storage.persistentVolumeName = "" then
      Proc.raise <| .message
        "parameter 'persistentVolumeName' must be specified for 'predefined' persistent volume type"
    else
      some <$> build (newPersistentVolumeClaim name cr.namespaceName labels global.pvcAnnotations
        true storage.persistentVolumeName none storage.storageClass storage.volumeSize)
  else if storage.persistentVolumeType = "storage_class" then
    some <$> build (newPersistentVolumeClaim name cr.namespaceName labels global.pvcAnnotations
      true "" none storage.storageClass storage.volumeSize)
  else pure none

/-- `createOrUpdateDeployment`. -/
def createOrUpdateDeployment (deployment : Deployment) : Op Unit := do
  let found ← (some <$> clientGet .deployment deployment.metadata.name).recover fun e =>
    if e.isNotFound then some (pure none) else none
  match found with
  | none => discard (clientCreate .deployment deployment)
  | some _ => retryOnConflict defaultBackoff do
    let _ ← clientGet .deployment deployment.metadata.name
    discard (clientUpdate .deployment deployment)

/-- `scaleDeployment`. -/
def scaleDeployment (name : String) (replicas : ℤ) : Op Unit :=
  retryOnConflict defaultBackoff do
    let found ← clientGet .deployment name
    discard (clientUpdate .deployment { found with replicas := replicas })

/-- `isDeploymentReady`: an error counts as not ready. -/
def isDeploymentReady (name : String) : Op Bool :=
  Proc.recover (do
    let deployment ← clientGet .deployment name
    let status ← Proc.observe fun w => w.statuses name
    pure (deployment.replicas = min status.readyReplicas status.updatedReplicas))
  fun e => if e.isPanic then none else some (pure false)

/-- `getPodNames`. -/
def getPodNames (pods : List Pod) : List String := pods.map fun pod => pod.labels.get "name"

/-! ## Secrets -/

/-- `updateSecret`. -/
def updateSecret (secret : Secret) : Op Secret := do
  let _ ← clientGet .secret secret.metadata.name
  clientUpdate .secret secret

/-- `watchSecret`: make the custom resource the controller of the Secret. -/
def watchSecret (secretName : String) (cr : ZooKeeperService) : Op Secret := do
  let secret ← clientGet .secret secretName
  let owners := match getControllerOf secret.metadata.ownerReferences with
    | some existing =>
      if referSameObject existing.name existing.apiVersion existing.kind cr.name
        cr.apiVersion cr.kind
      then secret.metadata.ownerReferences else []
    | none => secret.metadata.ownerReferences
  let m ← Proc.lift (setControllerReference cr { secret.metadata with ownerReferences := owners })
  updateSecret { secret with metadata := m }

/-- `secretContainsKey`. -/
def secretContainsKey (secret : Secret) (key : String) : Bool :=
  ((secret.data.getD ∅).lookup key).getD "" ≠ ""

/-- `secretVersionChanged`: a nil Secret, or one that was not found, has not changed. -/
def secretVersionChanged (versions : Finmap fun _ : String => ℕ) (secret : Option Secret) : Bool :=
  match secret with
  | some s => s.metadata.name ≠ "" &&
      (versions.lookup s.metadata.name).getD 0 ≠ s.metadata.resourceVersion
  | none => false

/-- One round of `applyAutoRestartSecretAnnotations`: the annotations of the pods, and whether
they were modified. -/
def applyAutoRestart (state : Option StringMap × Bool) (secret : Option Secret) :
    Option StringMap × Bool :=
  match secret with
  | none => state
  | some s =>
    if s.metadata.name = "" then state
    else if (s.metadata.annotations.getD ∅).get autoRestartAnnotation ≠ "true" then state
    else
      let annotations := state.1.getD ∅
      let annotationName := resourceVersionAnnotationTemplate s.metadata.name
      let version := toString s.metadata.resourceVersion
      if annotations.get annotationName = version then (some annotations, state.2)
      else (some (annotations.insert annotationName version), true)

/-- `applyAutoRestartSecretAnnotations`: the Deployment, and whether it was modified. -/
def applyAutoRestartSecretAnnotations (deployment : Deployment) (secrets : List (Option Secret)) :
    Deployment × Bool :=
  let result := secrets.foldl applyAutoRestart (deployment.templateAnnotations, false)
  ({ deployment with templateAnnotations := result.1 }, result.2)

/-- `updateDeploymentSecretRestartAnnotations`. -/
def updateDeploymentSecretRestartAnnotations (deploymentName : String)
    (secrets : List (Option Secret)) : Op Unit :=
  retryOnConflict defaultBackoff do
    let found ← (some <$> clientGet .deployment deploymentName).recover fun e =>
      if e.isNotFound then some (pure none) else none
    match found with
    | none => pure ()
    | some deployment =>
      let result := applyAutoRestartSecretAnnotations deployment secrets
      Proc.whenever result.2 (discard (clientUpdate .deployment result.1))

/-! ## Status conditions -/

/-- `NewCondition`. -/
def newCondition (conditionStatus conditionType conditionReason conditionMessage : String) :
    StatusCondition where
  type := conditionType
  status := conditionStatus
  reason := conditionReason
  message := conditionMessage

/-- `addCondition`: a condition takes the place of the one with its reason, unless that one
says the same. -/
def addCondition : List StatusCondition → StatusCondition → List StatusCondition
  | [], condition => [condition]
  | current :: conditions, condition =>
    if condition.reason = current.reason then
      if condition.type ≠ current.type ∨ condition.status ≠ current.status ∨
          condition.message ≠ current.message then condition :: conditions
      else current :: conditions
    else current :: addCondition conditions condition

/-- `updateConditions`. -/
def updateConditions (condition : StatusCondition) : Op Unit := do
  let time ← now
  Proc.update fun w => { w with status := { w.status with
    conditions := addCondition w.status.conditions { condition with lastTransitionTime := time } } }
  statusUpdate

/-- `hasFailedConditions`. -/
def hasFailedConditions (status : ZooKeeperServiceStatus) : Bool :=
  status.conditions.any fun condition => condition.type = "Failed"

/-- `ReconcileCycleStatus`, the reason of the conditions about a whole reconciliation. -/
def zooKeeperServiceConditionReason : String := "ReconcileCycleStatus"

/-- `writeFailedStatus`: an error on the way is only logged. -/
def writeFailedStatus (errorMessage : String) : Op Unit :=
  (updateConditions
    (newCondition "False" "Failed" zooKeeperServiceConditionReason errorMessage)).recover
    fun e => if e.isPanic then none else some (pure ())

end QubershipZookeeper.Operator
