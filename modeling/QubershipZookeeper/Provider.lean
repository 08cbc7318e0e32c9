import QubershipZookeeper.ZooKeeperServiceTypes

/-!
# What the component providers share

The functions of `zookeeperservice_provider.go`, `secrets_provider.go` and
`vault_provider.go`: common labels, Services and claims, projected Secrets and the
parts of a pod that bring it its credentials from Vault.

A builder of the source returns its object or **panics** — on a nil pointer, on an
index past the end of a list, on a size that is not a quantity — so builders here
return an `Except Panic`.
-/

namespace QubershipZookeeper.Operator

/-! ## Panics -/

/-- Why a Go program panics. -/
inductive Panic where
  /-- a nil pointer is dereferenced -/
  | nilDereference
  /-- a slice is indexed past its end -/
  | indexOutOfRange
  /-- a nil map is written -/
  | nilMapWrite
  /-- `resource.MustParse` on something that is not a quantity -/
  | invalidQuantity
  /-- a value is taken to be of a type that it is not of -/
  | typeAssertion
  deriving DecidableEq, Repr

/-- `*p`. -/
def deref {α : Type} : Option α → Except Panic α
  | some a => .ok a
  | none => .error .nilDereference

/-- `xs[i]`. -/
def index {α : Type} (xs : List α) (i : ℕ) : Except Panic α :=
  match xs[i]? with
  | some a => .ok a
  | none => .error .indexOutOfRange

/-- A builder that returned: its first part returned, and so did the rest. -/
theorem except_bind_ok_inv {ε α β : Type} {x : Except ε α} {f : α → Except ε β} {b : β}
    (h : (x >>= f) = .ok b) : ∃ a, x = .ok a ∧ f a = .ok b := by
  cases x with
  | error e => cases h
  | ok a => exact ⟨a, rfl, h⟩

/-- A pointer that could be read was set. -/
theorem deref_ok_inv {α : Type} {x : Option α} {a : α} (h : deref x = .ok a) : x = some a := by
  cases x <;> cases h
  rfl

/-- `resource.MustParse`. -/
def mustParse (size : VolumeSize) : Except Panic String :=
  match size.quantity with
  | some quantity => .ok quantity
  | none => .error .invalidQuantity

/-! ## Labels -/

/-- `GetZooKeeperSelectorLabels`. -/
def getZooKeeperSelectorLabels (serviceName : String) : StringMap :=
  .ofList [("component", "zookeeper"), ("clusterName", serviceName)]

/-- `GetZooKeeperLabels`. -/
def getZooKeeperLabels (serviceName : String) (defaultLabels : StringMap) : StringMap :=
  let labels : StringMap := .ofList [("app.kubernetes.io/name", serviceName), ("name", serviceName)]
  .joinMaps (.joinMaps labels (getZooKeeperSelectorLabels serviceName)) defaultLabels

/-! ## Services, service accounts and claims -/

/-- `newServiceForCR`. -/
def newServiceForCR (serviceName namespaceName : String) (labels selectorLabels : StringMap)
    (ports : List ServicePort) : Service where
  metadata := { name := serviceName, namespaceName := namespaceName, labels := labels }
  ports := ports
  selector := selectorLabels

/-- `NewServiceAccount`. -/
def newServiceAccount (serviceAccountName namespaceName : String) : ServiceAccount where
  metadata := { name := serviceAccountName, namespaceName := namespaceName }

/-- The annotations an object is created with: an empty map is stored as none. -/
def storedAnnotations (annotations : StringMap) : Option StringMap :=
  if annotations = ∅ then none else some annotations

/-- `SnapshotsPersistentVolumeClaimPattern`, `pvc-%s-snapshots`. -/
def snapshotsPersistentVolumeClaimPattern (name : String) : String := "pvc-" ++ name ++ "-snapshots"

/-- `NewPersistentVolumeClaim`. -/
def newPersistentVolumeClaim (persistentVolumeClaimName namespaceName : String)
    (labels annotations : StringMap) (shared : Bool) (persistentVolumeName : String)
    (labelSelector : Option StringMap) (storageClassName : Option String)
    (volumeSize : VolumeSize) :
    Except Panic PersistentVolumeClaim := do
  let storage ← mustParse volumeSize
  return {
    metadata := { name := persistentVolumeClaimName, namespaceName := namespaceName,
                  labels := labels, annotations := storedAnnotations annotations }
    accessModes := [if shared then .readWriteMany else .readWriteOnce]
    storage := storage
    volumeName := persistentVolumeName
    selector := if persistentVolumeName ≠ "" then none else labelSelector
    -- bound by name or label, a claim without a class gets the empty one
    storageClassName :=
      if persistentVolumeName ≠ "" ∨ labelSelector.isSome then some (storageClassName.getD "")
      else storageClassName }

/-- `ProcessNonSharedPersistentVolumeClaim`: no claim at all when neither a volume nor
a label nor a class is given. -/
def processNonSharedPersistentVolumeClaim (persistentVolumeClaimName persistentVolumeName
    persistentVolumeLabel : String) (storageClassName : Option String)
    (storageSize : VolumeSize) (namespaceName : String) (labels annotations : StringMap) :
    Except Panic (Option PersistentVolumeClaim) :=
  let claim := fun labelSelector => some <$> newPersistentVolumeClaim persistentVolumeClaimName
    namespaceName labels annotations false persistentVolumeName labelSelector storageClassName
    storageSize
  if persistentVolumeName ≠ "" then claim none
  else if persistentVolumeLabel ≠ "" then do
    let keyValue := persistentVolumeLabel.toList.splitOn '='
    let key ← index keyValue 0
    let value ← index keyValue 1
    claim (some (.ofList [(.ofList key, .ofList value)]))
  else if storageClassName = none then .ok none
  else claim none

/-! ## Parts of a pod -/

/-- `unicode.IsSpace`. -/
def isSpace (c : Char) : Bool :=
  c.toNat ∈ [0x09, 0x0a, 0x0b, 0x0c, 0x0d, 0x20, 0x85, 0xa0, 0x1680, 0x2028, 0x2029, 0x202f,
    0x205f, 0x3000] || (0x2000 ≤ c.toNat && c.toNat ≤ 0x200a)

/-- `strings.TrimSpace`. -/
def trimSpace (s : String) : String :=
  .ofList ((s.toList.dropWhile isSpace).reverse.dropWhile isSpace).reverse

/-- `strings.SplitN(envVar, "=", 2)`, when there is something to split at. -/
def splitPair (envVar : String) : Option (String × String) :=
  match envVar.toList.dropWhile (· ≠ '=') with
  | _ :: value => some (.ofList (envVar.toList.takeWhile (· ≠ '=')), .ofList value)
  | [] => none

/-- The variable one additional entry stands for; an entry without a name or without
an equals sign is logged and left out. -/
def additionalEnv (envVar : String) : Option EnvVar := do
  let pair ← splitPair envVar
  let name := trimSpace pair.1
  if name = "" then none else some { name := name, value := trimSpace pair.2 }

/-- `buildEnvs`. -/
def buildEnvs (envVars : List EnvVar) (additionalEnvs : List String) : List EnvVar :=
  envVars ++ additionalEnvs.filterMap additionalEnv

/-- `getDefaultContainerSecurityContext`. -/
def getDefaultContainerSecurityContext : SecurityContext where
  allowPrivilegeEscalation := false
  readOnlyRootFilesystem := true
  drop := ["ALL"]

/-- `getTmpVolume`. The size limits are constants of the source, and are taken to be quantities. -/
def getTmpVolume (sizeLimitQuantity : String) : Volume :=
  ⟨"tmp", .emptyDir (some sizeLimitQuantity)⟩

/-- `getTmpVolumeMount`. -/
def getTmpVolumeMount : VolumeMount := { name := "tmp", mountPath := "/tmp" }

/-- `getVarLogVolume`. -/
def getVarLogVolume : Volume := ⟨"var-log", .emptyDir (some "10Mi")⟩

/-- `getVarLogVolumeMount`. -/
def getVarLogVolumeMount : VolumeMount := { name := "var-log", mountPath := "/var/log" }

/-- A variable with the namespace of the pod. -/
def namespaceEnv (name : String) : EnvVar :=
  { name := name, fieldPath := some "metadata.namespace" }

/-- `affinityRules.NodeAffinity` for one node, by host name. -/
def Affinity.pinnedTo (affinity : Affinity) (node : String) : Affinity :=
  { affinity with nodeAffinity := some {
      requiredDuringSchedulingIgnoredDuringExecution :=
        [[⟨"kubernetes.io/hostname", "In", [node]⟩]] } }

/-- Is TLS on, with certificates to use? -/
def Global.usesSsl (global : Global) : Bool :=
  global.zooKeeperSsl.enabled && global.zooKeeperSsl.secretName ≠ ""

/-! ## Secrets in a pod -/

/-- `AutoRestartAnnotation`. -/
def autoRestartAnnotation : String := "zookeeperservice.netcracker.com/auto-restart"

/-- `ResourceVersionAnnotationTemplate`, `%s/resource-version`. -/
def resourceVersionAnnotationTemplate (secretName : String) : String :=
  secretName ++ "/resource-version"

/-- `GetPodSecretsMountPath`. -/
def getPodSecretsMountPath (service : String) : String :=
  "/etc/secrets/" ++ service ++ "-pod-secrets"

/-- `NewPodSecretsProjectedVolume`: sources without a name or without keys are left
out. The mode is octal 0644. -/
def newPodSecretsProjectedVolume (volumeName : String) (sources : List SecretProjection) : Volume :=
  ⟨volumeName, .projected 420 (sources.filter fun s => s.name ≠ "" && !s.items.isEmpty)⟩

/-- `NewPodSecretsVolumeMount`. -/
def newPodSecretsVolumeMount (volumeName mountPath : String) : VolumeMount :=
  { name := volumeName, mountPath := mountPath, readOnly := true }

/-! ## Vault -/

/-- The Vault section, when it is there and switched on. -/
def ZooKeeperService.vault? (cr : ZooKeeperService) : Option VaultSecretManagement :=
  cr.spec.vaultSecretManagement.filter (·.enabled)

/-- `IsVaultSecretManagementEnabled`. -/
def isVaultSecretManagementEnabled (cr : ZooKeeperService) : Bool :=
  match cr.spec.vaultSecretManagement with
  | some vault => vault.enabled
  | none => false

/-- `fmt.Sprintf("%s.%s/%s", serviceName, cr.Namespace, secret)`: the name of a secret in
Vault. -/
def vaultSecretName (serviceName namespaceName secret : String) : String :=
  serviceName ++ "." ++ namespaceName ++ "/" ++ secret

/-- `getVaultSecretEnvVarSource`. -/
def getVaultSecretEnvVarSource (serviceName : String) (vault : VaultSecretManagement)
    (namespaceName secret key : String) : String :=
  "vault:/" ++ vault.path ++ "/data/" ++ vaultSecretName serviceName namespaceName secret ++ "#" ++
    key

/-- `getVaultConnectionEnvVars`. -/
def getVaultConnectionEnvVars (serviceName : String) (vault : VaultSecretManagement)
    (namespaceName : String) : List EnvVar :=
  [{ name := "VAULT_SKIP_VERIFY", value := "True" },
   { name := "VAULT_ADDR", value := vault.url },
   { name := "VAULT_PATH", value := vault.method },
   { name := "VAULT_ROLE", value := serviceName ++ "." ++ namespaceName ++ "-role" },
   { name := "VAULT_IGNORE_MISSING_SECRETS", value := "False" }]

/-- `getVaultInitContainer`. -/
def getVaultInitContainer (vault : VaultSecretManagement) : Container where
  name := "copy-vault-env"
  image := vault.dockerImage
  command := ["sh", "-c", "cp /usr/local/bin/vault-env /vault/"]
  volumeMounts := [{ name := "vault-env", mountPath := "/vault" }]
  imagePullPolicy := .ifNotPresent
  securityContext := getDefaultContainerSecurityContext

end QubershipZookeeper.Operator
