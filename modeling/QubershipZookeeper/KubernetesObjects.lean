import Mathlib.Data.Finmap

/-!
# The Kubernetes objects the operator writes

The API objects the operator builds, reads and stores, with the fields that it
sets or looks at:

* metadata — names, labels, annotations, owner references and the **resource
  version** the API server assigns;
* the objects it owns — Services, PersistentVolumeClaims, ServiceAccounts and
  Deployments, the latter down to the volumes, variables and probes of a
  container;
* the objects it finds — Secrets and Pods.

API values that are only copied from the custom resource into an object, such as
resource limits, stand for themselves as JSON text (`Unread`).
-/

namespace QubershipZookeeper.Operator

/-! ## Maps -/

/-- A `map[string]string`. Reading a nil map is reading an empty one, so nil is
kept apart (with `Option`) only where the code writes into the map it has found. -/
abbrev StringMap : Type := Finmap fun _ : String => String

namespace StringMap

/-- A map literal. -/
def ofList (entries : List (String × String)) : StringMap :=
  entries.foldl (fun m e => m.insert e.1 e.2) ∅

/-- `m[key]`, which is the empty string for a missing key. -/
def get (m : StringMap) (key : String) : String := (m.lookup key).getD ""

/-- `util.JoinMaps`: the entries of both maps; where both have a key, those of
`mainMap` win. -/
def joinMaps (sideMap mainMap : StringMap) : StringMap := mainMap ∪ sideMap

/-- A label selector: every pair of the selector is among the labels. -/
def selects (selector labels : StringMap) : Prop :=
  ∀ e ∈ selector.entries, labels.lookup e.1 = some e.2

instance (selector labels : StringMap) : Decidable (selects selector labels) :=
  inferInstanceAs (Decidable (∀ e ∈ selector.entries, labels.lookup e.1 = some e.2))

/-- A map with an entry is not the empty map. -/
theorem insert_ne_empty (m : StringMap) (key value : String) : m.insert key value ≠ ∅ := by
  intro hempty
  have hmem : key ∈ m.insert key value := Finmap.mem_insert.mpr (.inl rfl)
  rw [hempty] at hmem
  exact Finmap.notMem_empty hmem

end StringMap

/-- An API value that the operator copies without looking into it, as JSON text. -/
structure Unread where
  /-- the text -/
  json : String := ""
  deriving DecidableEq

/-! ## Metadata -/

/-- An owner reference. -/
structure OwnerReference where
  /-- the owner's API group and version -/
  apiVersion : String
  /-- the owner's kind -/
  kind : String
  /-- the owner's name -/
  name : String
  /-- is this the reference to the managing controller? -/
  controller : Bool
  deriving DecidableEq

/-- The metadata of an object. -/
structure ObjectMeta where
  /-- the name, unique within a kind -/
  name : String := ""
  /-- the namespace -/
  namespaceName : String := ""
  /-- the labels -/
  labels : StringMap := ∅
  /-- the annotations; `none` is the nil map -/
  annotations : Option StringMap := none
  /-- the owners -/
  ownerReferences : List OwnerReference := []
  /-- the version the API server assigned; `0` for an object that was never stored -/
  resourceVersion : ℕ := 0
  deriving DecidableEq

/-! ## Services, claims and service accounts -/

/-- A transport protocol. -/
inductive Protocol where
  | tcp | udp
  deriving DecidableEq

/-- A port of a Service. -/
structure ServicePort where
  /-- the port's name -/
  name : String
  /-- the port number -/
  port : ℤ
  /-- the protocol -/
  protocol : Protocol := .tcp
  deriving DecidableEq

/-- A Service. -/
structure Service where
  /-- the metadata -/
  metadata : ObjectMeta
  /-- the ports -/
  ports : List ServicePort
  /-- the labels of the pods behind the Service -/
  selector : StringMap
  /-- the Service type; the API server fills in `ClusterIP` -/
  type : String := ""
  /-- the address; `None` for a headless Service -/
  clusterIP : String := ""
  /-- are pods published before they are ready? -/
  publishNotReadyAddresses : Bool := false
  deriving DecidableEq

/-- How a volume may be mounted. -/
inductive AccessMode where
  | readWriteOnce | readWriteMany
  deriving DecidableEq

/-- A PersistentVolumeClaim. -/
structure PersistentVolumeClaim where
  /-- the metadata -/
  metadata : ObjectMeta
  /-- the access modes -/
  accessModes : List AccessMode
  /-- the requested storage, a quantity -/
  storage : String
  /-- the bound volume -/
  volumeName : String := ""
  /-- the labels of the volume to bind -/
  selector : Option StringMap := none
  /-- the storage class -/
  storageClassName : Option String := none
  deriving DecidableEq

/-- A ServiceAccount. -/
structure ServiceAccount where
  /-- the metadata -/
  metadata : ObjectMeta
  deriving DecidableEq

/-! ## Secrets -/

/-- A Secret. The data is byte strings, which the operator reads as text. -/
structure Secret where
  /-- the metadata -/
  metadata : ObjectMeta := {}
  /-- the data; `none` is the nil map -/
  data : Option StringMap := none
  deriving DecidableEq

/-! ## Pods and Deployments -/

/-- Where the value of an environment variable comes from. -/
structure EnvVar where
  /-- the variable's name -/
  name : String
  /-- its literal value -/
  value : String := ""
  /-- the field of the pod that it takes its value from instead -/
  fieldPath : Option String := none
  deriving DecidableEq

/-- A port of a container. -/
structure ContainerPort where
  /-- the port's name -/
  name : String := ""
  /-- the port number -/
  containerPort : ℤ
  /-- the protocol -/
  protocol : Protocol := .tcp
  deriving DecidableEq

/-- A mounted volume. -/
structure VolumeMount where
  /-- the volume's name -/
  name : String
  /-- the directory it is mounted at -/
  mountPath : String
  /-- is it mounted read-only? -/
  readOnly : Bool := false
  deriving DecidableEq

/-- A key of a Secret or ConfigMap and the file it becomes. -/
structure KeyToPath where
  /-- the key -/
  key : String
  /-- the file -/
  path : String
  deriving DecidableEq

/-- A Secret projected into a volume. -/
structure SecretProjection where
  /-- the Secret's name -/
  name : String
  /-- the projected keys -/
  items : List KeyToPath
  deriving DecidableEq

/-- What a volume is made of. -/
inductive VolumeSource where
  /-- a claimed volume -/
  | persistentVolumeClaim (claimName : String)
  /-- scratch space, with an optional size limit -/
  | emptyDir (sizeLimit : Option String)
  /-- the files of a Secret -/
  | secret (secretName : String)
  /-- files of a ConfigMap -/
  | configMap (name : String) (items : List KeyToPath)
  /-- several Secrets in one directory -/
  | projected (defaultMode : ℕ) (sources : List SecretProjection)
  deriving DecidableEq

/-- A volume of a pod. -/
structure Volume where
  /-- the volume's name -/
  name : String
  /-- what it is made of -/
  source : VolumeSource
  deriving DecidableEq

/-- What a probe does. -/
inductive ProbeHandler where
  /-- run a command -/
  | exec (command : List String)
  /-- open a connection -/
  | tcpSocket (port : ℤ)
  /-- send a request -/
  | httpGet (path : String) (port : ℤ) (scheme : String)
  deriving DecidableEq

/-- A liveness or readiness probe. -/
structure Probe where
  /-- what it does -/
  handler : ProbeHandler
  /-- seconds before the first try -/
  initialDelaySeconds : ℕ
  /-- seconds before a try counts as failed -/
  timeoutSeconds : ℕ
  /-- seconds between tries -/
  periodSeconds : ℕ
  /-- successes in a row that count as success -/
  successThreshold : ℕ
  /-- failures in a row that count as failure -/
  failureThreshold : ℕ
  deriving DecidableEq

/-- When an image is pulled. -/
inductive PullPolicy where
  | always | ifNotPresent
  deriving DecidableEq

/-- The security context of a container. -/
structure SecurityContext where
  /-- may a process gain privileges? -/
  allowPrivilegeEscalation : Bool
  /-- is the root file system read-only? -/
  readOnlyRootFilesystem : Bool
  /-- the dropped capabilities -/
  drop : List String
  deriving DecidableEq

/-- A container. -/
structure Container where
  /-- the container's name -/
  name : String
  /-- its image -/
  image : String
  /-- its entry point; empty for the image's own -/
  command : List String := []
  /-- the arguments of the entry point -/
  args : List String := []
  /-- its ports -/
  ports : List ContainerPort := []
  /-- its environment -/
  env : List EnvVar := []
  /-- its resource requests and limits -/
  resources : Unread := {}
  /-- its mounted volumes -/
  volumeMounts : List VolumeMount := []
  /-- is it alive? -/
  livenessProbe : Option Probe := none
  /-- does it take requests? -/
  readinessProbe : Option Probe := none
  /-- when its image is pulled -/
  imagePullPolicy : PullPolicy
  /-- its security context -/
  securityContext : SecurityContext
  deriving DecidableEq

/-- A condition on the labels of a node. -/
structure NodeSelectorRequirement where
  /-- the label -/
  key : String
  /-- how it is compared -/
  operator : String
  /-- what it is compared with -/
  values : List String
  deriving DecidableEq

/-- The nodes a pod may or should run on. -/
structure NodeAffinity where
  /-- the node selector terms one of which must hold, each a list of requirements -/
  requiredDuringSchedulingIgnoredDuringExecution : List (List NodeSelectorRequirement) := []
  /-- the rest of the affinity -/
  preferred : Unread := {}
  deriving DecidableEq

/-- The scheduling rules of a pod. -/
structure Affinity where
  /-- the rules about nodes -/
  nodeAffinity : Option NodeAffinity := none
  /-- the rules about pods to run beside -/
  podAffinity : Unread := {}
  /-- the rules about pods to stay away from -/
  podAntiAffinity : Unread := {}
  deriving DecidableEq

/-- The specification of a pod. -/
structure PodSpec where
  /-- the volumes -/
  volumes : List Volume
  /-- the containers that run first -/
  initContainers : List Container
  /-- the containers -/
  containers : List Container
  /-- the security context of the pod -/
  securityContext : Unread
  /-- the host name -/
  hostname : String
  /-- the service account -/
  serviceAccountName : String
  /-- the subdomain -/
  subdomain : String := ""
  /-- the scheduling rules -/
  affinity : Affinity
  /-- the tolerated taints -/
  tolerations : List Unread
  /-- the priority class -/
  priorityClassName : String
  deriving DecidableEq

/-- A Deployment. Its status is kept with the pods, on the side of the cluster
that the operator does not write. -/
structure Deployment where
  /-- the metadata -/
  metadata : ObjectMeta
  /-- how many pods should run -/
  replicas : ℤ
  /-- the labels by which the Deployment finds its pods -/
  selector : StringMap
  /-- the labels of its pods -/
  templateLabels : StringMap
  /-- the annotations of its pods; `none` is the nil map -/
  templateAnnotations : Option StringMap := none
  /-- the pods -/
  podSpec : PodSpec
  /-- how pods are replaced -/
  strategy : String
  deriving DecidableEq

/-- A pod, as the operator finds it. -/
structure Pod where
  /-- the pod's labels -/
  labels : StringMap
  /-- its phase, such as `Running` -/
  phase : String
  deriving DecidableEq

/-- What the Deployment controller reports about a Deployment. -/
structure DeploymentStatus where
  /-- how many pods are ready -/
  readyReplicas : ℤ := 0
  /-- how many pods run the current template -/
  updatedReplicas : ℤ := 0
  deriving DecidableEq

end QubershipZookeeper.Operator
