import QubershipZookeeper.KubernetesObjects

/-!
# The custom resource

`ZooKeeperService`, the custom resource the operator reconciles: one structure per
Go type, with the fields in the source's order. A pointer to a section is an
`Option`, `none` for nil. Every field of a section is here, also those that nothing
reads, because the **hash** of a section covers all of them.
-/

namespace QubershipZookeeper.Operator

/-! ## Sections of the specification -/

/-- A size as the custom resource gives it: the text, and the quantity that
`resource.MustParse` makes of the text, or none if it panics. Which texts are
quantities is decided in a library; here the answer comes with the size, so that
whatever is said about all custom resources holds for every parser. -/
structure VolumeSize where
  /-- the text -/
  text : String
  /-- the quantity, as it is stored in a claim -/
  quantity : Option String
  deriving DecidableEq

/-- A size whose text is a quantity as it stands. -/
def VolumeSize.of (text : String) : VolumeSize := ⟨text, some text⟩

/-- The volumes of ZooKeeper, one entry per server in each list. -/
structure Storage where
  /-- the volumes to bind, by name -/
  volumes : List String := []
  /-- the nodes the servers are pinned to -/
  nodes : List String := []
  /-- the volumes to bind, by label -/
  labels : List String := []
  /-- the storage classes: one per server, or one for all -/
  className : List String := []
  /-- the size of a volume -/
  size : VolumeSize
  deriving DecidableEq

/-- The volume that snapshots are stored on. -/
structure SnapshotStorage where
  /-- how the volume is provided -/
  persistentVolumeType : String := ""
  /-- the volume to bind -/
  persistentVolumeName : String := ""
  /-- the claim to use or create -/
  persistentVolumeClaimName : String := ""
  /-- the node of the volume -/
  nodeName : String := ""
  /-- the size of the volume -/
  volumeSize : VolumeSize
  /-- the label of the volume to bind -/
  persistentVolumeLabel : String := ""
  /-- the storage class -/
  storageClass : Option String := none
  /-- deprecated -/
  nfsServer : String := ""
  /-- deprecated -/
  nfsPath : String := ""
  deriving DecidableEq

/-- TLS settings of ZooKeeper. -/
structure Ssl where
  /-- the allowed cipher suites -/
  cipherSuites : List String := []
  /-- do clients authenticate with certificates? -/
  enableTwoWaySsl : Bool := false
  /-- is the plain port open as well? -/
  allowNonencryptedAccess : Bool := false
  deriving DecidableEq

/-- Diagnostics settings. -/
structure Diagnostics where
  /-- `dev`, `prod`, or a mode that switches diagnostics off -/
  mode : String := ""
  /-- the service of the diagnostics agent -/
  agentService : String := ""
  deriving DecidableEq

/-- `spec.zooKeeper`. -/
structure ZooKeeper where
  /-- the image of a server -/
  dockerImage : String
  /-- the scheduling rules -/
  affinity : Affinity := {}
  /-- the tolerated taints -/
  tolerations : List Unread := []
  /-- the priority class -/
  priorityClassName : String := ""
  /-- the number of servers -/
  replicas : ℤ
  /-- the volumes of the servers -/
  storage : Storage
  /-- the volume for snapshots -/
  snapshotStorage : SnapshotStorage
  /-- the heap of a server, in megabytes -/
  heapSize : ℤ
  /-- the resource requests and limits -/
  resources : Unread := {}
  /-- the Secret with the credentials -/
  secretName : String
  /-- do the servers authenticate to each other? -/
  quorumAuthEnabled : Bool := false
  /-- TLS settings -/
  ssl : Ssl := {}
  /-- the security context of the pods -/
  securityContext : Unread := {}
  /-- the port of the Jolokia agent -/
  jolokiaPort : ℤ := 0
  /-- more environment variables, as `NAME=value` -/
  environmentVariables : List String := []
  /-- are servers replaced one at a time? -/
  rollingUpdate : Bool := false
  /-- more labels for the pods -/
  customLabels : StringMap := ∅
  /-- diagnostics settings -/
  diagnostics : Diagnostics := {}
  /-- is there an audit log? -/
  auditEnabled : Bool := false
  deriving DecidableEq

/-- `spec.monitoring`. -/
structure Monitoring where
  /-- the image -/
  dockerImage : String
  /-- the scheduling rules -/
  affinity : Affinity := {}
  /-- the tolerated taints -/
  tolerations : List Unread := []
  /-- the priority class -/
  priorityClassName : String := ""
  /-- the resource requests and limits -/
  resources : Unread := {}
  /-- the monitoring system, such as `prometheus` -/
  monitoringType : String
  /-- the host of ZooKeeper -/
  zooKeeperHost : String
  /-- the host of the backup daemon -/
  zooKeeperBackupDaemonHost : String := ""
  /-- the Secret with the credentials -/
  secretName : String
  /-- the port of the Jolokia agent -/
  zooKeeperJolokiaPort : ℤ := 0
  /-- the security context of the pod -/
  securityContext : Unread := {}
  /-- more labels for the pod -/
  customLabels : StringMap := ∅
  /-- deprecated -/
  zooKeeperVolumes : String := ""
  /-- deprecated -/
  needToCleanInfluxDb : Bool := false
  /-- deprecated -/
  smDbHost : String := ""
  /-- deprecated -/
  smDbName : String := ""
  deriving DecidableEq

/-- The S3 storage of the backup daemon. -/
structure S3 where
  /-- are backups stored in S3? -/
  enabled : Bool := false
  /-- the address of the store -/
  url : String := ""
  /-- the bucket -/
  bucket : String := ""
  /-- the Secret with the keys -/
  secretName : String := ""
  /-- is the certificate of the store checked? -/
  sslVerify : Bool := false
  /-- the Secret with the certificate -/
  sslSecretName : String := ""
  /-- the certificate -/
  sslCert : String := ""
  deriving DecidableEq

/-- A TLS section: a switch and the Secret with the certificates. -/
structure SslSecret where
  /-- is TLS on? -/
  enabled : Bool := false
  /-- the Secret with the certificates -/
  secretName : String := ""
  deriving DecidableEq

/-- `spec.backupDaemon`. -/
structure BackupDaemon where
  /-- the image -/
  dockerImage : String
  /-- the scheduling rules -/
  affinity : Affinity := {}
  /-- the tolerated taints -/
  tolerations : List Unread := []
  /-- the priority class -/
  priorityClassName : String := ""
  /-- the volume for backups -/
  backupStorage : SnapshotStorage
  /-- the resource requests and limits -/
  resources : Unread := {}
  /-- when backups are made -/
  backupSchedule : String := ""
  /-- the S3 storage -/
  s3 : Option S3 := none
  /-- which backups are deleted -/
  evictionPolicy : String := ""
  /-- does the daemon listen on IPv6? -/
  ipv6 : Bool := false
  /-- the host of ZooKeeper -/
  zooKeeperHost : String
  /-- the port of ZooKeeper -/
  zooKeeperPort : ℤ
  /-- the Secret with the credentials -/
  secretName : String
  /-- the security context of the pod -/
  securityContext : Unread := {}
  /-- more labels for the pod -/
  customLabels : StringMap := ∅
  /-- TLS settings of the daemon -/
  backupDaemonSsl : SslSecret := {}
  deriving DecidableEq

/-- `spec.vaultSecretManagement`. -/
structure VaultSecretManagement where
  /-- the image that brings `vault-env` -/
  dockerImage : String
  /-- are the credentials kept in Vault? -/
  enabled : Bool := false
  /-- the secret engine's path -/
  path : String := ""
  /-- the address of Vault -/
  url : String := ""
  /-- the operator's role -/
  role : String := ""
  /-- the authentication method -/
  method : String := ""
  /-- who generates passwords: `vault`, or else the operator -/
  passwordGenerationMechanism : String := ""
  /-- does the operator write policies and roles? -/
  writePolicies : Bool := false
  /-- paths of the Monitoring secrets -/
  secretPaths : StringMap := ∅
  deriving DecidableEq

/-- `spec.global`. -/
structure Global where
  /-- does a reconciliation wait until the pods are ready? -/
  waitForPodsReady : Bool := false
  /-- how long it waits, in seconds -/
  podsReadyTimeout : ℤ := 0
  /-- more labels for all pods -/
  customLabels : StringMap := ∅
  /-- labels for all objects -/
  defaultLabels : StringMap := ∅
  /-- TLS settings of ZooKeeper -/
  zooKeeperSsl : SslSecret := {}
  /-- annotations for all claims, `pvc.metadata.annotations` -/
  pvcAnnotations : StringMap := ∅
  deriving DecidableEq

/-- `spec.integrationTests`. -/
structure IntegrationTests where
  /-- the Deployment of the tests -/
  serviceName : String
  /-- does a reconciliation wait for the tests? -/
  waitForResult : Bool := false
  /-- how long it waits, in seconds -/
  timeout : ℤ := 0
  /-- a value that is changed to start the tests -/
  randomRunTrigger : String := ""
  deriving DecidableEq

/-! ## The resource -/

/-- `ZooKeeperServiceSpec`: the desired state. -/
structure ZooKeeperServiceSpec where
  /-- settings of all components -/
  global : Option Global := none
  /-- the ZooKeeper servers -/
  zooKeeper : Option ZooKeeper := none
  /-- the monitoring agent -/
  monitoring : Option Monitoring := none
  /-- the backup daemon -/
  backupDaemon : Option BackupDaemon := none
  /-- where credentials are kept -/
  vaultSecretManagement : Option VaultSecretManagement := none
  /-- the integration tests -/
  integrationTests : Option IntegrationTests := none
  deriving DecidableEq

/-- `StatusCondition`. The time is a count of the clock's ticks. -/
structure StatusCondition where
  /-- `In progress`, `Failed`, `Successful` or `Ready` -/
  type : String
  /-- `True` or `False` -/
  status : String
  /-- which check this is about -/
  reason : String
  /-- details for a reader -/
  message : String
  /-- when the condition last changed -/
  lastTransitionTime : ℕ := 0
  deriving DecidableEq

/-- `ZooKeeperServiceStatus`: the observed state. -/
structure ZooKeeperServiceStatus where
  /-- the pods of the servers -/
  servers : List String := []
  /-- the pods of the monitoring agent -/
  monitoringNodes : List String := []
  /-- the pods of the backup daemon -/
  backupDaemonNodes : List String := []
  /-- the claim annotations of the last reconciliation, `pvcStatus.annotations` -/
  pvcAnnotations : StringMap := ∅
  /-- the versions of the Vault secrets; `none` is the nil map -/
  secretVersions : Option (Finmap fun _ : String => ℕ) := none
  /-- the conditions -/
  conditions : List StatusCondition := []
  deriving DecidableEq

/-- `ZooKeeperService`, without its status: the API server stores the two apart,
and an update of one leaves the other alone. -/
structure ZooKeeperService where
  /-- the API group and version, as the object carries them -/
  apiVersion : String := "netcracker.com/v1"
  /-- the kind, as the object carries it -/
  kind : String := "ZooKeeperService"
  /-- the name -/
  name : String
  /-- the namespace -/
  namespaceName : String
  /-- the desired state -/
  spec : ZooKeeperServiceSpec
  deriving DecidableEq

/-- The components with workloads of their own. -/
inductive Component where
  | zooKeeper | monitoring | backupDaemon
  deriving DecidableEq, Repr

/-! ## Hashes -/

/-- `util.Hash`: the SHA-256 of the JSON of a section. Different sections of one kind
have different JSON, and the hash function is taken to be collision-free, so the
hash of a section stands for the section. -/
inductive Digest where
  /-- of the whole specification -/
  | spec (s : ZooKeeperServiceSpec)
  /-- of `spec.global` -/
  | global (g : Option Global)
  /-- of `spec.zooKeeper` -/
  | zooKeeper (z : ZooKeeper)
  /-- of `spec.monitoring` -/
  | monitoring (m : Monitoring)
  /-- of `spec.backupDaemon` -/
  | backupDaemon (b : BackupDaemon)
  deriving DecidableEq

end QubershipZookeeper.Operator
