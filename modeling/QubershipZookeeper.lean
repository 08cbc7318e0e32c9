import QubershipZookeeper.Archive
import QubershipZookeeper.BackupDaemonProvider
import QubershipZookeeper.BackupFolder
import QubershipZookeeper.BackupHierarchy
import QubershipZookeeper.BackupMetric
import QubershipZookeeper.CalmCluster
import QubershipZookeeper.ClaimAnnotations
import QubershipZookeeper.ClaimMerges
import QubershipZookeeper.Cluster
import QubershipZookeeper.ClusterWrites
import QubershipZookeeper.Codec
import QubershipZookeeper.ConditionLedger
import QubershipZookeeper.ConfigMerge
import QubershipZookeeper.Controller
import QubershipZookeeper.CredentialsRefresh
import QubershipZookeeper.DesiredObjects
import QubershipZookeeper.Downscale
import QubershipZookeeper.DrReconfig
import QubershipZookeeper.Effects
import QubershipZookeeper.FilterLoop
import QubershipZookeeper.FilteredLog
import QubershipZookeeper.Footprints
import QubershipZookeeper.Forest
import QubershipZookeeper.HashGate
import QubershipZookeeper.HierarchicalQuorum
import QubershipZookeeper.Idempotence
import QubershipZookeeper.Interplay
import QubershipZookeeper.Jaas
import QubershipZookeeper.KeyedLog
import QubershipZookeeper.KubernetesObjects
import QubershipZookeeper.Labels
import QubershipZookeeper.MonitoringProvider
import QubershipZookeeper.MountedClaims
import QubershipZookeeper.Panics
import QubershipZookeeper.ParseTransactionLogs
import QubershipZookeeper.Proc
import QubershipZookeeper.ProcessZookeeperLogs
import QubershipZookeeper.Provider
import QubershipZookeeper.Reconcilers
import QubershipZookeeper.RefilteredLog
import QubershipZookeeper.Restarts
import QubershipZookeeper.RestoreHierarchy
import QubershipZookeeper.SafeCalls
import QubershipZookeeper.SaslConfig
import QubershipZookeeper.SecretLedger
import QubershipZookeeper.SecretPassages
import QubershipZookeeper.ServerList
import QubershipZookeeper.Servers
import QubershipZookeeper.ServiceReconciler
import QubershipZookeeper.SettledSecrets
import QubershipZookeeper.ShellText
import QubershipZookeeper.SnapshotChoice
import QubershipZookeeper.StartedServers
import QubershipZookeeper.StatusConditions
import QubershipZookeeper.StoreZnodes
import QubershipZookeeper.StoredUsers
import QubershipZookeeper.TextFile
import QubershipZookeeper.ThreeWayMerge
import QubershipZookeeper.TransactionBodies
import QubershipZookeeper.TransactionLogFormat
import QubershipZookeeper.TransactionalBackup
import QubershipZookeeper.TransactionalRecovery
import QubershipZookeeper.VaultAccess
import QubershipZookeeper.VaultHistory
import QubershipZookeeper.VaultSecrets
import QubershipZookeeper.VaultWrites
import QubershipZookeeper.WatchedSecrets
import QubershipZookeeper.ZooKeeperProvider
import QubershipZookeeper.ZooKeeperServiceTypes
