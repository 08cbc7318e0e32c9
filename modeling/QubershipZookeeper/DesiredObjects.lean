import QubershipZookeeper.ZooKeeperProvider
import QubershipZookeeper.MonitoringProvider
import QubershipZookeeper.BackupDaemonProvider
import QubershipZookeeper.ServiceReconciler

/-!
# What the objects of a component depend on

A reconciler rebuilds the objects of its component when the hash of the component's
section or of `spec.global` has changed. This is enough if the objects depend on
nothing else, and they do depend on more:

* every Deployment has in it what its pod is told about **Vault** (`VaultView`);
* the Deployment of the monitoring agent also has in it what the agent is told about
  the **backup daemon** (`BackupDaemonView`).

`builds_eq_iff` says that this is all: with equal sections, two custom resources give
a component the same objects exactly when these views of theirs are equal.
-/

namespace QubershipZookeeper.Operator

/-! ## The views -/

/-- What a pod is told about Vault. -/
structure VaultView where
  /-- the secret engine's path -/
  path : String
  /-- the address of Vault -/
  url : String
  /-- the authentication method -/
  method : String
  /-- the image that brings `vault-env` -/
  dockerImage : String
  deriving DecidableEq

/-- What a pod is told about Vault by a section. -/
def VaultSecretManagement.view (vault : VaultSecretManagement) : VaultView :=
  ⟨vault.path, vault.url, vault.method, vault.dockerImage⟩

/-- What the pods of a custom resource are told about Vault: nothing when it is off. -/
def ZooKeeperService.vaultView (cr : ZooKeeperService) : Option VaultView :=
  cr.vault?.map VaultSecretManagement.view

/-- What the monitoring agent is told about the backup daemon. -/
structure BackupDaemonView where
  /-- are backups stored in S3? -/
  s3Enabled : Bool
  /-- the Secret with the credentials; empty when they are in Vault -/
  secretName : String
  /-- the Secret with the certificates, when the daemon uses TLS -/
  tls : Option String
  deriving DecidableEq

/-- What the monitoring agent of a custom resource is told about the backup daemon:
nothing when there is none. -/
def ZooKeeperService.backupDaemonView (cr : ZooKeeperService) : Option BackupDaemonView :=
  cr.spec.backupDaemon.map fun backupDaemon =>
    { s3Enabled := MonitoringResourceProvider.s3Enabled backupDaemon
      secretName := if cr.vault?.isSome then "" else backupDaemon.secretName
      tls := if backupDaemon.backupDaemonSsl.enabled then
          some backupDaemon.backupDaemonSsl.secretName
        else none }

/-- Two custom resources with the same name, namespace and `spec.global`. -/
structure SameGlobal (cr cr' : ZooKeeperService) : Prop where
  /-- the same name -/
  name : cr.name = cr'.name
  /-- the same namespace -/
  namespaceName : cr.namespaceName = cr'.namespaceName
  /-- the same global section -/
  global : cr.spec.global = cr'.spec.global

/-- The claim for snapshots or backups does not depend on Vault. -/
theorem processSnapshotsPersistentVolumeClaim_congr {cr cr' : ZooKeeperService}
    (hcr : SameGlobal cr cr') (storage : SnapshotStorage) :
    processSnapshotsPersistentVolumeClaim storage cr =
      processSnapshotsPersistentVolumeClaim storage cr' := by
  simp only [processSnapshotsPersistentVolumeClaim, hcr.name, hcr.namespaceName, hcr.global]

section Vault

variable {cr cr' : ZooKeeperService}

/-- Equal views come from two resources without Vault, or from two sections that agree
on what a pod is told. -/
theorem vault?_cases (h : cr.vaultView = cr'.vaultView) :
    (cr.vault? = none ∧ cr'.vault? = none) ∨
      ∃ v v', cr.vault? = some v ∧ cr'.vault? = some v' ∧ v.view = v'.view := by
  rw [ZooKeeperService.vaultView, ZooKeeperService.vaultView] at h
  rcases hv : cr.vault? with - | v <;> rcases hv' : cr'.vault? with - | v' <;>
    rw [hv, hv'] at h <;> simp_all

/-- What is computed from the view alone is the same for equal views. -/
theorem vault?_map_congr {α : Type} {f : VaultSecretManagement → α}
    (hf : ∀ v v', v.view = v'.view → f v = f v') (h : cr.vaultView = cr'.vaultView) :
    cr.vault?.map f = cr'.vault?.map f := by
  rcases vault?_cases h with ⟨hv, hv'⟩ | ⟨v, v', hv, hv', hview⟩
  · rw [hv, hv']
  · rw [hv, hv', Option.map_some, Option.map_some, hf v v' hview]

/-- What is read of the Vault section is its view. -/
theorem vault?_elim_congr {α : Type} {f : VaultSecretManagement → α}
    (hf : ∀ v v', v.view = v'.view → f v = f v') (h : cr.vaultView = cr'.vaultView) (a : α) :
    cr.vault?.elim a f = cr'.vault?.elim a f := by
  rcases vault?_cases h with ⟨hv, hv'⟩ | ⟨v, v', hv, hv', hview⟩
  · rw [hv, hv']
  · rw [hv, hv', Option.elim_some, Option.elim_some, hf v v' hview]

theorem vault?_isSome_congr (h : cr.vaultView = cr'.vaultView) :
    cr.vault?.isSome = cr'.vault?.isSome := by
  rw [← Option.isSome_map (f := VaultSecretManagement.view),
    ← Option.isSome_map (f := VaultSecretManagement.view)]
  exact congrArg Option.isSome h

variable {v v' : VaultSecretManagement}

/-- The parts of the pods that come from the Vault section depend on its view. -/
theorem getVaultInitContainer_congr (h : v.view = v'.view) :
    getVaultInitContainer v = getVaultInitContainer v' := by
  obtain ⟨-, -, -, himage⟩ := VaultView.mk.inj h
  rw [getVaultInitContainer, getVaultInitContainer, himage]

theorem getVaultSecretEnvVarSource_congr (h : v.view = v'.view) (serviceName : String) :
    getVaultSecretEnvVarSource serviceName v = getVaultSecretEnvVarSource serviceName v' := by
  obtain ⟨hpath, -, -, -⟩ := VaultView.mk.inj h
  funext namespaceName secret key
  simp only [getVaultSecretEnvVarSource, hpath]

theorem getVaultConnectionEnvVars_congr (h : v.view = v'.view) (serviceName : String) :
    getVaultConnectionEnvVars serviceName v = getVaultConnectionEnvVars serviceName v' := by
  obtain ⟨-, hurl, hmethod, -⟩ := VaultView.mk.inj h
  funext namespaceName
  rw [getVaultConnectionEnvVars, getVaultConnectionEnvVars, hurl, hmethod]

/-- The path can be read off a reference to a secret. -/
theorem getVaultSecretEnvVarSource_inj {serviceName namespaceName secret key : String}
    (h : getVaultSecretEnvVarSource serviceName v namespaceName secret key =
      getVaultSecretEnvVarSource serviceName v' namespaceName secret key) : v.path = v'.path := by
  simpa only [getVaultSecretEnvVarSource, String.append_left_inj, String.append_right_inj] using h

/-- What the init container, a secret reference and the connection variables give away
is the whole view. -/
theorem view_eq {serviceName namespaceName secret key : String}
    (hinit : getVaultInitContainer v = getVaultInitContainer v')
    (hsource : getVaultSecretEnvVarSource serviceName v namespaceName secret key =
      getVaultSecretEnvVarSource serviceName v' namespaceName secret key)
    (hurl : v.url = v'.url) (hmethod : v.method = v'.method) : v.view = v'.view := by
  have himage : v.dockerImage = v'.dockerImage := congrArg Container.image hinit
  rw [VaultSecretManagement.view, VaultSecretManagement.view, himage,
    getVaultSecretEnvVarSource_inj hsource, hurl, hmethod]

/-- The variables for the connection determine the part of the view they come from. -/
theorem getVaultConnectionEnvVars_inj {serviceName namespaceName : String}
    (h : getVaultConnectionEnvVars serviceName v namespaceName =
      getVaultConnectionEnvVars serviceName v' namespaceName) :
    v.url = v'.url ∧ v.method = v'.method := by
  simp only [getVaultConnectionEnvVars, List.cons.injEq, EnvVar.mk.injEq] at h
  exact ⟨h.2.1.2.1, h.2.2.1.2.1⟩

end Vault

/-! ## ZooKeeper -/

namespace ZooKeeperResourceProvider

/-- Two providers that build the same Services, claims, ServiceAccount and Deployments. -/
structure SameObjects (p p' : ZooKeeperResourceProvider) : Prop where
  /-- the claim for snapshots, whether it is built or looked up -/
  snapshotsClaim : processSnapshotsPersistentVolumeClaim p.spec.snapshotStorage p.cr =
    processSnapshotsPersistentVolumeClaim p'.spec.snapshotStorage p'.cr
  /-- the client Service -/
  clientService : p.newZooKeeperClientServiceForCR = p'.newZooKeeperClientServiceForCR
  /-- the domain Service -/
  domainService : p.newZooKeeperDomainServiceForCR = p'.newZooKeeperDomainServiceForCR
  /-- the Services of the servers -/
  serverService : ∀ serverId, 1 ≤ serverId →
    p.newZooKeeperServerServiceForCR serverId = p'.newZooKeeperServerServiceForCR serverId
  /-- the claims of the servers -/
  claim : ∀ serverId, 1 ≤ serverId → p.newZooKeeperPersistentVolumeClaimForCR serverId =
    p'.newZooKeeperPersistentVolumeClaimForCR serverId
  /-- the ServiceAccount -/
  serviceAccount : newServiceAccount p.getServiceAccountName p.cr.namespaceName =
    newServiceAccount p'.getServiceAccountName p'.cr.namespaceName
  /-- the Deployments of the servers -/
  deployment : ∀ serverId, 1 ≤ serverId →
    p.newServerDeploymentForCR serverId = p'.newServerDeploymentForCR serverId

section Congruence

variable {cr cr' : ZooKeeperService} {z : ZooKeeper} (hz : cr.spec.zooKeeper = some z)
  (hz' : cr'.spec.zooKeeper = some z)

/-- The credentials of the servers: references with Vault, and otherwise Secrets. -/
theorem getSecretEnvs_congr (hcr : SameGlobal cr cr') (hv : cr.vaultView = cr'.vaultView) :
    (mk cr z hz).getSecretEnvs = (mk cr' z hz').getSecretEnvs := by
  simp only [getSecretEnvs, getServiceName, hcr.name, hcr.namespaceName]
  refine vault?_elim_congr (fun v v' h => ?_) hv []
  rw [getVaultSecretEnvVarSource_congr h]

/-- The environment of a server depends on the views and the global section. -/
theorem serverEnvVars_congr (hcr : SameGlobal cr cr') (hv : cr.vaultView = cr'.vaultView)
    (global : Global) (serverId : ℕ) :
    (mk cr z hz).serverEnvVars global serverId = (mk cr' z hz').serverEnvVars global serverId := by
  have hconnection := vault?_elim_congr (fun v v' h =>
    congrFun (getVaultConnectionEnvVars_congr h cr'.name) cr'.namespaceName) hv []
  have hsecret := getSecretEnvs_congr hz hz' hcr hv
  simp only [serverEnvVars, hsecret, mountsSecret, usesDiagnostics, getServiceName, hcr.name,
    hcr.namespaceName, hconnection, vault?_isSome_congr hv]
  rfl

/-- And so does its Deployment. -/
theorem newServerDeploymentForCR_congr (hcr : SameGlobal cr cr')
    (hv : cr.vaultView = cr'.vaultView) (serverId : ℕ) :
    (mk cr z hz).newServerDeploymentForCR serverId =
      (mk cr' z hz').newServerDeploymentForCR serverId := by
  have hinit := vault?_map_congr (fun _ _ => getVaultInitContainer_congr) hv
  have henv := serverEnvVars_congr hz hz' hcr hv
  simp only [newServerDeploymentForCR, getZooKeeperAffinityRules, serverLabels, serverContainer,
    getZooKeeperCustomLabels, serverVolumes, serverVolumeMounts, healthProbe, getExecCommand,
    getCommand, getArgs, getInitContainers, mountsSecret, dataVolumeSource, backupVolumeSource,
    getServiceAccountName, getServiceName, henv, hinit, hcr.name, hcr.namespaceName, hcr.global,
    vault?_isSome_congr hv]
  rfl

/-- The other objects of ZooKeeper do not depend on Vault at all. -/
theorem sameObjects_of_deployment (hcr : SameGlobal cr cr')
    (h : ∀ serverId, 1 ≤ serverId → (mk cr z hz).newServerDeploymentForCR serverId =
      (mk cr' z hz').newServerDeploymentForCR serverId) :
    SameObjects (mk cr z hz) (mk cr' z hz') where
  snapshotsClaim := processSnapshotsPersistentVolumeClaim_congr hcr _
  clientService := by
    simp only [newZooKeeperClientServiceForCR, hcr.name, hcr.namespaceName, hcr.global]
  domainService := by
    simp only [newZooKeeperDomainServiceForCR, hcr.name, hcr.namespaceName, hcr.global]
  serverService serverId _ := by
    simp only [newZooKeeperServerServiceForCR, hcr.name, hcr.namespaceName, hcr.global]
  claim serverId _ := by
    simp only [newZooKeeperPersistentVolumeClaimForCR, storageClassName, hcr.name,
      hcr.namespaceName, hcr.global]
  serviceAccount := by
    simp only [getServiceAccountName, getServiceName, hcr.name, hcr.namespaceName]
  deployment := h

end Congruence

/-- The Deployment of the first server can always be built, if there is a global
section. -/
theorem newServerDeploymentForCR_one (p : ZooKeeperResourceProvider) {global : Global}
    (hglobal : p.cr.spec.global = some global) :
    ∃ d, p.newServerDeploymentForCR 1 = .ok d ∧ d.podSpec.initContainers = p.getInitContainers ∧
      d.podSpec.containers = [p.serverContainer global 1] := by
  have haffinity : ∃ affinity, p.getZooKeeperAffinityRules 1 = .ok affinity := by
    rw [getZooKeeperAffinityRules]
    rcases p.spec.storage.nodes with - | ⟨node, nodes⟩
    · exact ⟨_, rfl⟩
    · exact ⟨_, rfl⟩
  obtain ⟨affinity, haffinity⟩ := haffinity
  rw [newServerDeploymentForCR, hglobal, haffinity]
  exact ⟨_, rfl, rfl, rfl⟩

/-- The Deployment of a server tells which view of Vault it was built with. -/
theorem vaultView_of_deployment {cr cr' : ZooKeeperService} {z : ZooKeeper}
    {hz : cr.spec.zooKeeper = some z} {hz' : cr'.spec.zooKeeper = some z} {global : Global}
    (hcr : SameGlobal cr cr') (hglobal : cr.spec.global = some global)
    (h : (mk cr z hz).newServerDeploymentForCR 1 = (mk cr' z hz').newServerDeploymentForCR 1) :
    cr.vaultView = cr'.vaultView := by
  obtain ⟨d, hd, hinit, hcontainers⟩ := newServerDeploymentForCR_one (mk cr z hz) hglobal
  obtain ⟨d', hd', hinit', hcontainers'⟩ :=
    newServerDeploymentForCR_one (mk cr' z hz') (hcr.global ▸ hglobal)
  rw [hd, hd'] at h
  obtain rfl := Except.ok.inj h
  rw [hinit, getInitContainers, getInitContainers] at hinit'
  rw [hcontainers, List.cons.injEq] at hcontainers'
  have henv := congrArg Container.env hcontainers'.1
  rw [ZooKeeperService.vaultView, ZooKeeperService.vaultView]
  -- there is an init container exactly if Vault is on
  rcases hv : cr.vault? with - | v <;> rcases hv' : cr'.vault? with - | v' <;>
    simp only [hv, hv'] at hinit'
  · rfl
  · simp at hinit'
  · simp at hinit'
  · simp only [Option.map_some, Option.toList_some, List.cons.injEq, and_true] at hinit'
    have hdiagnostics : (mk cr z hz).usesDiagnostics = (mk cr' z hz').usesDiagnostics := rfl
    simp only [serverContainer, buildEnvs, serverEnvVars, getSecretEnvs, mountsSecret,
      hdiagnostics, getServiceName, hcr.name, hcr.namespaceName, hv, hv', Option.elim_some,
      Option.isSome_some, Bool.not_true, Bool.false_and, List.append_assoc, List.cons_append,
      List.nil_append, List.cons.injEq,
      EnvVar.mk.injEq, List.append_cancel_left_eq, List.append_cancel_right_eq, true_and] at henv
    obtain ⟨hurl, hmethod⟩ := getVaultConnectionEnvVars_inj henv.2.2.2.2.2
    rw [Option.map_some, Option.map_some, view_eq hinit' henv.1.1 hurl hmethod]

/-- **What the objects of ZooKeeper depend on.** -/
theorem sameObjects_iff {cr cr' : ZooKeeperService} {z : ZooKeeper}
    (hz : cr.spec.zooKeeper = some z) (hz' : cr'.spec.zooKeeper = some z)
    (hcr : SameGlobal cr cr') :
    SameObjects (mk cr z hz) (mk cr' z hz') ↔
      cr.spec.global = none ∨ cr.vaultView = cr'.vaultView := by
  constructor
  · intro h
    rcases hglobal : cr.spec.global with - | global
    · exact .inl rfl
    · exact .inr (vaultView_of_deployment hcr hglobal (h.deployment 1 le_rfl))
  · intro h
    refine sameObjects_of_deployment hz hz' hcr fun serverId _ => ?_
    rcases h with hglobal | hv
    · rw [newServerDeploymentForCR, newServerDeploymentForCR, ← hcr.global, hglobal]
      rfl
    · exact newServerDeploymentForCR_congr hz hz' hcr hv serverId

end ZooKeeperResourceProvider

/-! ## Monitoring -/

namespace MonitoringResourceProvider

/-- Two providers that build the same Service, ServiceAccount and Deployment. -/
structure SameObjects (p p' : MonitoringResourceProvider) : Prop where
  /-- the Service -/
  clientService : p.newMonitoringClientService = p'.newMonitoringClientService
  /-- the ServiceAccount -/
  serviceAccount : newServiceAccount p.getServiceAccountName p.cr.namespaceName =
    newServiceAccount p'.getServiceAccountName p'.cr.namespaceName
  /-- the Deployment -/
  deployment : p.newMonitoringDeployment = p'.newMonitoringDeployment

section View

variable (p : MonitoringResourceProvider)

theorem backupDaemonTls_eq : p.backupDaemonTls = p.cr.backupDaemonView.bind (·.tls) := by
  rw [backupDaemonTls, ZooKeeperService.backupDaemonView]
  cases p.cr.spec.backupDaemon <;> rfl

theorem getMonitoringEnvironmentVariables_eq (global : Global) :
    p.getMonitoringEnvironmentVariables global =
      [namespaceEnv "OS_PROJECT",
       { name := "ZOOKEEPER_HOST", value := p.spec.zooKeeperHost },
       { name := "ZOOKEEPER_ENABLE_SSL", value := toString global.zooKeeperSsl.enabled }] ++
      (p.cr.backupDaemonView.elim [] fun view =>
        [{ name := "ZOOKEEPER_BACKUP_DAEMON_HOST", value := p.spec.zooKeeperBackupDaemonHost },
         { name := "S3_ENABLED", value := toString view.s3Enabled }]) := by
  rw [getMonitoringEnvironmentVariables, ZooKeeperService.backupDaemonView]
  cases p.cr.spec.backupDaemon <;> rfl

/-- The Secrets of the pod, when they are mounted, in terms of the view. -/
theorem projectedSources_eq (hv : p.cr.vault? = none) :
    p.projectedSources =
      (if p.spec.secretName ≠ "" then
        [⟨p.spec.secretName,
          [⟨"zookeeper-client-username", "ZOOKEEPER_CLIENT_USERNAME"⟩,
           ⟨"zookeeper-client-password", "ZOOKEEPER_CLIENT_PASSWORD"⟩]⟩]
       else []) ++
      (p.cr.backupDaemonView.elim [] fun view =>
        if view.secretName ≠ "" then
          [⟨view.secretName,
            [⟨"username", "ZOOKEEPER_BACKUP_DAEMON_USERNAME"⟩,
             ⟨"password", "ZOOKEEPER_BACKUP_DAEMON_PASSWORD"⟩]⟩]
        else []) := by
  rw [projectedSources, ZooKeeperService.backupDaemonView, hv]
  cases p.cr.spec.backupDaemon <;> rfl

end View

section Congruence

variable {cr cr' : ZooKeeperService} {m : Monitoring} (hm : cr.spec.monitoring = some m)
  (hm' : cr'.spec.monitoring = some m)

theorem envVars_congr (hcr : SameGlobal cr cr') (hv : cr.vaultView = cr'.vaultView)
    (hb : cr.backupDaemonView = cr'.backupDaemonView) (global : Global) :
    (mk cr m hm).envVars global = (mk cr' m hm').envVars global := by
  have hconnection := vault?_elim_congr (fun v v' h =>
    congrFun (getVaultConnectionEnvVars_congr h (cr'.name ++ "-monitoring")) cr'.namespaceName)
      hv []
  have hcredentials : (mk cr m hm).getZooKeeperCredentialsEnvs =
      (mk cr' m hm').getZooKeeperCredentialsEnvs := by
    simp only [getZooKeeperCredentialsEnvs, hcr.name, hcr.namespaceName]
    refine vault?_elim_congr (fun v v' h => ?_) hv []
    rw [getVaultSecretEnvVarSource_congr h]
  simp only [envVars, getMonitoringEnvironmentVariables_eq, backupDaemonTls_eq, hcredentials,
    getServiceName, hcr.name, hcr.namespaceName, hconnection, hb, vault?_isSome_congr hv]

/-- Nothing or the same is mounted. -/
theorem projectedSources_congr (hv : cr.vaultView = cr'.vaultView)
    (hb : cr.backupDaemonView = cr'.backupDaemonView) :
    (cr.vault?.isSome ∧ cr'.vault?.isSome) ∨
      cr.vault? = none ∧ cr'.vault? = none ∧
        (mk cr m hm).projectedSources = (mk cr' m hm').projectedSources := by
  rcases vault?_cases hv with ⟨h, h'⟩ | ⟨v, v', h, h', -⟩
  · refine .inr ⟨h, h', ?_⟩
    rw [projectedSources_eq _ h, projectedSources_eq _ h']
    simp only [hb]
  · exact .inl ⟨by rw [h]; rfl, by rw [h']; rfl⟩

/-- The Deployment of Monitoring depends on the view of the backup daemon too. -/
theorem newMonitoringDeployment_congr (hcr : SameGlobal cr cr')
    (hv : cr.vaultView = cr'.vaultView) (hb : cr.backupDaemonView = cr'.backupDaemonView) :
    (mk cr m hm).newMonitoringDeployment = (mk cr' m hm').newMonitoringDeployment := by
  have hinit := vault?_map_congr (fun _ _ => getVaultInitContainer_congr) hv
  have henv := envVars_congr hm hm' hcr hv hb
  have hmounts : ∀ global, (mk cr m hm).volumes global = (mk cr' m hm').volumes global ∧
      (mk cr m hm).volumeMounts global = (mk cr' m hm').volumeMounts global := by
    intro global
    rcases projectedSources_congr hm hm' hv hb with ⟨h, h'⟩ | ⟨h, h', hsources⟩
    · simp only [volumes, volumeMounts, backupDaemonTls_eq, getServiceName, hcr.name, hb, h, h',
        true_or, if_true, and_self]
    · simp only [volumes, volumeMounts, backupDaemonTls_eq, getServiceName, hcr.name, hb, h, h',
        hsources, and_self]
  simp only [newMonitoringDeployment, container, getMonitoringCustomLabels, deploymentLabels,
    getMonitoringLabels, getMonitoringSelectorLabels, getCommand, getArgs, getInitContainers,
    getServiceAccountName, getServiceName, henv, hinit, hmounts, hcr.name, hcr.namespaceName,
    hcr.global, vault?_isSome_congr hv]

end Congruence

section Reading

variable (p : MonitoringResourceProvider) (global : Global)

/-- The volume with the Secrets of the pod. -/
theorem find_podSecrets (hv : p.cr.vault? = none) :
    (p.volumes global).find? (·.name = "monitoring-pod-secrets") =
      if p.projectedSources = [] then none
      else some (newPodSecretsProjectedVolume "monitoring-pod-secrets" p.projectedSources) := by
  by_cases hsources : p.projectedSources = [] <;> by_cases hssl : global.usesSsl = true <;>
    rcases htls : p.backupDaemonTls with - | secretName <;>
    simp [volumes, hv, hsources, hssl, htls, getTmpVolume, newPodSecretsProjectedVolume]

/-- The volume with the certificates of the backup daemon. -/
theorem find_tls :
    (p.volumes global).find? (·.name = "backup-daemon-tls-certs") =
      p.backupDaemonTls.map fun secretName => ⟨"backup-daemon-tls-certs", .secret secretName⟩ := by
  by_cases hv : p.cr.vault?.isSome = true <;> by_cases hsources : p.projectedSources = [] <;>
    by_cases hssl : global.usesSsl = true <;>
      rcases htls : p.backupDaemonTls with - | secretName <;>
    simp [volumes, hv, hsources, hssl, htls, getTmpVolume, newPodSecretsProjectedVolume]

/-- Every source of the pod's Secrets is mounted. -/
theorem filter_projectedSources :
    (p.projectedSources.filter fun s => s.name ≠ "" && !s.items.isEmpty) = p.projectedSources := by
  rw [List.filter_eq_self]
  intro s hs
  rw [projectedSources, List.mem_append] at hs
  rcases hs with hs | hs
  · by_cases hname : p.spec.secretName = "" <;> simp_all
  · rcases hb : p.cr.spec.backupDaemon with - | b
    · simp [hb] at hs
    · by_cases hname : b.secretName = "" <;> simp_all

/-- The Deployment can always be built, if there is a global section. -/
theorem newMonitoringDeployment_ok {global : Global} (hglobal : p.cr.spec.global = some global) :
    ∃ d, p.newMonitoringDeployment = .ok d ∧ d.podSpec.initContainers = p.getInitContainers ∧
      d.podSpec.containers = [p.container global] ∧ d.podSpec.volumes = p.volumes global := by
  rw [newMonitoringDeployment, hglobal]
  exact ⟨_, rfl, rfl, rfl, rfl⟩

end Reading

section Environment

variable (p : MonitoringResourceProvider) (global : Global)

/-- What the environment says about S3. -/
theorem find_s3 : (p.envVars global).find? (·.name = "S3_ENABLED") =
    p.cr.backupDaemonView.map fun view =>
      { name := "S3_ENABLED", value := toString view.s3Enabled } := by
  rcases hv : p.cr.vault? with - | v <;> rcases hb : p.cr.backupDaemonView with - | view <;>
    by_cases htls : p.backupDaemonTls.isSome = true <;>
    simp [envVars, getMonitoringEnvironmentVariables_eq, getZooKeeperCredentialsEnvs,
      getVaultConnectionEnvVars, namespaceEnv, hv, hb, htls]

/-- What the environment says about Vault. -/
theorem find_vault {v : VaultSecretManagement} (hv : p.cr.vault? = some v) :
    (p.envVars global).find? (·.name = "ZOOKEEPER_CLIENT_USERNAME") =
      some { name := "ZOOKEEPER_CLIENT_USERNAME",
             value := getVaultSecretEnvVarSource p.cr.name v p.cr.namespaceName
               "client-credentials" "username" } ∧
    (p.envVars global).find? (·.name = "VAULT_ADDR") =
      some { name := "VAULT_ADDR", value := v.url } ∧
    (p.envVars global).find? (·.name = "VAULT_PATH") =
      some { name := "VAULT_PATH", value := v.method } := by
  rcases hb : p.cr.backupDaemonView with - | view <;>
    simp [envVars, getMonitoringEnvironmentVariables_eq, getZooKeeperCredentialsEnvs,
      getVaultConnectionEnvVars, namespaceEnv, hv, hb]

end Environment

section Views

variable {cr cr' : ZooKeeperService} {m : Monitoring} {hm : cr.spec.monitoring = some m}
  {hm' : cr'.spec.monitoring = some m} {global : Global}

/-- From the environment of the agent it can be told whether the daemon uses S3. -/
theorem s3Enabled_of_envVars
    (h : (mk cr m hm).envVars global = (mk cr' m hm').envVars global) :
    cr.backupDaemonView.map (·.s3Enabled) = cr'.backupDaemonView.map (·.s3Enabled) := by
  have h' := (find_s3 (mk cr m hm) global).symm.trans (h ▸ find_s3 (mk cr' m hm') global)
  have htoString : ∀ b b' : Bool, toString b = toString b' → b = b' := by decide
  rcases hb : cr.backupDaemonView with - | b <;> rcases hb' : cr'.backupDaemonView with - | b' <;>
    simp only [hb, hb', Option.map_some, Option.map_none, Option.some.injEq, EnvVar.mk.injEq,
      reduceCtorEq] at h' ⊢
  exact htoString _ _ h'.2.1

/-- From its volumes it can be told which certificates the daemon has. -/
theorem tls_of_volumes (h : (mk cr m hm).volumes global = (mk cr' m hm').volumes global) :
    cr.backupDaemonView.bind (·.tls) = cr'.backupDaemonView.bind (·.tls) := by
  have h' := (find_tls (mk cr m hm) global).symm.trans (h ▸ find_tls (mk cr' m hm') global)
  rw [backupDaemonTls_eq, backupDaemonTls_eq] at h'
  refine Option.map_injective (fun a b hab => ?_) h'
  exact VolumeSource.secret.inj (Volume.mk.inj hab).2

/-- Without Vault the volumes also tell which Secrets are projected. -/
theorem projectedSources_of_volumes (hv : cr.vault? = none) (hv' : cr'.vault? = none)
    (h : (mk cr m hm).volumes global = (mk cr' m hm').volumes global) :
    (mk cr m hm).projectedSources = (mk cr' m hm').projectedSources := by
  have h' := (find_podSecrets (mk cr m hm) global hv).symm.trans
    (h ▸ find_podSecrets (mk cr' m hm') global hv')
  by_cases hs : (mk cr m hm).projectedSources = [] <;>
    by_cases hs' : (mk cr' m hm').projectedSources = []
  · rw [hs, hs']
  · rw [if_pos hs, if_neg hs'] at h'
    cases h'
  · rw [if_neg hs, if_pos hs'] at h'
    cases h'
  · rw [if_neg hs, if_neg hs', newPodSecretsProjectedVolume, newPodSecretsProjectedVolume,
      filter_projectedSources, filter_projectedSources] at h'
    exact (VolumeSource.projected.inj (Volume.mk.inj (Option.some.inj h')).2).2

theorem secretName_of_vault {view : BackupDaemonView} (hv : cr.vault?.isSome = true)
    (hview : cr.backupDaemonView = some view) : view.secretName = "" := by
  rw [ZooKeeperService.backupDaemonView, hv, Option.map_eq_some_iff] at hview
  obtain ⟨b, -, rfl⟩ := hview
  rfl

/-- So they tell the name of the daemon's Secret. -/
theorem secretName_of_volumes {b b' : BackupDaemonView} (hv : cr.vaultView = cr'.vaultView)
    (hb : cr.backupDaemonView = some b) (hb' : cr'.backupDaemonView = some b')
    (h : (mk cr m hm).volumes global = (mk cr' m hm').volumes global) :
    b.secretName = b'.secretName := by
  rcases vault?_cases hv with ⟨hv, hv'⟩ | ⟨v, v', hv, hv', -⟩
  · have hsources := projectedSources_of_volumes hv hv' h
    rw [projectedSources_eq _ hv, projectedSources_eq _ hv'] at hsources
    simp only [hb, hb', Option.elim_some, List.append_cancel_left_eq] at hsources
    by_cases hname : b.secretName = "" <;> by_cases hname' : b'.secretName = "" <;> simp_all
  · rw [secretName_of_vault (by rw [hv]; rfl) hb, secretName_of_vault (by rw [hv']; rfl) hb']

/-- The containers determine the view of the Vault section. -/
theorem vaultView_of_container (hcr : SameGlobal cr cr')
    (hinit : (mk cr m hm).getInitContainers = (mk cr' m hm').getInitContainers)
    (henv : (mk cr m hm).envVars global = (mk cr' m hm').envVars global) :
    cr.vaultView = cr'.vaultView := by
  rw [getInitContainers, getInitContainers] at hinit
  rw [ZooKeeperService.vaultView, ZooKeeperService.vaultView]
  rcases hv : cr.vault? with - | v <;> rcases hv' : cr'.vault? with - | v' <;>
    simp only [hv, hv'] at hinit
  · rfl
  · simp at hinit
  · simp at hinit
  · simp only [Option.map_some, Option.toList_some, List.cons.injEq, and_true] at hinit
    obtain ⟨huser, haddr, hpath⟩ := find_vault (mk cr m hm) global hv
    obtain ⟨huser', haddr', hpath'⟩ := find_vault (mk cr' m hm') global hv'
    rw [henv] at huser haddr hpath
    simp only [huser, haddr, hpath, hcr.name, hcr.namespaceName, Option.some.injEq,
      EnvVar.mk.injEq, true_and, and_true] at huser' haddr' hpath'
    rw [Option.map_some, Option.map_some, view_eq hinit huser' haddr' hpath']

/-- The Deployment of the agent tells which views it was built with. -/
theorem views_of_deployment (hcr : SameGlobal cr cr') (hglobal : cr.spec.global = some global)
    (h : (mk cr m hm).newMonitoringDeployment = (mk cr' m hm').newMonitoringDeployment) :
    cr.vaultView = cr'.vaultView ∧ cr.backupDaemonView = cr'.backupDaemonView := by
  obtain ⟨d, hd, hinit, hcontainers, hvolumes⟩ := newMonitoringDeployment_ok (mk cr m hm) hglobal
  obtain ⟨d', hd', hinit', hcontainers', hvolumes'⟩ :=
    newMonitoringDeployment_ok (mk cr' m hm') (hcr.global ▸ hglobal)
  rw [hd, hd'] at h
  obtain rfl := Except.ok.inj h
  rw [hvolumes] at hvolumes'
  rw [hcontainers, List.cons.injEq] at hcontainers'
  have henv : (mk cr m hm).envVars global = (mk cr' m hm').envVars global :=
    congrArg Container.env hcontainers'.1
  have hv := vaultView_of_container hcr (hinit.symm.trans hinit') henv
  refine ⟨hv, ?_⟩
  have hs3 := s3Enabled_of_envVars henv
  have htls := tls_of_volumes hvolumes'
  rcases hb : cr.backupDaemonView with - | b <;> rcases hb' : cr'.backupDaemonView with - | b' <;>
    simp only [hb, hb', Option.map_some, Option.map_none, Option.some.injEq, reduceCtorEq,
      Option.bind_some, Option.bind_none] at hs3 htls
  · rfl
  · have hname := secretName_of_volumes hv hb hb' hvolumes'
    obtain ⟨s3, name, tls⟩ := b
    obtain ⟨s3', name', tls'⟩ := b'
    rw [show s3 = s3' from hs3, show name = name' from hname, show tls = tls' from htls]

end Views

/-- **What the objects of the monitoring agent depend on.** -/
theorem sameObjects_iff {cr cr' : ZooKeeperService} {m : Monitoring}
    (hm : cr.spec.monitoring = some m) (hm' : cr'.spec.monitoring = some m)
    (hcr : SameGlobal cr cr') :
    SameObjects (mk cr m hm) (mk cr' m hm') ↔ cr.spec.global = none ∨
      cr.vaultView = cr'.vaultView ∧ cr.backupDaemonView = cr'.backupDaemonView := by
  constructor
  · intro h
    rcases hglobal : cr.spec.global with - | global
    · exact .inl rfl
    · exact .inr (views_of_deployment hcr hglobal h.deployment)
  · intro h
    constructor
    · simp only [newMonitoringClientService, getMonitoringLabels, getMonitoringSelectorLabels,
        getServiceName, hcr.name, hcr.namespaceName, hcr.global]
    · simp only [getServiceAccountName, getServiceName, hcr.name, hcr.namespaceName]
    · rcases h with hglobal | ⟨hv, hb⟩
      · rw [newMonitoringDeployment, newMonitoringDeployment, ← hcr.global, hglobal]
        rfl
      · exact newMonitoringDeployment_congr hm hm' hcr hv hb

end MonitoringResourceProvider

/-! ## Backup daemon -/

namespace BackupDaemonResourceProvider

/-- Two providers that build the same claim, Service, ServiceAccount and Deployments. -/
structure SameObjects (p p' : BackupDaemonResourceProvider) : Prop where
  /-- the claim for backups, whether it is built or looked up -/
  backupsClaim : processSnapshotsPersistentVolumeClaim p.spec.backupStorage p.cr =
    processSnapshotsPersistentVolumeClaim p'.spec.backupStorage p'.cr
  /-- the Service -/
  clientService : p.newBackupDaemonClientService = p'.newBackupDaemonClientService
  /-- the ServiceAccount -/
  serviceAccount : newServiceAccount p.getServiceAccountName p.cr.namespaceName =
    newServiceAccount p'.getServiceAccountName p'.cr.namespaceName
  /-- the Deployment, with the S3 aliases and without -/
  deployment : ∀ s3AliasesEnabled,
    p.newBackupDaemonDeployment s3AliasesEnabled = p'.newBackupDaemonDeployment s3AliasesEnabled

section Congruence

variable {cr cr' : ZooKeeperService} {b : BackupDaemon} (hb : cr.spec.backupDaemon = some b)
  (hb' : cr'.spec.backupDaemon = some b)

theorem settingsEnvVars_congr (hcr : SameGlobal cr cr') (global : Global) :
    (mk cr b hb).settingsEnvVars global = (mk cr' b hb').settingsEnvVars global := by
  simp only [settingsEnvVars, s3?, getServiceName, hcr.name]

theorem envVars_congr (hcr : SameGlobal cr cr') (hv : cr.vaultView = cr'.vaultView)
    (global : Global) (s3AliasesEnabled : Bool) :
    (mk cr b hb).envVars global s3AliasesEnabled =
    (mk cr' b hb').envVars global s3AliasesEnabled := by
  have hconnection := vault?_elim_congr (fun v v' h => congrFun
    (getVaultConnectionEnvVars_congr h (cr'.name ++ "-backup-daemon")) cr'.namespaceName) hv []
  have hcredentials : (mk cr b hb).getZooKeeperCredentialsEnvs =
      (mk cr' b hb').getZooKeeperCredentialsEnvs := by
    simp only [getZooKeeperCredentialsEnvs, getServiceName, hcr.name, hcr.namespaceName]
    refine vault?_elim_congr (fun v v' h => ?_) hv []
    rw [getVaultSecretEnvVarSource_congr h, getVaultSecretEnvVarSource_congr h]
  simp only [envVars, settingsEnvVars_congr hb hb' hcr, hcredentials, getServiceName, hcr.name,
    hcr.namespaceName, hconnection, vault?_isSome_congr hv]
  rfl

/-- Apart from its own section the Deployment of the daemon depends on the global section and on the
view of the Vault section. -/
theorem newBackupDaemonDeployment_congr (hcr : SameGlobal cr cr')
    (hv : cr.vaultView = cr'.vaultView) (s3AliasesEnabled : Bool) :
    (mk cr b hb).newBackupDaemonDeployment s3AliasesEnabled =
      (mk cr' b hb').newBackupDaemonDeployment s3AliasesEnabled := by
  have hinit := vault?_map_congr (fun _ _ => getVaultInitContainer_congr) hv
  have hsources : (mk cr b hb).projectedSources = (mk cr' b hb').projectedSources := rfl
  have haffinity : (mk cr b hb).getBackupDaemonAffinityRules =
    (mk cr' b hb').getBackupDaemonAffinityRules := rfl
  simp only [newBackupDaemonDeployment, container, getBackupDaemonCustomLabels, deploymentLabels,
    getBackupDaemonLabels, getBackupDaemonSelectorLabels, getCommand, getArgs, getInitContainers,
    volumes, volumeMounts, hsources, backupVolumeSource, haffinity, getServiceAccountName,
    getS3AliasesSecretName, getServiceName, envVars_congr hb hb' hcr hv, hinit, hcr.name,
    hcr.namespaceName, hcr.global, vault?_isSome_congr hv]
  rfl

end Congruence

/-- The Deployment can always be built, if there is a global section. -/
theorem newBackupDaemonDeployment_ok (p : BackupDaemonResourceProvider) {global : Global}
    (hglobal : p.cr.spec.global = some global) (s3AliasesEnabled : Bool) :
    ∃ d, p.newBackupDaemonDeployment s3AliasesEnabled = .ok d ∧
      d.podSpec.initContainers = p.getInitContainers ∧
      d.podSpec.containers = [p.container global s3AliasesEnabled] := by
  rw [newBackupDaemonDeployment, hglobal]
  exact ⟨_, rfl, rfl, rfl⟩

/-- The Deployment of the daemon tells which view of Vault it was built with. -/
theorem vaultView_of_deployment {cr cr' : ZooKeeperService} {b : BackupDaemon}
    {hb : cr.spec.backupDaemon = some b} {hb' : cr'.spec.backupDaemon = some b} {global : Global}
    (hcr : SameGlobal cr cr') (hglobal : cr.spec.global = some global)
    (h : (mk cr b hb).newBackupDaemonDeployment false =
      (mk cr' b hb').newBackupDaemonDeployment false) :
    cr.vaultView = cr'.vaultView := by
  obtain ⟨d, hd, hinit, hcontainers⟩ := newBackupDaemonDeployment_ok (mk cr b hb) hglobal false
  obtain ⟨d', hd', hinit', hcontainers'⟩ :=
    newBackupDaemonDeployment_ok (mk cr' b hb') (hcr.global ▸ hglobal) false
  rw [hd, hd'] at h
  obtain rfl := Except.ok.inj h
  rw [hinit, getInitContainers, getInitContainers] at hinit'
  rw [hcontainers, List.cons.injEq] at hcontainers'
  have henv : (mk cr b hb).envVars global false = (mk cr' b hb').envVars global false :=
    congrArg Container.env hcontainers'.1
  rw [ZooKeeperService.vaultView, ZooKeeperService.vaultView]
  -- there is an init container exactly if Vault is on
  rcases hv : cr.vault? with - | v <;> rcases hv' : cr'.vault? with - | v' <;>
    simp only [hv, hv'] at hinit'
  · rfl
  · simp at hinit'
  · simp at hinit'
  · simp only [Option.map_some, Option.toList_some, List.cons.injEq, and_true] at hinit'
    have hssl : (mk cr b hb).usesBackupSsl = (mk cr' b hb').usesBackupSsl := rfl
    have hs3 : (mk cr b hb).usesS3Certificate = (mk cr' b hb').usesS3Certificate := rfl
    simp only [envVars, settingsEnvVars_congr hb hb' hcr, getZooKeeperCredentialsEnvs, hssl, hs3,
      getServiceName, hcr.name, hcr.namespaceName, hv, hv', Option.elim_some, Option.isSome_some,
      if_true, List.append_assoc, List.cons_append, List.nil_append, List.cons.injEq,
      EnvVar.mk.injEq, List.append_cancel_left_eq, List.append_cancel_right_eq, true_and] at henv
    obtain ⟨hurl, hmethod⟩ := getVaultConnectionEnvVars_inj henv.2.2.2.2
    rw [Option.map_some, Option.map_some, view_eq hinit' henv.1.1 hurl hmethod]

/-- **What the objects of the backup daemon depend on.** -/
theorem sameObjects_iff {cr cr' : ZooKeeperService} {b : BackupDaemon}
    (hb : cr.spec.backupDaemon = some b) (hb' : cr'.spec.backupDaemon = some b)
    (hcr : SameGlobal cr cr') :
    SameObjects (mk cr b hb) (mk cr' b hb') ↔
      cr.spec.global = none ∨ cr.vaultView = cr'.vaultView := by
  constructor
  · intro h
    rcases hglobal : cr.spec.global with - | global
    · exact .inl rfl
    · exact .inr (vaultView_of_deployment hcr hglobal (h.deployment false))
  · intro h
    constructor
    · exact processSnapshotsPersistentVolumeClaim_congr hcr _
    · simp only [newBackupDaemonClientService, getBackupDaemonLabels, getBackupDaemonPort,
        getBackupDaemonSelectorLabels, getServiceName, hcr.name, hcr.namespaceName, hcr.global]
    · simp only [getServiceAccountName, getServiceName, hcr.name, hcr.namespaceName]
    · intro s3AliasesEnabled
      rcases h with hglobal | hv
      · rw [newBackupDaemonDeployment, newBackupDaemonDeployment, ← hcr.global, hglobal]
        rfl
      · exact newBackupDaemonDeployment_congr hb hb' hcr hv s3AliasesEnabled

end BackupDaemonResourceProvider

/-! ## All components -/

/-- **What the hashes of a section and of `spec.global` leave out.** Of two custom
resources that agree on both, each component gets the same objects exactly when nothing
can be built at all or the views agree: of Vault, and for the monitoring agent also of
the backup daemon. -/
theorem builds_eq_iff {cr cr' : ZooKeeperService} (hcr : SameGlobal cr cr') :
    (∀ z hz hz', ZooKeeperResourceProvider.SameObjects ⟨cr, z, hz⟩ ⟨cr', z, hz'⟩ ↔
      cr.spec.global = none ∨ cr.vaultView = cr'.vaultView) ∧
    (∀ m hm hm', MonitoringResourceProvider.SameObjects ⟨cr, m, hm⟩ ⟨cr', m, hm'⟩ ↔
      cr.spec.global = none ∨
        cr.vaultView = cr'.vaultView ∧ cr.backupDaemonView = cr'.backupDaemonView) ∧
    (∀ b hb hb', BackupDaemonResourceProvider.SameObjects ⟨cr, b, hb⟩ ⟨cr', b, hb'⟩ ↔
      cr.spec.global = none ∨ cr.vaultView = cr'.vaultView) :=
  ⟨fun _ hz hz' => ZooKeeperResourceProvider.sameObjects_iff hz hz' hcr,
   fun _ hm hm' => MonitoringResourceProvider.sameObjects_iff hm hm' hcr,
   fun _ hb hb' => BackupDaemonResourceProvider.sameObjects_iff hb hb' hcr⟩

section Sample

/-- A monitoring section. -/
def sampleMonitoring : Monitoring where
  dockerImage := "monitoring"
  monitoringType := "prometheus"
  zooKeeperHost := "zookeeper"
  secretName := "monitoring-secret"

/-- A backup daemon section. -/
def sampleBackupDaemon : BackupDaemon where
  dockerImage := "backup-daemon"
  backupStorage := { volumeSize := .of "1Gi" }
  zooKeeperHost := "zookeeper"
  zooKeeperPort := 2181
  secretName := "backup-daemon-secret"

/-- A custom resource with a monitoring agent. -/
def sampleMonitored : ZooKeeperService where
  name := "zookeeper"
  namespaceName := "zk"
  spec := { global := some {}, monitoring := some sampleMonitoring }

/-- The same custom resource with a backup daemon. -/
def sampleBackedUp : ZooKeeperService :=
  { sampleMonitored with
    spec := { sampleMonitored.spec with backupDaemon := some sampleBackupDaemon } }

/-- The same custom resource with integration tests. -/
def sampleTested : ZooKeeperService :=
  { sampleMonitored with
    spec := { sampleMonitored.spec with integrationTests := some { serviceName := "tests" } } }

/-- Integration tests change nothing about the monitoring agent. -/
theorem builds_eq_sampleTested :
    SameGlobal sampleMonitored sampleTested ∧
      MonitoringResourceProvider.SameObjects ⟨sampleMonitored, sampleMonitoring, rfl⟩
        ⟨sampleTested, sampleMonitoring, rfl⟩ := by
  have hsame : SameGlobal sampleMonitored sampleTested := ⟨rfl, rfl, rfl⟩
  exact ⟨hsame, ((builds_eq_iff hsame).2.1 _ rfl rfl).mpr (.inr ⟨rfl, rfl⟩)⟩

/-- A backup daemon changes the Deployment of the monitoring agent. -/
theorem newMonitoringDeployment_ne_sampleBackedUp :
    SameGlobal sampleMonitored sampleBackedUp ∧
      (MonitoringResourceProvider.mk sampleMonitored sampleMonitoring rfl).newMonitoringDeployment ≠
        (MonitoringResourceProvider.mk sampleBackedUp sampleMonitoring
          rfl).newMonitoringDeployment := by
  have hsame : SameGlobal sampleMonitored sampleBackedUp := ⟨rfl, rfl, rfl⟩
  refine ⟨hsame, fun h => ?_⟩
  have hview := (MonitoringResourceProvider.views_of_deployment hsame rfl h).2
  cases hview

end Sample

end QubershipZookeeper.Operator
