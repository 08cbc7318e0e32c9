import QubershipZookeeper.VaultHistory

/-!
# What a call writes into the cluster

A call of `Reconcile` goes through many procedures, and any request of them can fail. Whatever
happens, what a call does to the objects of the cluster is a sequence of a few kinds of
**writes**: `reconcile_written` shows that every call is such a sequence.

The writes say who owns what. Services and Deployments are stored with the custom resource as
their only owner, so that they disappear with it; ServiceAccounts and claims are stored without
an owner, and a claim that exists only ever gets other annotations, so that the data survives.
`ClusterWrites.owned_run` and `ClusterWrites.claims_persist` carry this over to whole runs, and
`reconcile_spares` says that the objects of others are left alone.
-/

namespace QubershipZookeeper.Operator

open Proc

/-! ## Writes -/

/-- The names of the objects that a custom resource stands for. -/
def ZooKeeperService.Manages (cr : ZooKeeperService) : Kind → String → Prop
  | .service, n => n = cr.name ∨ n = cr.name ++ "-server" ∨ (∃ i, n = serverName cr.name i) ∨
      n = cr.name ++ "-monitoring" ∨ n = cr.name ++ "-backup-daemon"
  | .serviceAccount, n => n = cr.name ∨ n = cr.name ++ "-monitoring" ∨
      n = cr.name ++ "-backup-daemon"
  | .persistentVolumeClaim, n => (∃ i, n = persistentVolumeClaimPattern cr.name i) ∨
      (∃ z ∈ cr.spec.zooKeeper, n = z.snapshotStorage.claimName cr.name) ∨
      ∃ b ∈ cr.spec.backupDaemon, n = b.backupStorage.claimName cr.name
  | .deployment, n => (∃ i, n = serverName cr.name i) ∨ n = cr.name ++ "-monitoring" ∨
      n = cr.name ++ "-backup-daemon"
  | .secret, n => ∃ r ∈ buildReconcilers cr, n ∈ r.footprint.secrets

/-- Everything but the Services, the ServiceAccounts, the claims and the Deployments. -/
def asideFields : Set Field := {f | ∀ k n, f = .object k n → k = .secret}

/-- A write of the operator for a custom resource, or something that is none. No write removes an
object. -/
inductive Write (cr : ZooKeeperService) : World → World → Prop
  /-- something else than a write of these kinds -/
  | aside {w w' : World} (h : ∀ k n, k ≠ .secret → w'.get? k n = w.get? k n) : Write cr w w'
  /-- a Service, with the custom resource as its owner -/
  | service (w : World) (s : Service) (hname : cr.Manages .service s.metadata.name)
      (howners : s.metadata.ownerReferences = [controllerReference cr]) :
    Write cr w (w.store .service s)
  /-- a ServiceAccount without an owner -/
  | serviceAccount (w : World) (a : ServiceAccount)
      (hname : cr.Manages .serviceAccount a.metadata.name)
      (howners : a.metadata.ownerReferences = []) :
    Write cr w (w.store .serviceAccount a)
  /-- a new claim without an owner -/
  | claim (w : World) (c : PersistentVolumeClaim)
      (hname : cr.Manages .persistentVolumeClaim c.metadata.name)
      (hnew : w.get? .persistentVolumeClaim c.metadata.name = none)
      (howners : c.metadata.ownerReferences = []) :
    Write cr w (w.store .persistentVolumeClaim c)
  /-- other annotations for a claim that is there -/
  | annotate (w : World) (c : PersistentVolumeClaim) (annotations : Option StringMap)
      (hname : cr.Manages .persistentVolumeClaim c.metadata.name)
      (hfound : w.get? .persistentVolumeClaim c.metadata.name = some c) :
    Write cr w (w.store .persistentVolumeClaim
      { c with metadata := { c.metadata with annotations := annotations } })
  /-- a Deployment, with the custom resource as its owner -/
  | deployment (w : World) (d : Deployment) (hname : cr.Manages .deployment d.metadata.name)
      (howners : d.metadata.ownerReferences = [controllerReference cr]) :
    Write cr w (w.store .deployment d)
  /-- other replicas or marks for a Deployment that is there -/
  | modify (w : World) (found d : Deployment) (hname : cr.Manages .deployment d.metadata.name)
      (hfound : w.get? .deployment d.metadata.name = some found)
      (howners : d.metadata.ownerReferences = found.metadata.ownerReferences) :
    Write cr w (w.store .deployment d)

/-- A sequence of writes. -/
def Written (cr : ZooKeeperService) : World → World → Prop := Relation.ReflTransGen (Write cr)

section Written

variable {α : Type} {cr : ZooKeeperService} {w w' : World}

instance : Std.Refl (Written cr) := ⟨fun _ => .refl⟩

instance : IsTrans World (Written cr) := ⟨fun _ _ _ h h' => Relation.ReflTransGen.trans h h'⟩

theorem Write.written (h : Write cr w w') : Written cr w w' := .single h

/-- Steps aside of all objects but Secrets write nothing here. -/
theorem written_of_touches (h : Touches asideFields w w') : Written cr w w' :=
  (Write.aside fun _ _ hk => h.get? fun hf => hk (hf _ _ rfl)).written

theorem written_of_empty (w w' : World) (h : Touches ∅ w w') : Written cr w w' :=
  written_of_touches h.of_empty

/-- A procedure that writes nothing but Secrets. -/
theorem written_of_aside {m : Op α} (h : Within (Touches asideFields) m) : Within (Written cr) m :=
  h.mono fun _ _ => written_of_touches

/-- A request that comes to nothing adds no write. -/
theorem stable_written (w₀ : World) : Stable (Written cr w₀) := fun w w' ht hw =>
  trans_of (Written cr) hw (written_of_empty w w' ht)

/-- What keeps the writes up to some world is itself a sequence of writes. -/
theorem written_of_keeps {m : Op α} (h : ∀ w₀, Within (Keeps (Written cr w₀)) m) :
    Within (Written cr) m := fun w => h w w (refl_of (Written cr) w)

/-- Writes go on from writes. -/
theorem written_triple {m : Op α} (h : Within (Written cr) m) (w₀ : World) :
    Triple (Written cr w₀) m (fun _ => Written cr w₀) fun _ => Written cr w₀ :=
  h.triple fun _ _ hw ht => trans_of (Written cr) hw ht

theorem writes_secret_aside (n : String) : Writes asideFields .secret n :=
  ⟨fun _ _ h => by cases h; rfl, nofun⟩

/-! ## The shared procedures -/

/-- The owners of an object that had none. -/
theorem ownerReferences_setControllerReference {m m' : ObjectMeta}
    (h : setControllerReference cr m = .ok m') (howners : m.ownerReferences = []) :
    m'.ownerReferences = [controllerReference cr] := by
  unfold setControllerReference at h
  rw [howners] at h
  cases h
  rfl

/-- A Service is written with the custom resource as its owner. -/
theorem applyService_written {service : Except Panic Service}
    (h : ∀ s, service = .ok s →
      cr.Manages .service s.metadata.name ∧ s.metadata.ownerReferences = []) :
    Within (Written cr) (applyService cr service) := by
  refine (written_of_aside (build_touches _)).bind_yields (build_yields h) fun s hs => ?_
  refine (within_lift _).bind_yields (yields_lift fun m hm =>
    (⟨name_setControllerReference hm, ownerReferences_setControllerReference hm hs.2⟩ :
      m.name = s.metadata.name ∧ m.ownerReferences = [controllerReference cr])) fun m hm => ?_
  refine ((findObject_touches .service _).mono written_of_empty).bind fun found => ?_
  have hname : cr.Manages .service m.name := hm.1 ▸ hs.1
  rcases found with - | found
  · exact (clientCreate_within written_of_empty fun w =>
      (Write.service w _ hname hm.2).written).discard
  · refine (clientUpdate_within written_of_empty fun w =>
      (Write.service w _ ?_ ?_).written).discard <;>
      split
    · exact hname
    · exact hname
    · exact hm.2
    · exact hm.2

/-- The Services are all built from the global section. -/
theorem applyService_written_global {global : Option Global} {service : Global → Service}
    (hname : ∀ g, cr.Manages .service (service g).metadata.name)
    (howners : ∀ g, (service g).metadata.ownerReferences = []) :
    Within (Written cr) (applyService cr (do let g ← deref global; return service g)) := by
  refine applyService_written fun s hs => ?_
  obtain ⟨g, -, hs⟩ := except_bind_ok_inv hs
  cases hs
  exact ⟨hname g, howners g⟩

/-- A ServiceAccount is only created, and without an owner. -/
theorem createServiceAccount_written {name namespaceName : String}
    (h : cr.Manages .serviceAccount name) :
    Within (Written cr) (createServiceAccount (newServiceAccount name namespaceName)) :=
  ((clientGet_touches _ _).mono written_of_empty).discard.recover_if fun _ =>
    (clientCreate_within written_of_empty fun w => (Write.serviceAccount w _ h rfl).written).discard

/-- A Deployment is written with the custom resource as its owner. -/
theorem applyDeployment_written {deployment : Except Panic Deployment}
    (secrets : List (Option Secret)) (h : ∀ d, deployment = .ok d →
      cr.Manages .deployment d.metadata.name ∧ d.metadata.ownerReferences = []) :
    Within (Written cr) (applyDeployment cr deployment secrets) := by
  refine (written_of_aside (build_touches _)).bind_yields (build_yields h) fun d hd => ?_
  refine (within_lift _).bind_yields (yields_lift fun m hm =>
    (⟨name_setControllerReference hm, ownerReferences_setControllerReference hm hd.2⟩ :
      m.name = d.metadata.name ∧ m.ownerReferences = [controllerReference cr])) fun m hm => ?_
  have hname : cr.Manages .deployment m.name := hm.1 ▸ hd.1
  exact createOrUpdateDeployment_within written_of_empty fun w =>
    (Write.deployment w _ hname hm.2).written

/-- An update of a Deployment that was found, with the owners it has. -/
theorem written_modify {w₀ w : World} {found d : Deployment} {name : String}
    (hname : cr.Manages .deployment name) (hfound : w.get? .deployment name = some found)
    (hmetadata : d.metadata = found.metadata) (hw : Written cr w₀ w) :
    Written cr w₀ (w.store .deployment d) := by
  have hd : d.metadata.name = name := hmetadata ▸ Store.name_of_get? hfound
  subst hd
  exact trans_of (Written cr) hw (Write.modify w found d hname hfound (by rw [hmetadata])).written

/-- Scaling modifies a Deployment that is there. -/
theorem scaleDeployment_written {name : String} (replicas : ℤ) (h : cr.Manages .deployment name) :
    Within (Written cr) (scaleDeployment name replicas) := by
  refine retryOnConflict_within (written_of_keeps fun w₀ => keeps_of_triple ?_) _
  refine (clientGet_triple (stable_written w₀) .deployment name).bind fun found => ?_
  refine Triple.bind (Q := fun _ => Written cr w₀) ?_ fun _ => triple_pure fun _ hw => hw
  refine clientUpdate_triple (fun w w' ht hw => ?_) (fun _ _ hw _ _ => hw.1)
    (fun w _ hw _ => written_modify h hw.2 rfl hw.1) (fun _ hw => hw.1) fun _ _ hw => hw
  exact ⟨stable_written w₀ w w' ht hw.1, (ht.get? (Set.notMem_empty _)).trans hw.2⟩

theorem updateDeploymentSecretRestartAnnotations_written {name : String}
    (secrets : List (Option Secret)) (h : cr.Manages .deployment name) :
    Within (Written cr) (updateDeploymentSecretRestartAnnotations name secrets) :=
  written_of_keeps fun w₀ => updateDeploymentSecretRestartAnnotations_keeps (stable_written w₀)
    fun _ _ hw hd => written_modify h hd rfl hw

/-! ## Claims -/

/-- A claim that is there is only given other annotations. -/
theorem updatePersistentVolumeClaim_written (w₀ : World) {found claim : PersistentVolumeClaim}
    (h : cr.Manages .persistentVolumeClaim found.metadata.name) :
    Triple (fun w => Written cr w₀ w ∧
        w.get? .persistentVolumeClaim found.metadata.name = some found)
      (updatePersistentVolumeClaim found claim) (fun _ => Written cr w₀) fun _ =>
        Written cr w₀ := by
  refine Triple.bind (Q := fun _ w => Written cr w₀ w ∧
    w.get? .persistentVolumeClaim found.metadata.name = some found)
    (triple_observe fun _ hw => hw) fun previous => ?_
  refine Triple.whenever (fun _ => ?_) fun _ _ hw => hw.1
  refine Triple.bind (Q := fun _ w => Written cr w₀ w ∧
    w.get? .persistentVolumeClaim found.metadata.name = some found)
    (triple_build (fun _ _ _ hw => hw) fun _ _ hw => hw.1) fun annotations => ?_
  refine Triple.bind (Q := fun _ => Written cr w₀) ?_ fun _ => triple_pure fun _ hw => hw
  refine clientUpdate_triple (fun w w' ht hw => ?_) (fun _ _ hw _ _ => hw.1) (fun w _ hw _ => ?_)
    (fun _ hw => hw.1) fun _ _ hw => hw
  · exact ⟨stable_written w₀ w w' ht hw.1, (ht.get? (Set.notMem_empty _)).trans hw.2⟩
  · exact trans_of (Written cr) hw.1 (Write.annotate w found annotations h hw.2).written

/-- A claim is either made here, or one that is there. -/
def Obtained (cr : ZooKeeperService) (claim : PersistentVolumeClaim) (w : World) : Prop :=
  cr.Manages .persistentVolumeClaim claim.metadata.name ∧
    (claim.metadata.ownerReferences = [] ∨
      w.get? .persistentVolumeClaim claim.metadata.name = some claim)

theorem noteClaim_written (name : String) : Within (Written cr) (noteClaim name) :=
  written_of_aside (noteClaim_touches name (by simp [asideFields]))

/-- A claim is created, or the annotations of one that is there are updated. -/
theorem createPersistentVolumeClaim_written (w₀ : World) (claim : PersistentVolumeClaim) :
    Triple (fun w => Written cr w₀ w ∧ Obtained cr claim w) (createPersistentVolumeClaim claim)
      (fun _ => Written cr w₀) fun _ => Written cr w₀ := by
  have hstable : Stable fun w => Written cr w₀ w ∧ Obtained cr claim w := fun w w' ht hw =>
    ⟨stable_written w₀ w w' ht hw.1, hw.2.1, hw.2.2.imp_right fun hthere =>
      (ht.get? (Set.notMem_empty _)).trans hthere⟩
  refine ((findObject_triple hstable .persistentVolumeClaim _).conseq (fun _ h => h)
    (fun _ _ h => h)
    fun _ _ h => h.1).bind fun found => ?_
  refine Triple.of_fact (fun w hw => hw.1.2.1) fun hname => ?_
  rcases found with - | found
  · -- what is not there was made here
    refine Triple.of_fact (c := claim.metadata.ownerReferences = [])
      (fun w hw => hw.1.2.2.resolve_right fun hthere => ?_) fun howners => ?_
    · cases hw.2.symm.trans hthere
    refine Triple.bind (Q := fun _ => Written cr w₀) ?_ fun _ =>
      written_triple (noteClaim_written _) w₀
    refine clientCreate_triple (P := Written cr w₀) (stable_written w₀) (fun w hw hnone => ?_)
      (fun _ hw => hw) (fun _ _ h => h) |>.conseq (fun w hw => hw.1.1)
        (fun _ _ h => h) fun _ _ h => h
    exact trans_of (Written cr) hw (Write.claim w claim hname hnone howners).written
  · refine Triple.of_fact (c := found.metadata.name = claim.metadata.name)
      (fun w hw => Store.name_of_get? hw.2) fun hfound => ?_
    refine Triple.bind (Q := fun _ w => Written cr w₀ w ∧
      w.get? .persistentVolumeClaim found.metadata.name = some found) ?_ fun _ =>
        updatePersistentVolumeClaim_written w₀ (hfound ▸ hname)
    refine triple_update fun w hw => ⟨?_, hfound ▸ hw.2⟩
    exact trans_of (Written cr) hw.1.1 (noteClaim_written claim.metadata.name w)

theorem applyClaim_written (w₀ : World) (claim : Option PersistentVolumeClaim) :
    Triple (fun w => Written cr w₀ w ∧ ∀ c ∈ claim, Obtained cr c w) (applyClaim claim)
      (fun _ => Written cr w₀) fun _ => Written cr w₀ := by
  cases claim with
  | none => exact triple_pure fun _ hw => hw.1
  | some claim =>
    exact (createPersistentVolumeClaim_written w₀ claim).conseq (fun _ hw => ⟨hw.1, hw.2 claim rfl⟩)
      (fun _ _ h => h) fun _ _ h => h

/-- A claim that is made here. -/
theorem applyClaim_written_of_made {claim : Option PersistentVolumeClaim}
    (h : ∀ c ∈ claim, cr.Manages .persistentVolumeClaim c.metadata.name ∧
      c.metadata.ownerReferences = []) : Within (Written cr) (applyClaim claim) :=
  written_of_keeps fun w₀ => keeps_of_triple <|
    (applyClaim_written w₀ claim).conseq
      (fun _ hw => ⟨hw, fun c hc => ⟨(h c hc).1, .inl (h c hc).2⟩⟩) (fun _ _ h => h) fun _ _ h => h

/-- The claim of the snapshots, made or found, is written as any other. -/
theorem applySnapshotsClaim_written {storage : SnapshotStorage}
    (h : cr.Manages .persistentVolumeClaim (storage.claimName cr.name)) :
    Within (Written cr) (applySnapshotsClaim storage cr) := by
  refine written_of_keeps fun w₀ => keeps_of_triple ?_
  refine ((processSnapshotsPersistentVolumeClaim_triple (stable_written w₀) storage cr).and_yields
    (processSnapshotsPersistentVolumeClaim_names storage cr)).bind fun claim => ?_
  refine (applyClaim_written w₀ claim).conseq (fun w hw => ⟨hw.1.1, fun c hc =>
    ⟨?_, (hw.1.2 c hc).imp_left fun hmade => hmade.owners⟩⟩) (fun _ _ h => h) fun _ _ h => h
  have hname : c.metadata.name = storage.claimName cr.name := ((hw.2 _).mp ⟨c, hc, rfl⟩).2
  rw [hname]
  exact h

/-! ## The steps around the writes -/

theorem vault_mem_asideFields : Field.vault ∈ asideFields := by simp [asideFields]

theorem cleanSecret_written (c : Component) (secret : Secret) :
    Within (Written cr) (cleanSecret c secret) :=
  written_of_aside (cleanSecret_touches c fun _ =>
    ⟨(writes_secret_aside _).1, by simp [asideFields]⟩)

theorem watchOwnSecret_written (n : String) : Within (Written cr) (watchOwnSecret n cr) :=
  written_of_aside (watchOwnSecret_writes cr (writes_secret_aside n))

theorem watchOtherSecret_written (n : Option String) :
    Within (Written cr) (watchOtherSecret n cr) :=
  written_of_aside (watchOtherSecret_writes cr fun n _ => writes_secret_aside n)

theorem testChanged_written (c : Component) (digest : Digest) (secrets : List (Option Secret)) :
    Within (Written cr) (testChanged c digest secrets) :=
  fun _ => Write.written (.aside fun _ _ _ => rfl)

theorem remember_written (c : Component) (digest : Digest) (secrets : List (Option Secret)) :
    Within (Written cr) (remember c digest secrets) :=
  fun _ => Write.written (.aside fun _ _ _ => rfl)

end Written

/-! ## The components -/

namespace ZooKeeperResourceProvider

variable (p : ZooKeeperResourceProvider)

theorem applyVault_written (secret : Secret) : Within (Written p.cr) (p.applyVault secret) := by
  unfold applyVault
  rcases p.cr.vault? with - | vault
  · exact within_pure _
  · refine p.processVaultSecrets_within (fun _ _ ht => written_of_touches (ht.mono ?_))
      (cleanSecret_written _ _)
    rintro _ (rfl | rfl) <;> simp [asideFields]

/-- The claim of a server has the name of one, and no owner. -/
theorem manages_newZooKeeperPersistentVolumeClaimForCR {i : ℕ}
    {claim : Option PersistentVolumeClaim}
    (h : p.newZooKeeperPersistentVolumeClaimForCR i = .ok claim) :
    ∀ c ∈ claim, p.cr.Manages .persistentVolumeClaim c.metadata.name ∧
      c.metadata.ownerReferences = [] := by
  rintro c rfl
  exact ⟨.inl ⟨i, ((p.name_newZooKeeperPersistentVolumeClaimForCR h _).mp ⟨c, rfl, rfl⟩).2⟩,
    (p.made_newZooKeeperPersistentVolumeClaimForCR h).owners⟩

/-- One round of the loop over the servers writes under the names of the server. -/
theorem applyServer_written (rolling : Bool) (secret : Secret) (serverId : ℕ) :
    Within (Written p.cr) (p.applyServer rolling secret serverId) := by
  refine Within.bind (applyService_written_global (fun _ => .inr (.inr (.inl ⟨serverId, rfl⟩)))
    fun _ => rfl) fun _ => ?_
  refine (written_of_aside (build_touches _)).bind_yields
    (build_yields fun _ hc => p.manages_newZooKeeperPersistentVolumeClaimForCR hc)
    fun claim hclaim => ?_
  refine (applyClaim_written_of_made hclaim).bind fun _ => ?_
  refine (createServiceAccount_written (.inl rfl)).bind fun _ => ?_
  refine (p.applyVault_written secret).bind fun secret => ?_
  refine (applyDeployment_written _ fun d hd => ?_).bind fun _ => ?_
  · exact ⟨.inl ⟨serverId, p.name_newServerDeploymentForCR hd⟩,
      (p.global_of_newServerDeploymentForCR hd).2⟩
  · exact (written_of_aside (p.awaitServer_touches _ _)).bind fun _ => within_pure _

theorem applyServers_written (secret : Secret) : Within (Written p.cr) (p.applyServers secret) := by
  refine (applySnapshotsClaim_written (.inr (.inl ⟨_, p.spec_eq, rfl⟩))).whenever.bind fun _ => ?_
  refine Within.bind (applyService_written_global (fun _ => .inl rfl) fun _ => rfl) fun _ => ?_
  refine Within.bind
    (applyService_written_global (fun _ => .inr (.inl rfl)) fun _ => rfl) fun _ => ?_
  refine (written_of_aside p.getCurrentDeploymentsCount_touches).bind fun currentReplicas => ?_
  refine Within.bind
    (forEach_within fun i _ => scaleDeployment_written 0 (.inl ⟨i, rfl⟩)) fun _ => ?_
  exact foldEach_within (fun secret i _ => p.applyServer_written _ secret i) secret

/-- The pass of ZooKeeper writes under the names of the custom resource. -/
theorem reconcile_written : Within (Written p.cr) p.reconcile := by
  refine Within.bind ?_ fun _ => remember_written _ _ _
  refine (watchOwnSecret_written _).bind fun secret => (testChanged_written _ _ _).bind
    fun isChanged => Within.bind ?_ fun secret => Within.bind ?_ fun _ => within_pure _
  · split
    · refine Within.bind ?_ fun _ => (written_of_aside p.updateZooKeeperStatus_touches).bind
        fun _ => within_pure _
      split
      · exact p.applyServers_written secret
      · exact within_pure _
    · exact within_pure _
  · exact forEach_within fun i _ =>
      updateDeploymentSecretRestartAnnotations_written _ (.inl ⟨i, rfl⟩)

end ZooKeeperResourceProvider

namespace MonitoringResourceProvider

variable (p : MonitoringResourceProvider)

theorem applyVault_written (secret : Secret) : Within (Written p.cr) (p.applyVault secret) := by
  unfold applyVault
  rcases p.cr.vault? with - | vault
  · exact within_pure _
  · exact (written_of_aside
      (p.writePolicies_touches vault_mem_asideFields vault secret)).whenever.bind
      fun _ => cleanSecret_written _ _

theorem apply_written (secret : Secret) (backupDaemonSecret : Option Secret) :
    Within (Written p.cr) (p.apply secret backupDaemonSecret) := by
  refine Within.bind (applyService_written_global (fun _ => .inr (.inr (.inr (.inl rfl))))
    fun _ => rfl) fun _ => ?_
  refine (createServiceAccount_written (.inr (.inl rfl))).bind fun _ => ?_
  refine (p.applyVault_written secret).bind fun secret => ?_
  refine (applyDeployment_written _ fun d hd => ?_).bind fun _ => ?_
  · refine ⟨.inr (.inl (p.name_newMonitoringDeployment hd)), ?_⟩
    obtain ⟨global, -, hd⟩ := except_bind_ok_inv hd
    cases hd
    rfl
  · exact (written_of_aside p.updateMonitoringStatus_touches).bind fun _ => within_pure _

/-- The pass of Monitoring does. -/
theorem reconcile_written : Within (Written p.cr) p.reconcile := by
  refine (watchOwnSecret_written _).bind fun secret =>
    (watchOtherSecret_written _).bind fun other =>
    (testChanged_written _ _ _).bind fun isChanged => Within.bind ?_ fun secret =>
      (updateDeploymentSecretRestartAnnotations_written _ (.inr (.inl rfl))).bind fun _ =>
        remember_written _ _ _
  split
  · exact p.apply_written secret other
  · exact within_pure _

end MonitoringResourceProvider

namespace BackupDaemonResourceProvider

variable (p : BackupDaemonResourceProvider)

theorem applyVault_written (secret : Secret) : Within (Written p.cr) (p.applyVault secret) := by
  unfold applyVault
  rcases p.cr.vault? with - | vault
  · exact within_pure _
  · have hT := vault_mem_asideFields
    refine (written_of_aside (p.writePolicies_touches hT vault secret)).whenever.bind fun _ => ?_
    refine (written_of_aside (newPasswordGenerator_touches hT _ _)).bind fun _ => ?_
    exact (written_of_aside (processUserCredentials_touches hT _ _ _ _ _)).bind fun _ =>
      cleanSecret_written _ _

theorem apply_written (secret : Secret) (s3Secret s3AliasesSecret : Option Secret) :
    Within (Written p.cr) (p.apply secret s3Secret s3AliasesSecret) := by
  refine (applySnapshotsClaim_written (.inr (.inr ⟨_, p.spec_eq, rfl⟩))).whenever.bind fun _ => ?_
  refine Within.bind (applyService_written_global (fun _ => .inr (.inr (.inr (.inr rfl))))
    fun _ => rfl) fun _ => ?_
  refine (createServiceAccount_written (.inr (.inr rfl))).bind fun _ => ?_
  refine (p.applyVault_written secret).bind fun secret => ?_
  refine (applyDeployment_written _ fun d hd => ?_).bind fun _ => ?_
  · refine ⟨.inr (.inr (p.name_newBackupDaemonDeployment hd)), ?_⟩
    obtain ⟨global, -, hd⟩ := except_bind_ok_inv hd
    cases hd
    rfl
  · exact (written_of_aside p.updateBackupDaemonStatus_touches).bind fun _ => within_pure _

/-- The pass of the backup daemon does. -/
theorem reconcile_written : Within (Written p.cr) p.reconcile := by
  refine (watchOwnSecret_written _).bind fun secret => (watchOtherSecret_written _).bind fun s3 =>
    (written_of_aside p.findS3Aliases_touches).bind fun aliases =>
      (testChanged_written _ _ _).bind fun isChanged => Within.bind ?_ fun secret =>
        (updateDeploymentSecretRestartAnnotations_written _ (.inr (.inr rfl))).bind fun _ =>
          remember_written _ _ _
  split
  · exact p.apply_written secret s3 aliases
  · exact within_pure _

end BackupDaemonResourceProvider

/-! ## A call -/

/-- And so does the pass of every component. -/
theorem Reconciler.reconcile_written {cr : ZooKeeperService} {r : Reconciler}
    (h : r ∈ buildReconcilers cr) : Within (Written cr) r.reconcile := by
  rcases mem_buildReconcilers h with ⟨p, rfl, rfl⟩ | ⟨p, rfl, rfl⟩ | ⟨p, rfl, rfl⟩ | ⟨tests, rfl⟩
  · exact p.reconcile_written
  · exact p.reconcile_written
  · exact p.reconcile_written
  · exact within_pure ()

/-- The steps of a call outside of the passes write no such objects. -/
theorem aboutPasses_written {cr : ZooKeeperService} (w₀ : World) : AboutPasses (Written cr w₀) := by
  refine fun w w' hw ht => trans_of (Written cr) hw (written_of_touches (ht.mono fun f hf => ?_))
  rcases hf with (rfl | rfl | rfl | rfl) | rfl | rfl | rfl <;> simp [asideFields]

/-- **A call is a sequence of writes**, whatever fails. -/
theorem reconcile_written {w : World} {cr : ZooKeeperService} (hcr : w.cr = some cr) :
    Written cr w (reconcile w).next := by
  have hcall := reconcile_triple (I := fun _ => Written cr w) (fun _ => aboutPasses_written w)
    (aboutPasses_written w) (fun _ _ hw => hw) fun done r rest hlist =>
      written_triple (Reconciler.reconcile_written (hlist ▸ List.mem_append_cons_self)) w
  have hw : w.cr = some cr ∧ Written cr w w := ⟨hcr, refl_of (Written cr) w⟩
  rcases hrun : reconcile w with ⟨_, t⟩ | ⟨e, t⟩
  · exact hcall.ok hw hrun
  · exact hcall.raised hw hrun

/-! ## Objects of others -/

/-- A write stores an object of the custom resource. -/
theorem Write.get?_of_not_manages {cr : ZooKeeperService} {w w' : World}
    (h : Write cr w w') {k : Kind}
    {n : String} (hk : k ≠ .secret) (hn : ¬ cr.Manages k n) : w'.get? k n = w.get? k n := by
  have hstore (k' : Kind) {o : k'.Object} (hname : cr.Manages k' (k'.name o)) :
      (w.store k' o).get? k n = w.get? k n := by
    refine w.get?_store_of_ne (not_and_or.mp ?_)
    rintro ⟨rfl, rfl⟩
    exact hn hname
  cases h with
  | aside h => exact h k n hk
  | service s hname => exact hstore .service hname
  | serviceAccount a hname => exact hstore .serviceAccount hname
  | claim c hname => exact hstore .persistentVolumeClaim hname
  | annotate c annotations hname => exact hstore .persistentVolumeClaim hname
  | deployment d hname => exact hstore .deployment hname
  | modify found d hname => exact hstore .deployment hname

/-- Objects under other names stay as they are. -/
theorem Written.get?_of_not_manages {cr : ZooKeeperService} {w w' : World} (h : Written cr w w')
    {k : Kind} {n : String} (hk : k ≠ .secret) (hn : ¬ cr.Manages k n) :
    w'.get? k n = w.get? k n := by
  induction h with
  | refl => rfl
  | tail _ hstep ih => exact (hstep.get?_of_not_manages hk hn).trans ih

/-- A Secret that no component knows is left alone. -/
theorem secret_of_not_manages {w : World} {cr : ZooKeeperService}
    (hcr : w.cr = some cr) {n : String}
    (hn : ¬ cr.Manages .secret n) : (reconcile w).next.get? .secret n = w.get? .secret n := by
  have habout : AboutPasses fun t => t.get? .secret n = w.get? .secret n := by
    refine fun t t' ht htouch => (htouch.get? fun hf => ?_).trans ht
    rcases hf with (h | h | h | h) | h | h | h <;> cases h
  have hcall := reconcile_triple (I := fun _ t => t.get? .secret n = w.get? .secret n)
    (fun _ => habout) habout (fun _ _ ht => ht) fun done r rest hlist =>
      r.reconcile_touches.triple fun t t' ht htouch => (htouch.get? (k := .secret) fun hf => hn
        ⟨r, hlist ▸ List.mem_append_cons_self, hf⟩).trans ht
  rcases hrun : reconcile w with ⟨_, t⟩ | ⟨e, t⟩
  · exact hcall.ok ⟨hcr, rfl⟩ hrun
  · exact hcall.raised ⟨hcr, rfl⟩ hrun

/-- **The objects of others are left alone** by every call, whatever fails. -/
theorem reconcile_spares {w : World} {cr : ZooKeeperService} (hcr : w.cr = some cr) {k : Kind}
    {n : String} (hn : ¬ cr.Manages k n) : (reconcile w).next.get? k n = w.get? k n := by
  by_cases hk : k = .secret
  · subst hk
    exact secret_of_not_manages hcr hn
  · exact (reconcile_written hcr).get?_of_not_manages hk hn

/-- The account that every namespace has, as it is stored. -/
def defaultAccount : ServiceAccount :=
  { metadata := { name := "default", namespaceName := "zk", resourceVersion := 1 } }

/-- A cluster with the custom resource, and with an account that is not the operator's. -/
def sharedWorld : World :=
  (VaultHistory.sampleWorld (VaultHistory.sampleSpec "secret" "monitoring:1")).store .serviceAccount
    defaultAccount

/-- A call stores three accounts of its own and leaves this one as it is. -/
theorem reconcile_spares_default :
    ¬ ZooKeeperService.Manages
        { name := "zookeeper", namespaceName := "zk",
          spec := VaultHistory.sampleSpec "secret" "monitoring:1" } .serviceAccount "default" ∧
      (reconcile sharedWorld).returned = true ∧
      ((reconcile sharedWorld).next.get? .serviceAccount "zookeeper").isSome = true ∧
      (reconcile sharedWorld).next.get? .serviceAccount "default" = some defaultAccount := by
  have hn : ¬ ("default" = "zookeeper" ∨ "default" = "zookeeper" ++ "-monitoring" ∨
      "default" = "zookeeper" ++ "-backup-daemon") := by decide
  have hspared := reconcile_spares (w := sharedWorld) rfl (k := .serviceAccount) hn
  have hstored : sharedWorld.get? .serviceAccount "default" = some defaultAccount := rfl
  exact ⟨hn, by decide +kernel, by decide +kernel, hspared.trans hstored⟩

/-! ## Owners -/

/-- The owners that the objects of a kind are to have; those of Secrets are not looked at here. -/
def Kind.owners (owner : OwnerReference) : Kind → Option (List OwnerReference)
  | .service => some [owner]
  | .deployment => some [owner]
  | .serviceAccount => some []
  | .persistentVolumeClaim => some []
  | .secret => none

/-- Services and Deployments belong to the owner and to nobody else; ServiceAccounts and claims
belong to nobody. -/
def World.Owned (owner : OwnerReference) (w : World) : Prop :=
  ∀ k n o, w.get? k n = some o → ∀ owners ∈ k.owners owner, (k.metadata o).ownerReferences = owners

/-- The API server leaves the owners of an object alone. -/
theorem ownerReferences_accept (k : Kind) (v : ℕ) (o : k.Object) :
    (k.metadata (k.accept v o)).ownerReferences = (k.metadata o).ownerReferences := by
  cases k <;> rfl

/-- A write with the right owners keeps all owners right. -/
theorem World.Owned.store {owner : OwnerReference} {w : World} (h : w.Owned owner) {k : Kind}
    {o : k.Object} (ho : ∀ owners ∈ k.owners owner, (k.metadata o).ownerReferences = owners) :
    (w.store k o).Owned owner := by
  intro k' n o' ho'
  by_cases hn : k' = k ∧ n = k.name o
  · obtain ⟨rfl, rfl⟩ := hn
    rw [World.get?_store_self] at ho'
    cases ho'
    rw [ownerReferences_accept]
    exact ho
  · rw [w.get?_store_of_ne (not_and_or.mp hn)] at ho'
    exact h k' n o' ho'

/-- Whatever is done to Secrets. -/
theorem World.Owned.of_same {owner : OwnerReference} {w w' : World} (hw : w.Owned owner)
    (h : ∀ k n, k ≠ .secret → w'.get? k n = w.get? k n) : w'.Owned owner := by
  intro k n o ho owners howners
  have hk : k ≠ .secret := by
    rintro rfl
    cases howners
  exact hw k n o ((h k n hk).symm.trans ho) owners howners

/-- Every kind of write has the owners it is to have. -/
theorem Write.owned {cr : ZooKeeperService} {w w' : World} (h : Write cr w w')
    (hw : w.Owned (controllerReference cr)) : w'.Owned (controllerReference cr) := by
  cases h with
  | aside h => exact hw.of_same h
  | service s _ howners =>
    refine hw.store ?_
    rintro _ ⟨⟩
    exact howners
  | serviceAccount a _ howners =>
    refine hw.store ?_
    rintro _ ⟨⟩
    exact howners
  | claim c _ _ howners =>
    refine hw.store ?_
    rintro _ ⟨⟩
    exact howners
  | annotate c annotations _ hfound => exact hw.store (hw .persistentVolumeClaim _ c hfound)
  | deployment d _ howners =>
    refine hw.store ?_
    rintro _ ⟨⟩
    exact howners
  | modify found d _ hfound howners =>
    refine hw.store fun owners hmem => ?_
    exact howners.trans (hw .deployment _ found hfound owners hmem)

/-- So many writes keep them, by induction. -/
theorem Written.owned {cr : ZooKeeperService} {w w' : World} (h : Written cr w w')
    (hw : w.Owned (controllerReference cr)) : w'.Owned (controllerReference cr) := by
  induction h with
  | refl => exact hw
  | tail _ hstep ih => exact hstep.owned ih

/-! ## Claims that are there -/

/-- Every claim is still there, and is the same up to its annotations and its version. -/
def ClaimsPersist (w w' : World) : Prop :=
  ∀ n c, w.get? .persistentVolumeClaim n = some c → ∃ annotations version,
    w'.get? .persistentVolumeClaim n = some { c with
      metadata := { c.metadata with annotations := annotations, resourceVersion := version } }

theorem claimsPersist_of_same {w w' : World}
    (h : ∀ n, w'.get? .persistentVolumeClaim n = w.get? .persistentVolumeClaim n) :
    ClaimsPersist w w' := fun n _ hc => ⟨_, _, (h n).trans hc⟩

instance : Std.Refl ClaimsPersist := ⟨fun _ => claimsPersist_of_same fun _ => rfl⟩

instance : IsTrans World ClaimsPersist where
  trans _ _ _ h h' n c hc := by
    obtain ⟨annotations, version, hc'⟩ := h n c hc
    obtain ⟨annotations', version', hc''⟩ := h' n _ hc'
    exact ⟨annotations', version', hc''⟩

/-- No kind of write removes a claim or changes more of it than annotations. -/
theorem Write.claimsPersist {cr : ZooKeeperService} {w w' : World} (h : Write cr w w') :
    ClaimsPersist w w' := by
  have hother {k : Kind} {o : k.Object} (hk : Kind.persistentVolumeClaim ≠ k) :
      ClaimsPersist w (w.store k o) := claimsPersist_of_same fun _ => w.get?_store_of_ne (.inl hk)
  cases h with
  | aside h => exact claimsPersist_of_same fun n => h _ n nofun
  | service | serviceAccount | deployment | modify => exact hother nofun
  | claim _ _ hnew =>
    refine fun n c' hc' => ⟨_, _, (w.get?_store_of_ne (.inr ?_)).trans hc'⟩
    rintro rfl
    cases hnew.symm.trans hc'
  | annotate c annotations _ hfound =>
    intro n c' hc'
    by_cases hn : n = c.metadata.name
    · subst hn
      cases hfound.symm.trans hc'
      exact ⟨_, _, w.get?_store_self .persistentVolumeClaim _⟩
    · exact ⟨_, _, (w.get?_store_of_ne (.inr hn)).trans hc'⟩

/-- So the claims persist over many writes. -/
theorem Written.claimsPersist {cr : ZooKeeperService} {w w' : World} (h : Written cr w w') :
    ClaimsPersist w w' := by
  induction h with
  | refl => exact refl_of ClaimsPersist w
  | tail _ hstep ih => exact trans_of ClaimsPersist ih hstep.claimsPersist

/-! ## Runs -/

namespace ClusterWrites

open VaultHistory

/-- Without a custom resource a call writes nothing. -/
theorem get?_reconcile_of_absent {w : World} (hcr : w.cr = none) {k : Kind} (hk : k ≠ .secret)
    (n : String) : (reconcile w).next.get? k n = w.get? k n := by
  refine (reconcile_absent hcr).get? fun hf => ?_
  rcases hf with ((h | h | h | h) | h) | h | h | h | h <;> cases h
  exact hk rfl

/-- What others do keeps the claims. -/
theorem claimsPersist_others (w : World) : ∀ deed, ClaimsPersist w (interplay.others w deed)
  | .edit _ => claimsPersist_of_same fun _ => rfl
  | .write _ => claimsPersist_of_same fun _ => w.get?_store_of_ne (.inl nofun)
  | .restart => claimsPersist_of_same fun _ => rfl

/-- A call keeps them, however it ends. -/
theorem claimsPersist_call (w : World) (call : Call) : ClaimsPersist w (interplay.call w call) := by
  have hstart : ClaimsPersist w (call.start w) := claimsPersist_of_same fun _ => rfl
  refine trans_of ClaimsPersist hstart ?_
  rcases hcr : (call.start w).cr with - | cr
  · exact claimsPersist_of_same (get?_reconcile_of_absent hcr nofun)
  · exact (reconcile_written hcr).claimsPersist

/-- **The claims survive every run**: edits of the custom resource, restarts of the operator and
calls that break off anywhere. A claim that was there is never removed or replaced; only its
annotations can change. -/
theorem claims_persist (w : World) (turns : List (Turn Deed Call)) :
    ClaimsPersist w (interplay.run w turns) :=
  Interplay.run_keeps
    (fun t deed ht => trans_of ClaimsPersist ht (claimsPersist_others t deed))
    (fun t call ht => trans_of ClaimsPersist ht (claimsPersist_call t call))
    (refl_of ClaimsPersist w) turns

/-- The objects have the owners that the custom resource, if there is one, gives them. -/
structure OwnedFor (owner : OwnerReference) (w : World) : Prop where
  resource : ∀ cr ∈ w.cr, controllerReference cr = owner
  owned : w.Owned owner

/-- What users do keeps the owners: an edit does not change who the custom resource is. -/
theorem OwnedFor.others {owner : OwnerReference} {w : World} (h : OwnedFor owner w) :
    ∀ deed, OwnedFor owner (interplay.others w deed)
  | .edit spec => by
    refine ⟨fun cr hcr => ?_, h.owned⟩
    obtain ⟨cr', hcr', rfl⟩ := Option.map_eq_some_iff.mp hcr
    exact h.resource cr' hcr'
  | .write _ => ⟨h.resource, h.owned.store nofun⟩
  | .restart => ⟨h.resource, h.owned⟩

/-- A call keeps them, however it ends. -/
theorem OwnedFor.call {owner : OwnerReference} {w : World} (h : OwnedFor owner w) (call : Call) :
    OwnedFor owner (interplay.call w call) := by
  have hstart : OwnedFor owner (call.start w) := ⟨h.resource, h.owned⟩
  refine ⟨fun cr hcr => h.resource cr (cr_call w call ▸ hcr), ?_⟩
  rcases hcr : (call.start w).cr with - | cr
  · exact hstart.owned.of_same fun k n hk => get?_reconcile_of_absent hcr hk n
  · obtain rfl := h.resource cr hcr
    exact (reconcile_written hcr).owned hstart.owned

/-- **Who owns what in every run**: with the custom resource go the Services and the Deployments,
and neither ServiceAccounts nor claims. -/
theorem owned_run {w : World} {owner : OwnerReference} (h : OwnedFor owner w)
    (turns : List (Turn Deed Call)) : (interplay.run w turns).Owned owner :=
  (Interplay.run_keeps (fun _ deed ht => ht.others deed)
    (fun _ call ht => ht.call call) h turns).owned

/-- In a cluster with a custom resource and nothing else, everything has the owners it is to have.
-/
theorem ownedFor_sampleWorld (spec : ZooKeeperServiceSpec) :
    OwnedFor ⟨"netcracker.com/v1", "ZooKeeperService", "zookeeper", true⟩ (sampleWorld spec) where
  resource := by
    rintro _ ⟨⟩
    rfl
  owned _ _ _ ho := by cases ho

theorem owned_run_editedRun :
    OwnedFor ⟨"netcracker.com/v1", "ZooKeeperService", "zookeeper", true⟩
        (sampleWorld (sampleSpec "secret" "monitoring:1")) ∧
      (interplay.run (sampleWorld (sampleSpec "secret" "monitoring:1")) editedRun).Owned
        ⟨"netcracker.com/v1", "ZooKeeperService", "zookeeper", true⟩ :=
  ⟨ownedFor_sampleWorld _, owned_run (ownedFor_sampleWorld _) editedRun⟩

end ClusterWrites

end QubershipZookeeper.Operator
