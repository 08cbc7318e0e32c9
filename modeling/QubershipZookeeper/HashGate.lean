import QubershipZookeeper.Servers

/-!
# The hash gate of ZooKeeper

`ReconcileZooKeeper.Reconcile` remembers the hash of the section it has dealt with, and goes
through its apply branch only when the hash, or one of the versions, is not the remembered
one. The hash is remembered at the very end of a pass that succeeded, while the Deployments
are written one by one on the way.

A pass that breaks off therefore leaves the hash of an **older** section behind, together
with Deployments of a newer one. When the section is then set back to the older value, the gate
is closed although the cluster is not what it should be. As long as this does not happen, a
closed gate is right (`HashGate.alwaysSettles_of_careful`).
-/

namespace QubershipZookeeper.Operator

open Proc

/-- The remembered hash of ZooKeeper's section. -/
def recordedHash (w : World) : Option Digest := w.resourceHashes.lookup (hashName .zooKeeper)

/-- A pass without the hash of the servers in its footprint leaves it alone. -/
theorem recordedHash_of_touches {F : Footprint} {w w' : World} (h : Touches F.fields w w')
    (hn : hashName .zooKeeper ∉ F.hashes) : recordedHash w' = recordedHash w :=
  h.same (.recordedHash (hashName .zooKeeper)) hn

namespace ZooKeeperResourceProvider

variable (p : ZooKeeperResourceProvider)

/-! ## The wanted Deployments -/

/-- The Deployment that the apply branch writes for a server, before it is marked for
restarts. -/
def ownedServerDeployment (serverId : ℕ) : Except GoError Deployment := do
  let deployment ← (p.newServerDeploymentForCR serverId).mapError .panic
  let m ← setControllerReference p.cr deployment.metadata
  return { deployment with metadata := m }

/-- The cluster holds the wanted Deployment of a server. -/
def HoldsServer (serverId : ℕ) (w : World) : Prop :=
  ∃ wanted stored, p.ownedServerDeployment serverId = .ok wanted ∧
    w.get? .deployment (serverName p.cr.name serverId) = some stored ∧
    stored.SameUpToRestarts wanted

/-- The cluster holds the wanted Deployments of all servers. -/
def HoldsServers (w : World) : Prop := ∀ i ∈ p.serverIds, p.HoldsServer i w

theorem name_ownedServerDeployment {i : ℕ} {d : Deployment}
    (h : p.ownedServerDeployment i = .ok d) :
    d.metadata.name = serverName p.cr.name i := by
  obtain ⟨built, hbuilt, h⟩ := except_bind_ok_inv h
  obtain ⟨m, hm, h⟩ := except_bind_ok_inv h
  cases h
  rcases hnew : p.newServerDeploymentForCR i with e | d' <;> rw [hnew] at hbuilt <;> cases hbuilt
  exact (name_setControllerReference hm).trans (p.name_newServerDeploymentForCR hnew)

/-- A server's Deployment is given its owner, and its marks, before it is written. -/
theorem applyDeployment_eq (i : ℕ) (secrets : List (Option Secret)) :
    applyDeployment p.cr (p.newServerDeploymentForCR i) secrets = (do
      let d ← lift (p.ownedServerDeployment i)
      createOrUpdateDeployment (applyAutoRestartSecretAnnotations d secrets).1) := by
  simp only [applyDeployment, ownedServerDeployment, build, lift_bind, bind_assoc]
  rfl

/-- A stored Deployment that differs from the wanted one in marks only is held. -/
theorem holdsServer_stored {i v : ℕ} {w : World} {wanted d : Deployment}
    (hwanted : p.ownedServerDeployment i = .ok wanted) (hd : d.SameUpToRestarts wanted)
    (hget : w.get? .deployment (serverName p.cr.name i) = some (Kind.accept .deployment v d)) :
    p.HoldsServer i w :=
  ⟨wanted, _, hwanted, hget, (sameUpToRestarts_accept v d).trans hd⟩

theorem HoldsServer.of_get?_eq {i : ℕ} {w w' : World} (h : p.HoldsServer i w)
    (hget : w'.get? .deployment (serverName p.cr.name i) =
      w.get? .deployment (serverName p.cr.name i)) : p.HoldsServer i w' := by
  obtain ⟨wanted, stored, hwanted, hstored, hsame⟩ := h
  exact ⟨wanted, stored, hwanted, hget.trans hstored, hsame⟩

theorem stable_holdsServer (i : ℕ) : Stable (p.HoldsServer i) :=
  fun _ _ ht hw => hw.of_get?_eq p (ht.get? (Set.notMem_empty _))

/-! ## A pass never loses a Deployment -/

/-- A Deployment is held on while nobody writes it. -/
theorem HoldsServer.of_touches {F : Footprint} {i : ℕ} {w w' : World} (h : p.HoldsServer i w)
    (ht : Touches F.fields w w') (hi : serverName p.cr.name i ∉ F.deployments) :
    p.HoldsServer i w' :=
  h.of_get?_eq p (ht.get? hi)

/-- Steps that do not write it keep it. -/
theorem keeps_of_touches {α : Type} {F : Footprint} {m : Op α} {i : ℕ}
    (h : Within (Touches F.fields) m) (hi : serverName p.cr.name i ∉ F.deployments) :
    Within (Keeps (p.HoldsServer i)) m :=
  h.mono fun _ _ ht hw => hw.of_touches p ht hi

/-- The step that writes a server's Deployment keeps that of every server: it writes the wanted
one, or something under another name. -/
theorem applyDeployment_keeps (i j : ℕ) (secrets : List (Option Secret)) :
    Within (Keeps (p.HoldsServer i))
      (applyDeployment p.cr (p.newServerDeploymentForCR j) secrets) := by
  rw [applyDeployment_eq]
  refine (within_lift _).bind_yields (yields_lift fun d hd => hd) fun d hd => ?_
  refine createOrUpdateDeployment_within (p.stable_holdsServer i) fun w hw => ?_
  have hname : d.metadata.name = serverName p.cr.name j := p.name_ownedServerDeployment hd
  by_cases hij : i = j
  · subst hij
    refine p.holdsServer_stored (v := w.version + 1) hd
      (sameUpToRestarts_applyAutoRestart d secrets) ?_
    rw [← hname]
    exact w.get?_store_self .deployment _
  · refine hw.of_get?_eq p (w.get?_store_of_ne (.inr fun h => hij ?_))
    exact serverName_injective _ (h.trans hname)

/-- Anything but Deployments. -/
def withoutDeployments : Footprint := ⟨Set.univ, ∅, Set.univ, Set.univ⟩

theorem keeps_of_withoutDeployments {α : Type} {m : Op α} (i : ℕ)
    (h : Within (Touches withoutDeployments.fields) m) : Within (Keeps (p.HoldsServer i)) m :=
  p.keeps_of_touches h (Set.notMem_empty _)

/-- The round of one server keeps the Deployment of another; its own it writes again as wanted. -/
theorem applyServer_keeps (i j : ℕ) (rolling : Bool) (secret : Secret) :
    Within (Keeps (p.HoldsServer i)) (p.applyServer rolling secret j) := by
  have quiet {α : Type} {m : Op α} := p.keeps_of_withoutDeployments (m := m) i
  refine (quiet (applyService_touches _ _)).bind fun _ =>
    (quiet (build_touches _)).bind fun claim => ?_
  refine (quiet (applyClaim_touches rfl _)).bind fun _ => ?_
  refine (quiet (createServiceAccount_touches ⟨trivial, by simp⟩)).bind fun _ => ?_
  refine (quiet (p.applyVault_touches (owns_of_univ rfl secret))).bind fun secret => ?_
  refine (p.applyDeployment_keeps i j _).bind fun _ => ?_
  exact (quiet (p.awaitServer_touches _ _)).bind fun _ => within_pure _

theorem mem_serverIds {i : ℕ} : i ∈ p.serverIds ↔ 1 ≤ i ∧ i ≤ p.spec.replicas.toNat := by
  rw [serverIds, List.mem_range'_1]
  omega

theorem mem_excessIds {i n : ℕ} : i ∈ p.excessIds n ↔ p.spec.replicas.toNat < i ∧ i ≤ n := by
  rw [excessIds, List.mem_range'_1]
  omega

/-- The downscale is about servers that are not wanted. -/
theorem scaleDown_keeps {i : ℕ} (hi : i ∈ p.serverIds) (n : ℕ) :
    Within (Keeps (p.HoldsServer i)) (p.scaleDown n) := by
  refine p.keeps_of_touches (F := ⟨∅, serverName p.cr.name '' {j | j ∈ p.excessIds n}, ∅, ∅⟩)
    (p.scaleDown_touches n fun j hj => ⟨j, hj, rfl⟩) ?_
  rintro ⟨j, hj, hname⟩
  have hij : j = i := serverName_injective _ hname
  have hlow := (p.mem_serverIds.mp hi).2
  have hhigh := (p.mem_excessIds.mp hj).1
  omega

/-- The loop over the servers keeps what the servers have been given. -/
theorem applyServers_keeps {i : ℕ} (hi : i ∈ p.serverIds) (secret : Secret) :
    Within (Keeps (p.HoldsServer i)) (p.applyServers secret) := by
  have quiet {α : Type} {m : Op α} := p.keeps_of_withoutDeployments (m := m) i
  refine (quiet (applySnapshotsClaim_touches rfl _ _).whenever).bind fun _ => ?_
  refine (quiet (applyService_touches _ _)).bind fun _ => ?_
  refine (quiet (applyService_touches _ _)).bind fun _ => ?_
  refine (quiet p.getCurrentDeploymentsCount_touches).bind fun n => ?_
  exact (p.scaleDown_keeps hi n).bind fun _ =>
    foldEach_within (fun s j _ => p.applyServer_keeps i j _ s) secret

/-- The apply branch keeps it, also when it fails midway. -/
theorem apply_keeps {i : ℕ} (hi : i ∈ p.serverIds) (secret : Secret) :
    Within (Keeps (p.HoldsServer i)) (p.apply secret) := by
  refine Within.bind ?_ fun _ =>
    (p.keeps_of_withoutDeployments i p.updateZooKeeperStatus_touches).bind fun _ => within_pure _
  split
  · exact p.applyServers_keeps hi secret
  · exact within_pure _

/-- Marks are the one difference that is allowed. -/
theorem markRestarts_keeps (i : ℕ) (secret : Secret) :
    Within (Keeps (p.HoldsServer i)) (p.markRestarts secret) := by
  refine forEach_within fun j _ => updateDeploymentSecretRestartAnnotations_keeps
    (p.stable_holdsServer i) fun w d hw hd => ?_
  have hname : d.metadata.name = serverName p.cr.name j := Store.name_of_get? hd
  by_cases hij : i = j
  · subst hij
    obtain ⟨wanted, stored, hwanted, hstored, hsame⟩ := hw
    obtain rfl : stored = d := Option.some.inj (hstored.symm.trans hd)
    refine p.holdsServer_stored (v := w.version + 1) hwanted
      ((sameUpToRestarts_applyAutoRestart stored [some secret]).trans hsame) ?_
    rw [← hname]
    exact w.get?_store_self .deployment _
  · refine hw.of_get?_eq p (w.get?_store_of_ne (.inr fun h => hij ?_))
    exact serverName_injective _ (h.trans hname)

/-- **A pass keeps the wanted Deployments that are there**, wherever it breaks off. -/
theorem reconcile_keeps {i : ℕ} (hi : i ∈ p.serverIds) :
    Within (Keeps (p.HoldsServer i)) p.reconcile := by
  have quiet {α : Type} {m : Op α} := p.keeps_of_withoutDeployments (m := m) i
  refine Within.bind ?_ fun secret =>
    quiet (remember_touches _ trivial fun s _ => owns_of_univ rfl s)
  refine (quiet (watchOwnSecret_touches _ trivial)).bind fun secret => ?_
  refine (quiet (testChanged_touches Set.univ_nonempty _ _ _)).bind fun isChanged => ?_
  refine Within.bind ?_ fun secret' => (p.markRestarts_keeps i secret').bind fun _ => within_pure _
  split
  · exact p.apply_keeps hi secret
  · exact within_pure _

/-! ## A pass through the apply branch brings them about -/

/-- A Deployment that was applied is held. -/
theorem applyDeployment_establishes (i : ℕ) (secrets : List (Option Secret)) :
    Triple (fun _ => True) (applyDeployment p.cr (p.newServerDeploymentForCR i) secrets)
      (fun _ => p.HoldsServer i) fun _ _ => True := by
  rw [applyDeployment_eq]
  rcases hd : p.ownedServerDeployment i with e | d
  · exact triple_raise fun _ _ => trivial
  · rw [lift_ok, pure_bind]
    refine (createOrUpdateDeployment_stores _).conseq (fun _ h => h)
      (fun _ w h => ?_) fun _ _ h => h
    obtain ⟨v, hv⟩ := h
    refine p.holdsServer_stored (v := v) hd (sameUpToRestarts_applyAutoRestart d secrets) ?_
    rw [← p.name_ownedServerDeployment hd]
    exact hv

/-- The round of a server establishes it. -/
theorem applyServer_establishes (rolling : Bool) (secret : Secret) (i : ℕ) :
    Triple (fun _ => True) (p.applyServer rolling secret i) (fun _ => p.HoldsServer i)
      fun _ _ => True := by
  refine triple_of_last fun _ => triple_of_last fun _ => triple_of_last fun _ => ?_
  refine triple_of_last fun _ => triple_of_last fun secret => ?_
  refine (p.applyDeployment_establishes i _).bind fun _ => ?_
  have hawait := triple_of_keeps (p.keeps_of_withoutDeployments i (p.awaitServer_touches rolling i))
  exact (hawait.conseq (fun _ h => h) (fun _ _ h => h) fun _ _ _ => trivial).bind fun _ =>
    triple_pure fun _ h => h

/-- After so many rounds of the loop, the Deployments of so many servers are there. -/
theorem applyServers_establishes (secret : Secret) :
    Triple (fun _ => True) (p.applyServers secret) (fun _ => p.HoldsServers) fun _ _ => True := by
  refine triple_of_last fun _ => triple_of_last fun _ => triple_of_last fun _ => ?_
  refine triple_of_last fun n => triple_of_last fun _ => ?_
  refine (foldEach_triple (I := fun done _ w => ∀ i ∈ done, p.HoldsServer i w)
    (fun done i rest s _ => ?_) secret).conseq (fun _ _ _ h => by cases h) (fun _ _ h => h)
    fun _ _ h => h
  have hkeep : Within (Keeps fun w => ∀ j ∈ done, p.HoldsServer j w)
      (p.applyServer (p.rolling n) s i) :=
    fun w hw j hj => p.applyServer_keeps j i (p.rolling n) s w (hw j hj)
  refine ((triple_of_keeps hkeep).and (p.applyServer_establishes (p.rolling n) s i)).conseq
    (fun _ h => ⟨h, trivial⟩) (fun _ w h j hj => ?_) fun _ _ _ => trivial
  rcases List.mem_append.mp hj with hj | hj
  · exact h.1 j hj
  · exact List.mem_singleton.mp hj ▸ h.2

/-- After the apply branch all servers have the Deployments they are to have. -/
theorem apply_establishes (secret : Secret) :
    Triple (fun _ => True) (p.apply secret) (fun _ => p.HoldsServers) fun _ _ => True := by
  have hstatus : Within (Keeps p.HoldsServers) p.updateZooKeeperStatus := fun w hw i hi =>
    p.keeps_of_withoutDeployments i p.updateZooKeeperStatus_touches w (hw i hi)
  refine Triple.bind (Q := fun _ => p.HoldsServers) ?_ fun s =>
    ((triple_of_keeps hstatus).conseq (fun _ h => h) (fun _ _ h => h) fun _ _ _ => trivial).bind
      fun _ => triple_pure fun _ h => h
  split
  · exact p.applyServers_establishes secret
  next hreplicas =>
    -- without replicas there is no server to hold a Deployment for
    refine triple_pure fun w _ i hi => absurd (p.mem_serverIds.mp hi) ?_
    omega

/-! ## The hash -/

/-- A closed gate means that the remembered hash is that of the section. -/
theorem recordedHash_of_not_changed {secret : Secret} {w : World}
    (h : changed .zooKeeper (.zooKeeper p.spec) [some secret] w = false) :
    recordedHash w = some (.zooKeeper p.spec) := by
  simp only [changed, Bool.or_eq_false_iff, ne_eq, decide_eq_false_iff_not, not_not] at h
  exact h.1.1

/-- **A pass that returns leaves the wanted Deployments behind**, if a remembered hash of the
section at hand could be trusted before. -/
theorem reconcile_establishes :
    Triple (fun w => recordedHash w = some (.zooKeeper p.spec) → p.HoldsServers w) p.reconcile
      (fun _ => p.HoldsServers) fun _ _ => True := by
  have hkeep {α : Type} {m : Op α} (h : ∀ i ∈ p.serverIds, Within (Keeps (p.HoldsServer i)) m) :
      Triple p.HoldsServers m (fun _ => p.HoldsServers) fun _ _ => True := by
    have hall : Within (Keeps p.HoldsServers) m := fun w hw i hi => h i hi w (hw i hi)
    exact (triple_of_keeps hall).conseq (fun _ h => h) (fun _ _ h => h) fun _ _ _ => trivial
  refine Triple.bind (Q := fun _ => p.HoldsServers) ?_ fun secret => hkeep fun i _ =>
    p.keeps_of_withoutDeployments i (remember_touches _ trivial fun s _ => owns_of_univ rfl s)
  -- watching the Secret concerns neither the hash nor the Deployments
  have hwatch := watchOwnSecret_touches (F := ⟨∅, ∅, {p.spec.secretName}, ∅⟩) p.cr rfl
  refine ((hwatch.triple (P := fun w => recordedHash w = some (.zooKeeper p.spec) →
    p.HoldsServers w) fun w w' hw ht hhash i hi => ?_).conseq (fun _ h => h) (fun _ _ h => h)
    fun _ _ _ => trivial).bind fun secret => ?_
  · have hsame := recordedHash_of_touches ht (Set.notMem_empty _)
    exact (hw (hsame ▸ hhash) i hi).of_touches p ht (Set.notMem_empty _)
  refine Triple.bind (Q := fun isChanged w => isChanged = false → p.HoldsServers w) ?_
    fun isChanged => ?_
  · exact fun w hw hfalse i hi =>
      (hw (p.recordedHash_of_not_changed hfalse) i hi).of_get?_eq p rfl
  · refine Triple.bind (Q := fun _ => p.HoldsServers) ?_ fun secret' =>
      (hkeep fun i _ => p.markRestarts_keeps i secret').bind fun _ => triple_pure fun _ h => h
    cases isChanged with
    | true =>
      exact (p.apply_establishes secret).conseq (fun _ _ => trivial) (fun _ _ h => h) fun _ _ h => h
    | false => exact triple_pure fun _ h => h rfl

/-- The hash changes at the very end of a pass, and only if it returns. -/
theorem reconcile_remembers (digest : Option Digest) :
    Triple (fun w => recordedHash w = digest) p.reconcile
      (fun _ w => recordedHash w = some (.zooKeeper p.spec))
      fun _ w => recordedHash w = digest := by
  have hpass :=
    p.pass_touches (F := ⟨Set.univ, Set.univ, Set.univ, ∅⟩) rfl (fun _ => trivial) trivial
  refine (hpass.triple fun w w' hw ht => ?_).bind fun secret => triple_update fun w _ => ?_
  · exact (recordedHash_of_touches ht (Set.notMem_empty _)).trans hw
  · exact Finmap.lookup_insert _

end ZooKeeperResourceProvider

/-! ## A call of the controller -/

theorem zooKeeperProvider?_eq (p : ZooKeeperResourceProvider) :
    zooKeeperProvider? p.cr = some p := by
  obtain ⟨cr, spec, hspec⟩ := p
  unfold zooKeeperProvider?
  split
  next spec' h =>
    obtain rfl : spec' = spec := Option.some.inj (h.symm.trans hspec)
    rfl
  next h => cases h.symm.trans hspec

/-- The reconcilers that follow the one of ZooKeeper. -/
def otherReconcilers (cr : ZooKeeperService) : List Reconciler :=
  ((monitoringProvider? cr).map Reconciler.monitoring).toList ++
  ((backupDaemonProvider? cr).map Reconciler.backupDaemon).toList ++
  (cr.spec.integrationTests.map Reconciler.integrationTests).toList

/-- ZooKeeper comes first, if there is a section for it. -/
theorem buildReconcilers_eq (p : ZooKeeperResourceProvider) :
    buildReconcilers p.cr = .zooKeeper p :: otherReconcilers p.cr := by
  rw [buildReconcilers, zooKeeperProvider?_eq]
  simp [otherReconcilers]

theorem cr_of_monitoringProvider? {cr : ZooKeeperService} {q : MonitoringResourceProvider}
    (h : monitoringProvider? cr = some q) : q.cr = cr := by
  unfold monitoringProvider? at h
  split at h <;> cases h
  rfl

theorem cr_of_backupDaemonProvider? {cr : ZooKeeperService} {q : BackupDaemonResourceProvider}
    (h : backupDaemonProvider? cr = some q) : q.cr = cr := by
  unfold backupDaemonProvider? at h
  split at h <;> cases h
  rfl

/-- The other components have neither the Deployments of the servers nor the hash of ZooKeeper's
section in their footprints. -/
theorem footprint_otherReconcilers {cr : ZooKeeperService} {r : Reconciler}
    (hr : r ∈ otherReconcilers cr) :
    (∀ i, serverName cr.name i ∉ r.footprint.deployments) ∧
      hashName .zooKeeper ∉ r.footprint.hashes := by
  simp only [otherReconcilers, List.mem_append, Option.mem_toList, Option.map_eq_some_iff] at hr
  rcases hr with (⟨q, hq, rfl⟩ | ⟨q, hq, rfl⟩) | ⟨tests, -, rfl⟩
  · obtain rfl := cr_of_monitoringProvider? hq
    exact ⟨serverName_ne_monitoring q, show hashName .zooKeeper ≠ hashName .monitoring by decide⟩
  · obtain rfl := cr_of_backupDaemonProvider? hq
    exact ⟨serverName_ne_backupDaemon q,
      show hashName .zooKeeper ≠ hashName .backupDaemon by decide⟩
  · exact ⟨fun _ => Set.notMem_empty _, Set.notMem_empty _⟩

namespace ZooKeeperResourceProvider

variable (p : ZooKeeperResourceProvider)

/-- The hash is that of the section at hand, and the Deployments are there. -/
def Settled (w : World) : Prop := recordedHash w = some (.zooKeeper p.spec) ∧ p.HoldsServers w

/-- The hash is that of the section at hand only if the Deployments are there; otherwise it is
still an older one. -/
def Consistent (older : Option Digest) (w : World) : Prop :=
  recordedHash w = older ∧ (older = some (.zooKeeper p.spec) → p.HoldsServers w) ∨ p.Settled w

/-- A consistent memory: where the hash of the section is remembered, the servers are held. -/
theorem Consistent.holdsServers {older : Option Digest} {w : World} (h : p.Consistent older w)
    (hhash : recordedHash w = some (.zooKeeper p.spec)) : p.HoldsServers w := by
  rcases h with ⟨hrecorded, hholds⟩ | hsettled
  · exact hholds (hrecorded ▸ hhash)
  · exact hsettled.2

/-- The fields that have nothing to do with the servers and their hash. -/
def Unconcerned (T : Set Field) : Prop :=
  (∀ i, .object .deployment (serverName p.cr.name i) ∉ T) ∧ .recordedHash (hashName .zooKeeper) ∉ T

theorem unconcerned_statusFields : p.Unconcerned statusFields :=
  ⟨fun _ => by simp [statusFields], by simp [statusFields]⟩

/-- What does not concern the servers keeps them settled. -/
theorem settled_of_touches {T : Set Field} {w w' : World} (hT : p.Unconcerned T)
    (ht : Touches T w w') (h : p.Settled w) : p.Settled w' :=
  ⟨Eq.trans (ht.same _ hT.2) h.1, fun i hi => (h.2 i hi).of_get?_eq p (ht.get? (hT.1 i))⟩

/-- And it keeps the memory consistent. -/
theorem consistent_of_touches {T : Set Field} {older : Option Digest} {w w' : World}
    (hT : p.Unconcerned T) (ht : Touches T w w') (h : p.Consistent older w) :
    p.Consistent older w' := by
  rcases h with ⟨hrecorded, hholds⟩ | hsettled
  · refine .inl ⟨Eq.trans (ht.same _ hT.2) hrecorded, fun holder i hi => ?_⟩
    exact (hholds holder i hi).of_get?_eq p (ht.get? (hT.1 i))
  · exact .inr (p.settled_of_touches hT ht hsettled)

/-- **The pass of ZooKeeper.** It ends settled if it returns, and consistent if not. -/
theorem reconcile_consistent (older : Option Digest) :
    Triple (p.Consistent older) p.reconcile (fun _ => p.Settled) fun _ => p.Consistent older := by
  intro w hw
  rcases hm : p.reconcile w with ⟨u, w'⟩ | ⟨e, w'⟩
  · exact ⟨(p.reconcile_remembers _).ok rfl hm, p.reconcile_establishes.ok (hw.holdsServers p) hm⟩
  · have hrecorded := (p.reconcile_remembers (recordedHash w)).raised rfl hm
    have hkeeps : p.HoldsServers w → p.HoldsServers w' := fun h i hi =>
      (p.reconcile_keeps hi).raised hm (h i hi)
    rcases hw with ⟨hrecorded', hholds⟩ | hsettled
    · exact .inl ⟨hrecorded.trans hrecorded', fun h => hkeeps (hholds h)⟩
    · exact .inr ⟨hrecorded.trans hsettled.1, hkeeps hsettled.2⟩

/-- The passes of all components. -/
theorem reconcileComponents_consistent (older : Option Digest) :
    Triple (p.Consistent older) (reconcileComponents p.cr) (fun _ => p.Settled)
      fun _ => p.Consistent older := by
  rw [reconcileComponents, buildReconcilers_eq, forEach_cons]
  have hreport {m : Op Unit} {describe : GoError → String} {P Q : World → Prop}
      (h : Triple P m (fun _ => Q) fun _ => p.Consistent older) :
      Triple P (reporting describe m) (fun _ => Q) fun _ => p.Consistent older := by
    refine h.recover (fun e k hk => ?_) fun _ _ _ hw => hw
    split at hk <;> cases hk
    have hwrite := (writeFailedStatus_touches (T := {.conditions}) (describe e) rfl).triple
      fun w w' (hw : p.Consistent older w) ht =>
        p.consistent_of_touches ⟨fun _ => by simp, by simp⟩ ht hw
    exact hwrite.bind fun _ => triple_raise fun _ hw => hw
  refine (hreport (p.reconcile_consistent older)).bind fun _ => ?_
  refine forEach_triple (I := fun _ => p.Settled) fun done r rest hrest => hreport ?_
  have hr : r ∈ otherReconcilers p.cr := hrest ▸ List.mem_append_right _ (List.mem_cons_self ..)
  exact (r.reconcile_touches.triple fun w w' hw ht =>
    p.settled_of_touches (T := r.footprint.fields) (footprint_otherReconcilers hr) ht hw).conseq
      (fun _ h => h) (fun _ _ h => h) fun _ _ h => .inr h

/-- **A call of `Reconcile`.** It ends settled if it returns nil, and consistent if not. -/
theorem controller_consistent (older : Option Digest) :
    Triple (fun w => w.cr = some p.cr ∧ p.Consistent older w) Operator.reconcile
      (fun _ => p.Settled) fun _ => p.Consistent older := by
  have hstatus : p.Unconcerned statusFields := p.unconcerned_statusFields
  have hglobal : p.Unconcerned {.globalHash, .conditions} := ⟨fun _ => by simp, by simp⟩
  have hfetch := getInstance_touches (T := statusFields) subset_rfl
  have hquiet {α : Type} {m : Op α} {T : Set Field} (hT : p.Unconcerned T)
      (h : Within (Touches T) m) : Triple (p.Consistent older) m (fun _ => p.Consistent older)
        fun _ => p.Consistent older :=
    h.triple fun _ _ hw ht => p.consistent_of_touches hT ht hw
  have hquiet' {α : Type} {m : Op α} {T : Set Field} (hT : p.Unconcerned T)
      (h : Within (Touches T) m) : Triple p.Settled m (fun _ => p.Settled)
        fun _ => p.Consistent older :=
    (h.triple fun _ _ hw ht => p.settled_of_touches hT ht hw).conseq (fun _ h => h) (fun _ _ h => h)
      fun _ _ h => .inr h
  intro w ⟨hcr, hw⟩
  rcases reconcile_cases hcr with ⟨w', hget, hrun⟩ | ⟨e, w', hget, hrun⟩ <;> rw [hrun]
  · have hw' := p.consistent_of_touches hstatus (hfetch.ok hget) hw
    refine Triple.bind (hquiet hglobal (prepare_touches p.cr (.inl rfl) (.inr rfl)))
      (fun isChanged => ?_) w' hw'
    refine (p.reconcileComponents_consistent older).bind fun _ => ?_
    refine (hquiet' hstatus (updateStatus_touches p.cr (.inl rfl)
      (.inr (.inr (.inl rfl))))).bind fun _ => ?_
    refine (hquiet' hstatus (finishCycle_touches (.inr (.inr (.inr rfl))) p.cr).whenever).bind
      fun _ => ?_
    refine triple_update fun w hw => ⟨?_, fun i hi => (hw.2 i hi).of_get?_eq p rfl⟩
    -- the two hashes that are written last are not the one of the section
    show ((w.resourceHashes.insert "spec" _).insert globalHashName _).lookup _ = _
    rw [Finmap.lookup_insert_of_ne _ (by decide), Finmap.lookup_insert_of_ne _ (by decide)]
    exact hw.1
  · exact p.consistent_of_touches hstatus (hfetch.raised hget) hw

end ZooKeeperResourceProvider

/-! ## Runs -/

/-- The custom resource with another section on ZooKeeper. -/
def ZooKeeperService.withZooKeeper (cr : ZooKeeperService) (z : ZooKeeper) : ZooKeeperService :=
  { cr with spec := { cr.spec with zooKeeper := some z } }

/-- The provider of the objects for a section. -/
def ZooKeeperService.providerFor (cr : ZooKeeperService) (z : ZooKeeper) :
    ZooKeeperResourceProvider :=
  ⟨cr.withZooKeeper z, z, rfl⟩

theorem withZooKeeper_eq {cr : ZooKeeperService} {z : ZooKeeper} (hz : cr.spec.zooKeeper = some z) :
    cr.withZooKeeper z = cr := by
  rw [ZooKeeperService.withZooKeeper, ← hz]

namespace HashGate

/-- What others do between the calls of `Reconcile`. -/
inductive Deed where
  /-- the section on ZooKeeper is edited -/
  | edit (z : ZooKeeper)

/-- The cluster and the controller, with the section that the last call was about. -/
structure Session where
  /-- the cluster and the controller -/
  world : World
  /-- the section on ZooKeeper at the last call of `Reconcile`, if there was one -/
  previous : Option ZooKeeper

namespace Session

variable (s : Session)

/-- The present section on ZooKeeper. -/
def zooKeeper? : Option ZooKeeper := s.world.cr.bind fun cr => cr.spec.zooKeeper

/-- A controller that has just been started: it remembers nothing. -/
def Fresh : Prop :=
  s.world.resourceHashes = ∅ ∧ s.world.resourceVersions = ∅ ∧ s.previous = none

/-- The call of `Reconcile` comes to the reconciler of ZooKeeper in the world `t`. -/
def Reaches (call : Call) (t : World) : Prop :=
  ∃ cr w isChanged, getInstance (call.start s.world) = .ok cr w ∧ prepare cr w = .ok isChanged t

end Session

/-- Edits, and calls of `Reconcile`. -/
def interplay : Interplay Session Deed Call where
  others s
    | .edit z =>
        { s with world := { s.world with cr := s.world.cr.map fun cr => cr.withZooKeeper z } }
  call s call := { world := (reconcile (call.start s.world)).next, previous := s.zooKeeper? }

/-- The reconciler of ZooKeeper does not take its apply branch. -/
def Skips (p : ZooKeeperResourceProvider) (t : World) : Prop :=
  ∃ secret u, watchOwnSecret p.spec.secretName p.cr t = .ok secret u ∧
    changed .zooKeeper (.zooKeeper p.spec) [some secret] u = false

/-- What a call of `Reconcile` should do: when it returns nil the wanted Deployments of the
servers are there, and the apply branch is skipped only if they are there already. -/
def Session.Settles (s : Session) (call : Call) : Prop :=
  ∀ cr z, s.world.cr = some cr → cr.spec.zooKeeper = some z →
    (∀ w', reconcile (call.start s.world) = .ok () w' → (cr.providerFor z).HoldsServers w') ∧
    ∀ t, s.Reaches call t → Skips (cr.providerFor z) t → (cr.providerFor z).HoldsServers t

/-- All calls of a run do what they should. -/
def Session.AlwaysSettles : Session → List (Turn Deed Call) → Prop :=
  interplay.EveryCall Session.Settles

/-- The remembered hash can be trusted: if it is that of the present section, then the last call
was about that section as well. -/
def Session.Trusted (s : Session) : Prop :=
  ∀ z, s.zooKeeper? = some z → recordedHash s.world = some (.zooKeeper z) → s.previous = some z

/-- `Reconcile` is only called when the remembered hash can be trusted. -/
def Session.Careful : Session → List (Turn Deed Call) → Prop :=
  interplay.EveryCall fun s _ => s.Trusted

/-- The invariant: a remembered hash of the section of the last call stands for Deployments that
are there. -/
def Session.Sound (s : Session) : Prop :=
  ∀ cr z, s.world.cr = some cr → recordedHash s.world = some (.zooKeeper z) → s.previous = some z →
    (cr.providerFor z).HoldsServers s.world

/-- A fresh controller remembers nothing, so nothing can be wrong. -/
theorem Session.Fresh.sound {s : Session} (h : s.Fresh) : s.Sound := by
  intro cr z _ _ hprevious
  rw [h.2.2] at hprevious
  cases hprevious

/-- An edit changes neither the hash nor the cluster, nor what the section of the last call
asks for. -/
theorem Session.Sound.edit {s : Session} (h : s.Sound) (z : ZooKeeper) :
    (interplay.others s (.edit z)).Sound := by
  intro cr z' hcr hhash hprevious
  obtain ⟨cr', hcr', rfl⟩ := Option.map_eq_some_iff.mp hcr
  exact fun i hi => (h cr' z' hcr' hhash hprevious i hi).of_get?_eq _ rfl

/-- Before a call that is careful, the world is consistent. -/
theorem Session.Sound.consistent {s : Session} (h : s.Sound) (htrusted : s.Trusted)
    {cr : ZooKeeperService} {z : ZooKeeper} (hcr : s.world.cr = some cr)
    (hz : cr.spec.zooKeeper = some z) (call : Call) :
    (cr.providerFor z).Consistent (recordedHash s.world) (call.start s.world) := by
  refine .inl ⟨rfl, fun hhash i hi => ?_⟩
  have hsection : s.zooKeeper? = some z := by rw [zooKeeper?, hcr, Option.bind_some, hz]
  exact (h cr z hcr hhash (htrusted z hsection hhash) i hi).of_get?_eq _ rfl

/-- A call that is careful keeps the invariant, however it ends. -/
theorem Session.Sound.call {s : Session} (h : s.Sound) (htrusted : s.Trusted) (call : Call) :
    (interplay.call s call).Sound := by
  intro cr z hcr hhash hprevious
  have hsame := (reconcile_touches (call.start s.world)).evolves.cr
  have hcr' : s.world.cr = some cr := hsame.symm.trans hcr
  have hz : cr.spec.zooKeeper = some z := by
    have hsection : s.zooKeeper? = some z := hprevious
    rwa [zooKeeper?, hcr', Option.bind_some] at hsection
  have hbefore : (call.start s.world).cr = some (cr.withZooKeeper z) := by
    rw [withZooKeeper_eq hz]
    exact hcr'
  have hcall := (cr.providerFor z).controller_consistent (recordedHash s.world)
    (call.start s.world) ⟨hbefore, h.consistent htrusted hcr' hz call⟩
  revert hcall hhash
  simp only [interplay]
  rcases reconcile (call.start s.world) with ⟨u, w'⟩ | ⟨e, w'⟩
  · exact fun _ hsettled => hsettled.2
  · exact fun hhash hconsistent => hconsistent.holdsServers _ hhash

/-- A call that is careful does what it should. -/
theorem Session.Sound.settles {s : Session} (h : s.Sound) (htrusted : s.Trusted) (call : Call) :
    s.Settles call := by
  intro cr z hcr hz
  have hconsistent := h.consistent htrusted hcr hz call
  have hbefore : (call.start s.world).cr = some (cr.withZooKeeper z) := by
    rw [withZooKeeper_eq hz]
    exact hcr
  refine ⟨fun w' hrun => ?_, ?_⟩
  · exact (((cr.providerFor z).controller_consistent _).ok ⟨hbefore, hconsistent⟩ hrun).2
  · rintro t ⟨cr', w, isChanged, hget, hprepare⟩ ⟨secret, u, hwatch, hskip⟩
    have hfetch := (getInstance_touches (T := statusFields) subset_rfl).ok hget
    have hprepared : Touches {.globalHash, .conditions} w t :=
      (prepare_touches cr' (.inl rfl) (.inr rfl)).ok hprepare
    have hreached := (cr.providerFor z).consistent_of_touches ⟨fun _ => by simp, by simp⟩ hprepared
      ((cr.providerFor z).consistent_of_touches (cr.providerFor z).unconcerned_statusFields
        hfetch hconsistent)
    refine hreached.holdsServers _ ?_
    have hwatched := (watchOwnSecret_touches
      (F := ⟨∅, ∅, {(cr.providerFor z).spec.secretName}, ∅⟩) _ rfl).ok hwatch
    rw [← recordedHash_of_touches hwatched (Set.notMem_empty _)]
    exact (cr.providerFor z).recordedHash_of_not_changed hskip

/-- Edits keep the invariant, and so do calls from a memory that can be trusted. -/
theorem invariant_sound : interplay.Invariant (fun s _ => s.Trusted) Session.Sound where
  others
    | _, .edit z, hsound => hsound.edit z
  call _ call hsound htrusted := hsound.call htrusted call

/-- **The hash gate is right in every careful run.** From a fresh controller on, and whatever
fails on the way: if `Reconcile` is never called on the section whose hash is remembered right
after a call on another section, then every call that returns nil leaves the wanted
Deployments behind, and the apply branch is skipped only when they are there. -/
theorem alwaysSettles_of_careful {s : Session} (hfresh : s.Fresh) (turns : List (Turn Deed Call))
    (hcareful : s.Careful turns) : s.AlwaysSettles turns :=
  invariant_sound.everyCall (fun _ call hsound htrusted => hsound.settles htrusted call)
    hfresh.sound hcareful

/-! ### A run that is careful, and one that is not -/

instance (s : Session) : Decidable s.Trusted :=
  inferInstanceAs (Decidable (∀ z ∈ s.zooKeeper?, recordedHash s.world = some (.zooKeeper z) →
    s.previous = some z))

instance (s : Session) (turns : List (Turn Deed Call)) : Decidable (s.Careful turns) :=
  interplay.decidableEveryCall s turns

/-- A section on one server with an image. -/
def sampleZooKeeper (image : String) : ZooKeeper where
  dockerImage := image
  replicas := 1
  storage := { size := .of "1Gi" }
  snapshotStorage := { volumeSize := .of "1Gi" }
  heapSize := 256
  secretName := "zookeeper-secret"

/-- An environment in which there is nothing to wait for. -/
def calm : Environment where
  observe _ _ := { pods := [], statuses := fun _ => {} }
  password _ := "password"

/-- A custom resource with nothing but servers. -/
def sampleResource : ZooKeeperService where
  name := "zookeeper"
  namespaceName := "zk"
  spec := { global := some {}, zooKeeper := some (sampleZooKeeper "zookeeper:1") }

/-- A cluster with the Secret of ZooKeeper and nothing else, and a fresh controller. -/
def sampleSession : Session where
  world :=
    { cr := some sampleResource
      environment := calm
      objects
        | .secret =>
            Store.put ∅ { metadata := { name := "zookeeper-secret", resourceVersion := 1 } }
        | _ => ∅
      version := 1 }
  previous := none

/-- The seventeenth request fails: the one that follows the update of the server's
Deployment. -/
def failsMidway : List Fault := List.replicate 16 .none ++ [.refused .unavailable]

/-- An update that breaks off midway and is tried again. -/
def retriedRun : List (Turn Deed Call) :=
  [.call ⟨[], calm⟩, .others (.edit (sampleZooKeeper "zookeeper:2")), .call ⟨failsMidway, calm⟩,
   .call ⟨[], calm⟩]

/-- An update that breaks off midway and is taken back. -/
def revertedRun : List (Turn Deed Call) :=
  [.call ⟨[], calm⟩, .others (.edit (sampleZooKeeper "zookeeper:2")), .call ⟨failsMidway, calm⟩,
   .others (.edit (sampleZooKeeper "zookeeper:1")), .call ⟨[], calm⟩]

theorem fresh_sampleSession : sampleSession.Fresh := ⟨rfl, rfl, rfl⟩

/-- An update that is tried again is carried through. -/
theorem alwaysSettles_retriedRun :
    sampleSession.Fresh ∧ sampleSession.Careful retriedRun ∧
      sampleSession.AlwaysSettles retriedRun := by
  have hcareful : sampleSession.Careful retriedRun := by decide +kernel
  exact ⟨fresh_sampleSession, hcareful, alwaysSettles_of_careful fresh_sampleSession _ hcareful⟩

/-- The images of a Deployment. -/
def images (d : Deployment) : List String := d.podSpec.containers.map (·.image)

/-- **An update that is taken back stays.** The last call returns nil, but the server still
has the image of the update that broke off. -/
theorem not_alwaysSettles_revertedRun :
    sampleSession.Fresh ∧ ¬ sampleSession.AlwaysSettles revertedRun := by
  refine ⟨fresh_sampleSession, ?_⟩
  rintro ⟨-, -, hlast, -⟩
  let last := interplay.run sampleSession (revertedRun.take 4)
  have hcr : last.world.cr = some sampleResource := by decide +kernel
  obtain ⟨u, w', hrun⟩ := Outcome.returned_iff.mp
    (show (reconcile (Call.start ⟨[], calm⟩ last.world)).returned = true by decide +kernel)
  have hserver : 1 ∈ (sampleResource.providerFor (sampleZooKeeper "zookeeper:1")).serverIds := by
    decide
  obtain ⟨wanted, stored, hwanted, hstored, hsame⟩ :=
    (hlast sampleResource (sampleZooKeeper "zookeeper:1") hcr rfl).1 w' hrun 1 hserver
  -- what is stored has the image of the update, what is wanted has the one before
  have hwantedImages : ((sampleResource.providerFor
      (sampleZooKeeper "zookeeper:1")).ownedServerDeployment 1).toOption.map images =
      some ["zookeeper:1"] := by decide +kernel
  have hstoredImages :
      ((reconcile (Call.start ⟨[], calm⟩ last.world)).next.get? .deployment "zookeeper-1").map
      images = some ["zookeeper:2"] := by decide +kernel
  have hname : serverName (sampleResource.providerFor (sampleZooKeeper "zookeeper:1")).cr.name 1 =
      "zookeeper-1" := by decide
  rw [hname] at hstored
  rw [hwanted] at hwantedImages
  rw [hrun, Outcome.next_ok, hstored] at hstoredImages
  have himages : images stored = images wanted := by rw [images, images, hsame.podSpec_eq]
  have : (some ["zookeeper:2"] : Option (List String)) = some ["zookeeper:1"] :=
    hstoredImages.symm.trans ((congrArg some himages).trans hwantedImages)
  revert this
  decide

end HashGate

end QubershipZookeeper.Operator
