import QubershipZookeeper.CredentialsRefresh
import QubershipZookeeper.Panics
import QubershipZookeeper.SecretPassages

/-!
# Calls that do not panic

What a call of `Reconcile` needs so as not to panic, as a condition on the custom resource and on
what it finds in the cluster (`ZooKeeperService.Sound`). The components share one thing: the
map of Secret versions, which only ZooKeeper makes and in which the backup daemon writes as well
(`ZooKeeperService.Recording`).
-/

namespace QubershipZookeeper.Operator

open Proc

/-! ## Steps of all components -/

section Steps

variable {annotations : StringMap}

/-- A steady step aside of claims, Secrets and their records is quiet. -/
theorem quiet_of_aside {α : Type} {m : Op α} (hm : Steady m)
    (h : Within (Touches aside.fields) m) : Quiet annotations m :=
  ⟨hm, aside_preserves h⟩

/-- A steady step that only writes to Vault is quiet. -/
theorem quiet_of_vault {α : Type} {m : Op α} (hm : Steady m) (h : Within (Touches {.vault}) m) :
    Quiet annotations m :=
  ⟨hm, vault_preserves h⟩

/-- Every builder of a Service only needs the global section. -/
theorem applyService_quiet {cr : ZooKeeperService} {service : Global → Service}
    (hglobal : cr.spec.global.isSome) :
    Quiet annotations (applyService cr (do return service (← deref cr.spec.global))) :=
  quiet_of_aside (applyService_steady cr (except_bind_ok (deref_ok hglobal) fun _ _ => ⟨_, rfl⟩))
    (applyService_touches cr _)

theorem createServiceAccount_quiet (account : ServiceAccount) :
    Quiet annotations (createServiceAccount account) :=
  quiet_of_aside (createServiceAccount_steady account)
    (createServiceAccount_touches ⟨trivial, by simp⟩)

/-- Deployments are applied quietly once they can be built. -/
theorem applyDeployment_quiet (cr : ZooKeeperService) {deployment : Except Panic Deployment}
    (h : ∃ d, deployment = .ok d) (secrets : List (Option Secret)) :
    Quiet annotations (applyDeployment cr deployment secrets) :=
  quiet_of_aside (applyDeployment_steady cr h secrets)
    (applyDeployment_touches cr secrets fun _ _ => trivial)

theorem updateDeploymentSecretRestartAnnotations_quiet (name : String)
    (secrets : List (Option Secret)) :
    Quiet annotations (updateDeploymentSecretRestartAnnotations name secrets) :=
  quiet_of_aside (updateDeploymentSecretRestartAnnotations_steady name secrets)
    (updateDeploymentSecretRestartAnnotations_touches secrets ⟨trivial, fun _ => ⟨name, trivial⟩⟩)

/-- What is only recorded about Secrets and hashes. -/
theorem preserves_of_records {w w' : World} (hevolves : Evolves w w')
    (hobjects : w'.objects = w.objects)
    (hstatus : w'.status = w.status) : Preserves annotations w w' := by
  have hget (k : Kind) (n : String) : w'.get? k n = w.get? k n := by
    rw [World.get?, World.get?, hobjects]
  exact ⟨hevolves, fun _ => ⟨by rw [hstatus], fun n => bareClaim_congr (hget _ n)⟩,
    fun n hn s hs => hn s ((hget _ n).symm.trans hs),
    fun n hn s hs => hn s ((hget _ n).symm.trans hs),
    fun hv => by rwa [hstatus]⟩

theorem testChanged_quiet (c : Component) (digest : Digest) (secrets : List (Option Secret)) :
    Quiet annotations (testChanged c digest secrets) :=
  ⟨testChanged_steady c digest secrets, fun w => preserves_of_records
    (testChanged_touches (F := ⟨∅, ∅, Set.univ, ∅⟩) Set.univ_nonempty c digest secrets w).evolves
    rfl
    rfl⟩

theorem remember_quiet (c : Component) (digest : Digest) (secrets : List (Option Secret)) :
    Quiet annotations (remember c digest secrets) :=
  ⟨raises_update _, fun w => preserves_of_records { Evolves.refl w with } rfl rfl⟩

theorem newPasswordGenerator_quiet (cr : ZooKeeperService) (vault : VaultSecretManagement) :
    Quiet annotations (newPasswordGenerator cr vault) :=
  quiet_of_vault (newPasswordGenerator_steady cr vault)
    (newPasswordGenerator_touches (Set.mem_singleton _) cr vault)

theorem ensureVaultPolicy_quiet (policyName policy : String) (secret : Secret) :
    Quiet annotations (ensureVaultPolicy policyName policy secret) :=
  quiet_of_vault (ensureVaultPolicy_steady _ _ _)
    (ensureVaultPolicy_touches (Set.mem_singleton _) _ _ _)

theorem ensureVaultRole_quiet (roleName : String) (role : VaultRole) (vault : VaultSecretManagement)
    (secret : Secret) : Quiet annotations (ensureVaultRole roleName role vault secret) :=
  quiet_of_vault (ensureVaultRole_steady _ _ _ _)
    (ensureVaultRole_touches (Set.mem_singleton _) _ _ _ _)

/-- Cleaning a Secret with annotations is quiet. -/
theorem cleanSecret_quiet (c : Component) {secret : Secret} (h : secret.Annotated) :
    Quiet annotations (cleanSecret c secret) :=
  ⟨cleanSecret_steady c h, cleanSecret_preserves c secret⟩

/-- The own Secret of a component, with what is known of the stored one. -/
theorem watchOwnSecret_safe {P : World → Prop} (n : String) (cr : ZooKeeperService)
    (hP : ∀ w w', P w → Preserves annotations w w' → P w') :
    Triple P (watchOwnSecret n cr) (fun secret w => P w ∧ HoldsOwn n secret w)
      fun e _ => Ordinary e :=
  ((Safe.of_steady (watchOwnSecret_steady n cr) (watchOwnSecret_preserves n cr) hP).and
    (watchOwnSecret_holds n cr)).conseq (fun _ hw => ⟨hw, trivial⟩) (fun _ _ hw => hw)
    fun _ _ hw => hw.1

/-- The Secret that a pass works with is the stored one, so it has annotations if that one has. -/
theorem HoldsOwn.annotated {n : String} {secret : Secret} {w : World} (h : HoldsOwn n secret w)
    (hw : w.Annotated n) : secret.Annotated := by
  rcases h with h | ⟨rfl, -⟩
  · exact hw secret h
  · exact annotated_of_data rfl

theorem HoldsOwn.unasked {n : String} {secret : Secret} {w : World} (h : HoldsOwn n secret w)
    (hw : w.Unasked n) : needToRefreshCredentials secret = false := by
  rcases h with h | ⟨rfl, -⟩
  · exact hw secret h
  · rfl

end Steps

/-! ## ZooKeeper -/

namespace ZooKeeperResourceProvider

variable (p : ZooKeeperResourceProvider)

/-- What ZooKeeper's pass needs so as not to panic. -/
structure Sound (w : World) : Prop where
  storage : p.StorageFits
  snapshots : p.hasSnapshotsClaim = true → 0 < p.spec.replicas →
    p.spec.snapshotStorage.Fits ∧ p.spec.snapshotStorage.Takes p.cr w
  claims : ∀ i ∈ p.serverIds, p.DataProvided i → w.Takes (claimAnnotations p.cr) (p.dataClaimName i)
  secret : p.cr.vault?.isSome → 0 < p.spec.replicas → w.Annotated p.spec.secretName
  whole : p.cr.vault?.isSome → w.Whole

variable {p}

/-- What ZooKeeper's pass needs is preserved. -/
theorem Sound.preserves (w w' : World) (h : p.Sound w)
    (hw : Preserves (claimAnnotations p.cr) w w') : p.Sound w' where
  storage := h.storage
  snapshots hclaim hpos := ⟨(h.snapshots hclaim hpos).1, (h.snapshots hclaim hpos).2.preserves hw⟩
  claims i hi hprovided := hw.takes (h.claims i hi hprovided)
  secret hvault hpos := hw.annotated _ (h.secret hvault hpos)
  whole hvault := hw.whole (h.whole hvault)

/-- The map of Secret versions has been made, if there is anything to be written into it. -/
def Recording (p : ZooKeeperResourceProvider) (w : World) : Prop :=
  p.cr.vault?.isSome → w.status.secretVersions.isSome

theorem Recording.preserves {annotations : StringMap} (w w' : World) (h : p.Recording w)
    (hw : Preserves annotations w w') : p.Recording w' :=
  fun hvault => hw.versions (h hvault)

theorem writePolicies_quiet {annotations : StringMap} (vault : VaultSecretManagement)
    (secret : Secret) : Quiet annotations (p.writePolicies vault secret) :=
  (ensureVaultPolicy_quiet _ _ _).bind fun _ => (ensureVaultRole_quiet _ _ _ _).bind fun _ =>
    ensureVaultPolicy_quiet _ _ _

/-- ZooKeeper makes the map of Secret versions before it writes into it. -/
theorem processVaultSecrets_ordinary (vault : VaultSecretManagement) {secret : Secret}
    (h : secret.Annotated) :
    Triple World.Whole (p.processVaultSecrets vault secret)
      (fun _ => World.Recordable) fun e _ => Ordinary e := by
  have hkept : ∀ w w', w.Recordable → Preserves ∅ w w' → w'.Recordable :=
    fun _ _ hw hp => hw.preserves hp
  have huser (name key : String) (generator : PasswordGenerator) :
      Safe World.Recordable (processUserCredentials vault name key secret generator) :=
    .of_triple ((processUserCredentials_ordinary vault name key secret generator).conseq
      (fun _ hw => ⟨.inl hw.versions, hw.whole⟩) (fun _ _ h => h) fun _ _ h => h)
      (vault_preserves (processUserCredentials_touches (Set.mem_singleton _) _ _ _ _ _)) hkept
  refine Triple.bind (Q := fun _ => World.Recordable) (triple_update fun _ hw => ⟨rfl, hw⟩)
    fun _ => ?_
  refine ((p.writePolicies_quiet vault secret).whenever.safe hkept).bind fun _ => ?_
  refine ((newPasswordGenerator_quiet p.cr vault).safe hkept).bind fun generator => ?_
  refine (huser _ _ generator).bind fun _ => (huser _ _ generator).bind fun _ => ?_
  refine (Safe.of_triple (processAdditionalUsersCredentials_ordinary p.cr vault secret generator)
    (vault_preserves (processAdditionalUsersCredentials_touches (Set.mem_singleton _) _ _ _ _))
    hkept).bind fun _ => ?_
  exact (cleanSecret_quiet .zooKeeper h).safe hkept

/-- Vault's part of ZooKeeper's pass does not panic, and leaves a map of Secret versions behind. -/
theorem applyVault_ordinary {secret : Secret} (h : p.cr.vault?.isSome → secret.Annotated) :
    Triple (fun w => p.cr.vault?.isSome → w.Whole) (p.applyVault secret) (fun _ => p.Recording)
      fun e _ => Ordinary e := by
  unfold applyVault Recording
  rcases hvault : p.cr.vault? with - | vault
  · exact triple_pure fun _ _ hnone => by cases hnone
  · exact (p.processVaultSecrets_ordinary vault (h (by rw [hvault]; rfl))).conseq
      (fun _ hw => hw rfl) (fun _ _ hw _ => hw.versions) fun _ _ h => h

theorem applyVault_preserves {annotations : StringMap} (secret : Secret) :
    Within (Preserves annotations) (p.applyVault secret) := by
  unfold applyVault
  rcases p.cr.vault? with - | vault
  · exact within_pure _
  · have hvault : Field.vault ∈ ({.vault} : Set Field) := rfl
    refine Within.bind (fun w => ?_) fun _ => ?_
    · exact ⟨(touches_secretVersions (T := Set.univ) w _ trivial).evolves,
        fun _ => ⟨rfl, fun _ => Iff.rfl⟩, fun _ h => h, fun _ h => h, fun _ => rfl⟩
    refine (p.writePolicies_quiet vault secret).whenever.preserves.bind fun _ => ?_
    refine (newPasswordGenerator_quiet p.cr vault).preserves.bind fun generator => ?_
    refine (vault_preserves (processUserCredentials_touches hvault _ _ _ _ _)).bind fun _ => ?_
    refine (vault_preserves (processUserCredentials_touches hvault _ _ _ _ _)).bind fun _ => ?_
    exact (vault_preserves (processAdditionalUsersCredentials_touches hvault _ _ _ _)).bind fun _ =>
      cleanSecret_preserves _ _

/-- The Secret it returns can be cleaned again. -/
theorem applyVault_annotated {secret : Secret} (h : p.cr.vault?.isSome → secret.Annotated) :
    Yields (fun s => p.cr.vault?.isSome → s.Annotated) (p.applyVault secret) := by
  unfold applyVault
  rcases hvault : p.cr.vault? with - | vault
  · exact yields_pure fun hnone => by cases hnone
  · refine yields_of_last fun _ => yields_of_last fun _ => yields_of_last fun _ => ?_
    refine yields_of_last fun _ => yields_of_last fun _ => yields_of_last fun _ => ?_
    have hannotated := h (by rw [hvault]; rfl)
    exact fun w s w' hw _ => cleanSecret_annotated .zooKeeper hannotated w s w' hw

theorem updateZooKeeperStatus_quiet {annotations : StringMap} :
    Quiet annotations p.updateZooKeeperStatus :=
  quiet_of_aside (updatePodStatus_steady _ _) p.updateZooKeeperStatus_touches

/-- Waiting for a server reads the global section, and is quiet if there is one. -/
theorem awaitServer_quiet {annotations : StringMap} (hglobal : p.cr.spec.global.isSome)
    (rolling : Bool) (i : ℕ) : Quiet annotations (p.awaitServer rolling i) := by
  have hrunning : Steady (p.isPodRunning (serverName p.cr.name i)) :=
    (build_steady (deref_ok hglobal)).bind fun _ => (listPods_steady _).bind fun _ =>
      (listPods_steady _).bind fun _ => raises_pure _
  have hready : Steady (do sleep; poll (tries 300) (isDeploymentReady (serverName p.cr.name i))) :=
    (raises_update _).bind fun _ => poll_steady (isDeploymentReady_steady _) _
  exact quiet_of_aside ((poll_steady hrunning _).bind fun _ => hready.whenever)
    (p.awaitServer_touches rolling i)

section Pass

variable {P : World → Prop}

/-- One round of the loop over the servers. -/
theorem applyServer_safe (hP : ∀ w w', P w → Preserves (claimAnnotations p.cr) w w' → P w')
    (hsound : ∀ w, P w → p.Sound w) (hglobal : p.cr.spec.global.isSome) (rolling : Bool)
    {secret : Secret} (h : p.cr.vault?.isSome → secret.Annotated) {i : ℕ} (hi : i ∈ p.serverIds) :
    Triple P (p.applyServer rolling secret i)
      (fun s w => (P w ∧ p.Recording w) ∧ (p.cr.vault?.isSome → s.Annotated))
      fun e _ => Ordinary e := by
  refine ((applyService_quiet hglobal).safe hP).bind fun _ => ?_
  -- the storage is part of the custom resource, so that the condition on it holds from here on
  refine Triple.of_fact (fun w hw => (hsound w hw).storage) fun hstorage => ?_
  obtain ⟨claim, hclaim⟩ := hstorage.claim_ok hglobal hi
  have happly : Safe P (applyClaim claim) := by
    refine .of_triple ((applyClaim_ordinary claim).conseq (fun w hw c hc => ?_) (fun _ _ h => h)
      fun _ _ h => h) (applyClaim_preserves fun c hc => ?_) hP
    · obtain ⟨hprovided, hname⟩ :=
        (p.name_newZooKeeperPersistentVolumeClaimForCR hclaim c.metadata.name).mp ⟨c, hc, rfl⟩
      rw [World.ClaimApplies, wanted_of_storedAnnotations
        (p.made_newZooKeeperPersistentVolumeClaimForCR (hc ▸ hclaim)).annotations, hname]
      exact (hsound w hw).claims i hi hprovided
    · exact (p.made_newZooKeeperPersistentVolumeClaimForCR (hc ▸ hclaim)).annotations
  rw [hclaim]
  refine Triple.bind (Q := fun c w => P w ∧ c = claim) (fun _ hw => ⟨hw, rfl⟩) fun built => ?_
  refine Triple.of_fact (fun _ hw => hw.2) fun hbuilt => ?_
  subst hbuilt
  refine Triple.conseq (P := P) ?_ (fun _ hw => hw.1) (fun _ _ h => h) fun _ _ h => h
  refine happly.bind fun _ => ((createServiceAccount_quiet _).safe hP).bind fun _ => ?_
  have hvault : Triple P (p.applyVault secret)
      (fun s w => (P w ∧ p.Recording w) ∧ (p.cr.vault?.isSome → s.Annotated))
      fun e _ => Ordinary e :=
    (((applyVault_ordinary h).and ((applyVault_preserves secret).triple hP)).and_yields
      (applyVault_annotated h)).conseq (fun w hw => ⟨(hsound w hw).whole, hw⟩)
      (fun _ _ hw => ⟨⟨hw.1.2, hw.1.1⟩, hw.2⟩) fun _ _ hw => hw.1
  refine hvault.bind fun s => Triple.of_fact (fun _ hw => hw.2) fun hs => ?_
  have hkept : ∀ w w', P w ∧ p.Recording w → Preserves (claimAnnotations p.cr) w w' →
      P w' ∧ p.Recording w' :=
    fun w w' hw hp => ⟨hP w w' hw.1 hp, hw.2.preserves w w' hp⟩
  refine Triple.conseq (P := fun w => P w ∧ p.Recording w) ?_ (fun _ hw => hw.1) (fun _ _ h => h)
    fun _ _ h => h
  refine ((applyDeployment_quiet p.cr (hstorage.deployment_ok hglobal hi) _).safe hkept).bind
    fun _ => ?_
  exact ((awaitServer_quiet hglobal rolling i).safe hkept).bind fun _ =>
    triple_pure fun _ hw => ⟨hw, hs⟩

theorem serverIds_ne_nil (h : 0 < p.spec.replicas) : p.serverIds ≠ [] := by
  intro hnil
  have hlength : p.serverIds.length = p.spec.replicas.toNat := List.length_range' ..
  rw [hnil, List.length_nil] at hlength
  omega

/-- The loop over the servers does not panic. -/
theorem applyServers_safe (hP : ∀ w w', P w → Preserves (claimAnnotations p.cr) w w' → P w')
    (hsound : ∀ w, P w → p.Sound w) (hglobal : p.cr.spec.global.isSome)
    (hpos : 0 < p.spec.replicas) {secret : Secret} (h : p.cr.vault?.isSome → secret.Annotated) :
    Triple P (p.applyServers secret) (fun _ w => P w ∧ p.Recording w) fun e _ => Ordinary e := by
  have hsnapshots : Safe P (whenever p.hasSnapshotsClaim
      (applySnapshotsClaim p.spec.snapshotStorage p.cr)) := by
    refine Triple.whenever (fun hclaim => ?_) fun _ _ hw => hw
    refine Triple.of_fact (fun w hw => ((hsound w hw).snapshots hclaim hpos).1) fun hfits => ?_
    exact Safe.of_triple ((applySnapshotsClaim_ordinary hglobal hfits).conseq
      (fun w hw => ((hsound w hw).snapshots hclaim hpos).2) (fun _ _ h => h) fun _ _ h => h)
      (applySnapshotsClaim_preserves _ _) hP
  refine hsnapshots.bind fun _ => ((applyService_quiet hglobal).safe hP).bind fun _ => ?_
  refine ((applyService_quiet hglobal).safe hP).bind fun _ => ?_
  refine ((quiet_of_aside ((request_steady (raises_observe _)).bind fun _ => raises_pure _)
    p.getCurrentDeploymentsCount_touches).safe hP).bind fun currentReplicas => ?_
  refine ((quiet_of_aside (forEach_raises fun i _ => scaleDeployment_steady _ _)
    (p.scaleDown_touches currentReplicas fun _ _ => trivial)).safe hP).bind fun _ => ?_
  refine (foldEach_triple (I := fun done s w => P w ∧ (done ≠ [] → p.Recording w) ∧
    (p.cr.vault?.isSome → s.Annotated)) (fun done i rest s hlist => ?_) secret).conseq
    (fun _ hw => ⟨hw, fun hnil => (hnil rfl).elim, h⟩)
    (fun _ _ hw => ⟨hw.1, hw.2.1 (serverIds_ne_nil hpos)⟩) fun _ _ h => h
  refine Triple.of_fact (fun _ hw => hw.2.2) fun hs => ?_
  exact (applyServer_safe hP hsound hglobal _ hs (hlist ▸ List.mem_append_cons_self)).conseq
    (fun _ hw => hw.1) (fun _ _ hw => ⟨hw.1.1, fun _ => hw.1.2, hw.2⟩) fun _ _ h => h

/-- ZooKeeper goes through its apply branch, because its section or the global one has changed,
and it has servers. -/
structure Overdue (p : ZooKeeperResourceProvider) (w : World) : Prop where
  servers : 0 < p.spec.replicas
  changed : w.resourceHashes.lookup (hashName .zooKeeper) ≠ some (.zooKeeper p.spec) ∨
    w.resourceHashes.lookup globalHashName ≠ some (.global p.cr.spec.global)

/-- A pass that is overdue stays so while no hash is remembered. -/
theorem Overdue.of_touches {T : Set Field} {w w' : World} (h : p.Overdue w) (ht : Touches T w w')
    (hT : ∀ n, .recordedHash n ∉ T) : p.Overdue w' := by
  have hsame (n : String) : w'.resourceHashes.lookup n = w.resourceHashes.lookup n :=
    ht.same (.recordedHash n) (hT n)
  refine ⟨h.servers, ?_⟩
  rw [hsame, hsame]
  exact h.changed

/-- An overdue pass finds that something has changed. -/
theorem changed_of_overdue {w : World} (h : p.Overdue w) (hglobal : GlobalHashed p.cr w)
    (secrets : List (Option Secret)) : changed .zooKeeper (.zooKeeper p.spec) secrets w = true := by
  rw [changed, show w.globalSpecHash = _ from hglobal]
  rcases h.changed with hne | hne <;> simp [hne]

/-- The apply branch makes the map of Secret versions, if there are servers. -/
theorem apply_safe (hP : ∀ w w', P w → Preserves (claimAnnotations p.cr) w w' → P w')
    (hsound : ∀ w, P w → p.Sound w) (hglobal : p.cr.spec.global.isSome) {secret : Secret}
    (h : 0 < p.spec.replicas → p.cr.vault?.isSome → secret.Annotated) :
    Triple P (p.apply secret) (fun _ w => P w ∧ (0 < p.spec.replicas → p.Recording w))
      fun e _ => Ordinary e := by
  have hkept : ∀ w w', P w ∧ (0 < p.spec.replicas → p.Recording w) →
      Preserves (claimAnnotations p.cr) w w' → P w' ∧ (0 < p.spec.replicas → p.Recording w') :=
    fun w w' hw hp => ⟨hP w w' hw.1 hp, fun hpos => (hw.2 hpos).preserves w w' hp⟩
  refine Triple.bind (Q := fun _ w => P w ∧ (0 < p.spec.replicas → p.Recording w)) ?_ fun s =>
    (updateZooKeeperStatus_quiet.safe hkept).bind fun _ => triple_pure fun _ hw => hw
  split
  next hpos =>
    exact (applyServers_safe hP hsound hglobal hpos (h hpos)).conseq (fun _ hw => hw)
      (fun _ _ hw => ⟨hw.1, fun _ => hw.2⟩) fun _ _ h => h
  next hpos => exact triple_pure fun _ hw => ⟨hw, fun h => absurd h hpos⟩

/-- ZooKeeper's pass does not panic, and makes the map of Secret versions if it is overdue. -/
theorem reconcile_safe (hP : ∀ w w', P w → Preserves (claimAnnotations p.cr) w w' → P w')
    (hsound : ∀ w, P w → p.Sound w) (hglobal : p.cr.spec.global.isSome) (overdue : Prop) :
    Triple (fun w => P w ∧ (overdue → p.Overdue w ∧ GlobalHashed p.cr w)) p.reconcile
      (fun _ w => P w ∧ (overdue → p.Recording w)) fun e _ => Ordinary e := by
  have hkept : ∀ w w', P w ∧ (overdue → p.Recording w) →
      Preserves (claimAnnotations p.cr) w w' → P w' ∧ (overdue → p.Recording w') :=
    fun w w' hw hp => ⟨hP w w' hw.1 hp, fun ho => (hw.2 ho).preserves w w' hp⟩
  refine Triple.bind (Q := fun _ w => P w ∧ (overdue → p.Recording w)) ?_ fun secret =>
    (remember_quiet _ _ _).safe hkept
  have hwatch : Triple (fun w => P w ∧ (overdue → p.Overdue w ∧ GlobalHashed p.cr w))
      (watchOwnSecret p.spec.secretName p.cr) (fun secret w => (P w ∧
        HoldsOwn p.spec.secretName secret w) ∧ (overdue → p.Overdue w ∧ GlobalHashed p.cr w))
      fun e _ => Ordinary e :=
    ((watchOwnSecret_safe p.spec.secretName p.cr hP).and
      ((watchOwnSecret_writes (T := {.object .secret p.spec.secretName}) p.cr ⟨rfl, by simp⟩).triple
        fun w w' (hw : overdue → p.Overdue w ∧ GlobalHashed p.cr w) ht ho =>
          ⟨(hw ho).1.of_touches ht (by simp), (hw ho).2.of_touches ht (by simp)⟩)).conseq
      (fun _ hw => hw) (fun _ _ hw => hw) fun _ _ hw => hw.1
  refine hwatch.bind fun secret => ?_
  -- an overdue pass finds a change, so that the servers are applied and the map is made
  refine Triple.bind (Q := fun isChanged w => P w ∧ (0 < p.spec.replicas →
    p.cr.vault?.isSome → secret.Annotated) ∧ (overdue → isChanged = true ∧ 0 < p.spec.replicas))
    (fun w hw => ?_) fun isChanged => ?_
  · obtain ⟨⟨hw, hholds⟩, hover⟩ := hw
    have hquiet : Quiet (claimAnnotations p.cr) (testChanged .zooKeeper (.zooKeeper p.spec)
      [some secret]) := testChanged_quiet _ _ _
    exact ⟨hP w _ hw (hquiet.preserves w),
      fun hpos hvault => hholds.annotated ((hsound w hw).secret hvault hpos),
      fun ho => ⟨changed_of_overdue (hover ho).1 (hover ho).2 _, (hover ho).1.servers⟩⟩
  refine Triple.of_fact (fun _ hw => hw.2) fun hfacts => ?_
  obtain ⟨hsecret, hover⟩ := hfacts
  refine Triple.bind (Q := fun _ w => P w ∧ (overdue → p.Recording w)) ?_ fun s => ?_
  · split
    · exact (apply_safe hP hsound hglobal hsecret).conseq (fun _ hw => hw.1)
        (fun _ _ hw => ⟨hw.1, fun ho => hw.2 (hover ho).2⟩) fun _ _ h => h
    next hunchanged => exact triple_pure fun _ hw =>
      ⟨hw.1, fun ho => absurd (hover ho).1 hunchanged⟩
  · exact ((quiet_forEach fun i _ => updateDeploymentSecretRestartAnnotations_quiet _ _).safe
      hkept).bind fun _ => triple_pure fun _ hw => hw

end Pass

end ZooKeeperResourceProvider

/-! ## Monitoring -/

namespace MonitoringResourceProvider

variable (p : MonitoringResourceProvider)

/-- What Monitoring's pass needs so as not to panic. -/
def Sound (w : World) : Prop := p.cr.vault?.isSome → w.Annotated p.spec.secretName

variable {p}

/-- What Monitoring's pass needs is preserved. -/
theorem Sound.preserves {annotations : StringMap} (w w' : World) (h : p.Sound w)
    (hw : Preserves annotations w w') : p.Sound w' :=
  fun hvault => hw.annotated _ (h hvault)

theorem applyVault_quiet {annotations : StringMap} {secret : Secret}
    (h : p.cr.vault?.isSome → secret.Annotated) : Quiet annotations (p.applyVault secret) := by
  unfold applyVault
  rcases hvault : p.cr.vault? with - | vault
  · exact quiet_pure secret
  · exact ((ensureVaultPolicy_quiet _ _ _).bind fun _ =>
      ensureVaultRole_quiet _ _ _ _).whenever.bind
      fun _ => cleanSecret_quiet .monitoring (h (by rw [hvault]; rfl))

/-- Monitoring's pass does not panic, and leaves everything as good as it was. -/
theorem reconcile_safe {P : World → Prop} (hglobal : p.cr.spec.global.isSome)
    (hP : ∀ w w', P w → Preserves (claimAnnotations p.cr) w w' → P w')
    (hsound : ∀ w, P w → p.Sound w) :
    Safe P p.reconcile := by
  refine (watchOwnSecret_safe p.spec.secretName p.cr hP).bind fun secret => ?_
  refine Triple.of_fact
    (fun w hw => fun hvault => hw.2.annotated (hsound w hw.1 hvault)) fun hs => ?_
  refine Triple.conseq (P := P) ?_ (fun _ hw => hw.1) (fun _ _ h => h) fun _ _ h => h
  refine Quiet.safe ?_ hP
  refine Quiet.bind ⟨watchOtherSecret_steady _ _, watchOtherSecret_preserves _ _⟩ fun other => ?_
  refine (testChanged_quiet _ _ _).bind fun isChanged => ?_
  refine Quiet.bind ?_ fun s => (updateDeploymentSecretRestartAnnotations_quiet _ _).bind fun _ =>
    remember_quiet _ _ _
  split
  · refine (applyService_quiet hglobal).bind fun _ =>
      (createServiceAccount_quiet _).bind fun _ => ?_
    refine (applyVault_quiet hs).bind fun s => ?_
    refine (applyDeployment_quiet p.cr
      (except_bind_ok (deref_ok hglobal) fun _ _ => ⟨_, rfl⟩) _).bind
      fun _ => ?_
    exact (quiet_of_aside (updatePodStatus_steady _ _) p.updateMonitoringStatus_touches).bind
      fun _ => quiet_pure s
  · exact quiet_pure secret

end MonitoringResourceProvider

/-! ## Backup daemon -/

namespace BackupDaemonResourceProvider

variable (p : BackupDaemonResourceProvider)

/-- The daemon has a map of Secret versions to write into, or nothing to write: its credentials are
in Vault, and its Secret does not ask for new ones. -/
def Recording (w : World) : Prop :=
  ∀ vault ∈ p.cr.vault?, w.status.secretVersions.isSome ∨
    w.credentialsVersion (p.credentialsPath vault) ≠ 0 ∧ w.Unasked p.spec.secretName

/-- What the daemon's pass needs so as not to panic, besides the map. -/
structure Sound (w : World) : Prop where
  storage : p.spec.backupStorage.persistentVolumeType ≠ "" →
    p.spec.backupStorage.Fits ∧ p.spec.backupStorage.Takes p.cr w
  secret : p.cr.vault?.isSome → w.Annotated p.spec.secretName
  whole : p.cr.vault?.isSome → w.Whole

variable {p}

theorem Recording.preserves {annotations : StringMap} (w w' : World) (h : p.Recording w)
    (hw : Preserves annotations w w') : p.Recording w' := by
  refine fun vault hvault => (h vault hvault).imp hw.versions fun hthere =>
    ⟨?_, hw.unasked _ hthere.2⟩
  have hle := hw.evolves.credentials (p.credentialsPath vault)
  omega

/-- What the pass of the backup daemon needs is preserved. -/
theorem Sound.preserves (w w' : World) (h : p.Sound w)
    (hw : Preserves (claimAnnotations p.cr) w w') : p.Sound w' where
  storage htype := ⟨(h.storage htype).1, (h.storage htype).2.preserves hw⟩
  secret hvault := hw.annotated _ (h.secret hvault)
  whole hvault := hw.whole (h.whole hvault)

theorem findS3Aliases_quiet {annotations : StringMap} : Quiet annotations p.findS3Aliases :=
  quiet_of_aside (((clientGet_steady _ _).map _).recover_unless fun _ => raises_pure none)
    p.findS3Aliases_touches

/-- The daemon records the version of its credentials, so the map has to be there. -/
theorem applyVault_safe {P : World → Prop} {secret : Secret}
    (hP : ∀ w w', P w → Preserves (claimAnnotations p.cr) w w' → P w')
    (h : p.cr.vault?.isSome → secret.Annotated)
    (htakes : ∀ w, P w → ∀ vault ∈ p.cr.vault?,
      w.TakesVersion (p.credentialsPath vault) secret ∧ w.Whole) :
    Safe P (p.applyVault secret) := by
  unfold applyVault
  rcases hvault : p.cr.vault? with - | vault
  · exact triple_pure fun _ hw => hw
  · refine (((ensureVaultPolicy_quiet _ _ _).bind fun _ =>
      ensureVaultRole_quiet _ _ _ _).whenever.safe hP).bind fun _ => ?_
    refine ((newPasswordGenerator_quiet p.cr vault).safe hP).bind fun generator => ?_
    refine (Safe.of_triple ((processUserCredentials_ordinary vault _ _ secret generator).conseq
      (fun w hw => htakes w hw vault hvault) (fun _ _ h => h) fun _ _ h => h)
      (vault_preserves (processUserCredentials_touches (Set.mem_singleton _) _ _ _ _ _)) hP).bind
      fun _ => ?_
    exact (cleanSecret_quiet .backupDaemon (h (by rw [hvault]; rfl))).safe hP

/-- The apply branch of the backup daemon does not panic. -/
theorem apply_safe {P : World → Prop} {secret : Secret}
    (hP : ∀ w w', P w → Preserves (claimAnnotations p.cr) w w' → P w')
    (hstorage : ∀ w, P w → p.spec.backupStorage.persistentVolumeType ≠ "" →
      p.spec.backupStorage.Fits ∧ p.spec.backupStorage.Takes p.cr w)
    (hglobal : p.cr.spec.global.isSome) (h : p.cr.vault?.isSome → secret.Annotated)
    (htakes : ∀ w, P w → ∀ vault ∈ p.cr.vault?,
      w.TakesVersion (p.credentialsPath vault) secret ∧ w.Whole)
    (s3Secret s3AliasesSecret : Option Secret) :
    Safe P (p.apply secret s3Secret s3AliasesSecret) := by
  refine Triple.bind (Q := fun _ => P) (Triple.whenever (fun htype => ?_) fun _ _ hw => hw)
    fun _ => ?_
  · have htype := of_decide_eq_true htype
    refine Triple.of_fact (fun w hw => (hstorage w hw htype).1) fun hfits => ?_
    exact Safe.of_triple ((applySnapshotsClaim_ordinary hglobal hfits).conseq
      (fun w hw => (hstorage w hw htype).2) (fun _ _ h => h) fun _ _ h => h)
      (applySnapshotsClaim_preserves _ _) hP
  refine ((applyService_quiet hglobal).safe hP).bind fun _ => ?_
  refine ((createServiceAccount_quiet _).safe hP).bind fun _ => ?_
  refine (applyVault_safe hP h htakes).bind fun s => ?_
  refine ((applyDeployment_quiet p.cr
    (except_bind_ok (deref_ok hglobal) fun _ _ => ⟨_, rfl⟩) _).safe
    hP).bind fun _ => ?_
  exact ((quiet_of_aside (updatePodStatus_steady _ _) p.updateBackupDaemonStatus_touches).safe
    hP).bind fun _ => triple_pure fun _ hw => hw

/-- The daemon's pass does not panic, and leaves everything as good as it was. -/
theorem reconcile_safe {P : World → Prop} (hglobal : p.cr.spec.global.isSome)
    (hP : ∀ w w', P w → Preserves (claimAnnotations p.cr) w w' → P w')
    (hsound : ∀ w, P w → p.Sound w ∧ p.Recording w) : Safe P p.reconcile := by
  refine (watchOwnSecret_safe p.spec.secretName p.cr hP).bind fun secret => ?_
  refine Triple.of_fact (fun w hw => fun hvault =>
    hw.2.annotated ((hsound w hw.1).1.secret hvault)) fun hs => ?_
  -- whether the Secret in hand asks for new credentials is settled by now
  let P' : World → Prop := fun w => P w ∧
    ∀ vault ∈ p.cr.vault?, w.TakesVersion (p.credentialsPath vault) secret
  have hP' : ∀ w w', P' w → Preserves (claimAnnotations p.cr) w w' → P' w' := fun w w' hw hp =>
    ⟨hP w w' hw.1 hp, fun vault hvault => (hw.2 vault hvault).preserves hp⟩
  refine Triple.conseq (P := P') (Q := fun _ => P') ?_ (fun w hw => ⟨hw.1, fun vault hvault =>
    ((hsound w hw.1).2 vault hvault).imp_right fun hthere => ⟨hthere.1, hw.2.unasked hthere.2⟩⟩)
    (fun _ _ hw => hw.1) fun _ _ h => h
  refine (Safe.of_steady (watchOtherSecret_steady _ _) (watchOtherSecret_preserves _ _) hP').bind
    fun s3 => ?_
  refine (findS3Aliases_quiet.safe hP').bind fun aliases => ?_
  refine ((testChanged_quiet _ _ _).safe hP').bind fun isChanged => ?_
  refine Triple.bind (Q := fun _ => P') ?_ fun s => ?_
  · split
    · refine apply_safe hP' (fun w hw => (hsound w hw.1).1.storage) hglobal hs
        (fun w hw vault hvault => ⟨hw.2 vault hvault, ?_⟩) s3 aliases
      exact (hsound w hw.1).1.whole (Option.isSome_of_mem hvault)
    · exact triple_pure fun _ hw => hw
  · exact ((updateDeploymentSecretRestartAnnotations_quiet _ _).safe hP').bind fun _ =>
      (remember_quiet _ _ _).safe hP'

end BackupDaemonResourceProvider

/-! ## A call -/

namespace ZooKeeperService

variable (cr : ZooKeeperService)

/-- What the passes need so as not to panic, apart from the map of Secret versions. -/
structure Sound (w : World) : Prop where
  global : cr.spec.global.isSome
  whole : cr.vault?.isSome → w.Whole
  zooKeeper : ∀ p : ZooKeeperResourceProvider, p.cr = cr → p.Sound w
  monitoring : ∀ p : MonitoringResourceProvider, p.cr = cr → p.Sound w
  backupDaemon : ∀ p : BackupDaemonResourceProvider, p.cr = cr → p.Sound w

/-- The backup daemon has a map of Secret versions to write into, or nothing to write. -/
def Recording (w : World) : Prop := ∀ p : BackupDaemonResourceProvider, p.cr = cr → p.Recording w

/-- ZooKeeper goes through its apply branch with servers. -/
def Overdue (w : World) : Prop := ∃ p : ZooKeeperResourceProvider, p.cr = cr ∧ p.Overdue w

variable {cr}

/-- What all passes of a call need is preserved from pass to pass. -/
theorem Sound.preserves (w w' : World) (h : cr.Sound w)
    (hw : Preserves (claimAnnotations cr) w w') : cr.Sound w' where
  global := h.global
  whole hvault := hw.whole (h.whole hvault)
  zooKeeper := by
    rintro p rfl
    exact (h.zooKeeper p rfl).preserves w w' hw
  monitoring p hp := (h.monitoring p hp).preserves w w' hw
  backupDaemon := by
    rintro p rfl
    exact (h.backupDaemon p rfl).preserves w w' hw

theorem Recording.preserves {annotations : StringMap} (w w' : World) (h : cr.Recording w)
    (hw : Preserves annotations w w') : cr.Recording w' :=
  fun p hp => (h p hp).preserves w w' hw

end ZooKeeperService

/-- The world as a call finds it: with the stored status. -/
def World.fetched (w : World) : World := { w with status := w.storedStatus.fetched }

/-- Fetching the instance does no more than that, apart from its part of the faults. -/
theorem getInstance_touches_fetched {w w' : World} {cr : ZooKeeperService}
    (h : getInstance w = .ok cr w') : Touches ∅ w.fetched w' := by
  have hfaults := ((getInstance_touches (T := statusFields) subset_rfl).ok h).evolves.faults
  obtain ⟨-, faults, rfl⟩ := getInstance_ok_inv h
  exact touches_faults w.fetched hfaults

section Call

variable {cr : ZooKeeperService}

theorem getInstance_steady : Steady getInstance :=
  request_steady fun w e t h => by
    split at h <;> cases h
    rfl

theorem writeFailedStatus_steady (message : String) : Steady (writeFailedStatus message) :=
  (updateConditions_steady _).recover_unless fun _ => raises_pure ()

theorem reporting_steady {m : Op Unit} (describe : GoError → String) (h : Steady m) :
    Steady (reporting describe m) :=
  Raises.recover (fun w e t hm _ => h w e t hm) fun e k hk => by
    split at hk <;> cases hk
    next he =>
      exact (writeFailedStatus_steady _).bind fun _ => raises_raise (eq_false_of_ne_true he)

/-- Reporting a failure in the status adds no panic. -/
theorem reporting_ordinary {P : World → Prop} {Q : Unit → World → Prop} {m : Op Unit}
    (describe : GoError → String) (h : Triple P m Q fun e _ => Ordinary e) :
    Triple P (reporting describe m) Q fun e _ => Ordinary e := by
  refine h.recover (fun e k hk => Triple.of_fact (fun _ he => he) fun he => ?_) fun _ _ _ he => he
  split at hk <;> cases hk
  exact (writeFailedStatus_steady _).triple.bind fun _ => triple_raise fun _ _ => he

/-- The preparation logs in to Vault, if it is on. -/
theorem prepare_ordinary (cr : ZooKeeperService) :
    Triple (fun w => cr.vault?.isSome → w.Whole) (prepare cr) (fun _ _ => True)
      fun e _ => Ordinary e := by
  let W : World → Prop := fun w => cr.vault?.isSome → w.Whole
  have hcycle : Triple W startCycle (fun _ => W) fun e _ => Ordinary e :=
    ((startCycle_touches (T := {.conditions}) (Set.mem_singleton _)).triple fun _ _ (hw : W _) ht
      hvault hmem => hw hvault (ht.evolves.faults.subset hmem)).raises
      ((raises_update _).bind fun _ => updateConditions_steady _)
  refine Triple.bind (Q := fun _ => W) (triple_update fun _ hw => hw) fun _ => ?_
  refine Triple.bind (Q := fun _ => W) (triple_observe fun _ hw => hw) fun isChanged => ?_
  refine (Triple.whenever (fun _ => hcycle) fun _ _ hw => hw).bind fun _ => ?_
  refine Triple.bind (Q := fun _ _ => True) ?_ fun _ => triple_pure fun _ _ => trivial
  rcases hvault : cr.vault? with - | vault
  · exact triple_pure fun _ _ => trivial
  · exact reporting_ordinary _ ((initVaultClient_ordinary vault).conseq
      (fun _ hw => hw (by rw [hvault]; rfl)) (fun _ _ h => h) fun _ _ h => h)

theorem checkStatus_steady (reason inProgress failed ready : String) (timeoutSeconds : ℤ)
    {condition : Op Bool} (h : Steady condition) :
    Steady (checkStatus reason inProgress failed ready timeoutSeconds condition) :=
  (updateConditions_steady _).bind fun _ =>
    (((poll_steady h _).bind fun _ => raises_pure true).recover_unless fun _ =>
      raises_pure false).bind fun _ => Raises.bind (raises_update _).whenever fun _ =>
        updateConditions_steady _

theorem allReady_steady (names : List String) : Steady (allReady names) := by
  induction names with
  | nil => exact raises_pure true
  | cons name names ih =>
    refine (isDeploymentReady_steady name).bind fun ready => ?_
    split
    · exact ih
    · exact raises_pure false

/-- The status checks of the components do not panic. -/
theorem Reconciler.status_steady (global : Global) (r : Reconciler) : Steady (r.status global) := by
  cases r with
  | zooKeeper p => exact checkStatus_steady _ _ _ _ _ (allReady_steady _)
  | monitoring p => exact checkStatus_steady _ _ _ _ _ (isDeploymentReady_steady _)
  | backupDaemon p => exact checkStatus_steady _ _ _ _ _ (isDeploymentReady_steady _)
  | integrationTests tests =>
    exact (checkStatus_steady _ _ _ _ _ (isDeploymentReady_steady _)).whenever

theorem finishCycle_steady (cr : ZooKeeperService) : Steady (finishCycle cr) := by
  refine Raises.bind ?_ fun _ => (raises_observe _).bind fun _ => updateConditions_steady _
  rcases cr.spec.global with - | global
  · exact raises_pure ()
  · exact Raises.whenever ((updateConditions_steady _).bind fun _ => (raises_update _).bind fun _ =>
      forEach_raises fun r _ => reporting_steady _ (r.status_steady global))

theorem updateStatus_steady (h : cr.spec.global.isSome) : Steady (updateStatus cr) :=
  (build_steady (deref_ok h)).bind fun _ => (raises_observe _).bind fun _ =>
    ((raises_update _).bind fun _ => statusUpdate_steady).whenever

/-- What holds in a call after some of the passes: the map of Secret versions is there from the
first pass on, if that is the one of ZooKeeper and overdue. -/
def Passable (cr : ZooKeeperService) (done : List Reconciler) (w : World) : Prop :=
  cr.Sound w ∧ (cr.Recording w ∨ done = [] ∧ cr.Overdue w)

/-- The preparation of a call leaves its condition alone. -/
theorem Passable.of_touches {T : Set Field} {done : List Reconciler} {w w' : World}
    (h : Passable cr done w) (ht : Touches T w w') (hT : T ⊆ {.globalHash, .conditions}) :
    Passable cr done w' := by
  have ht := ht.mono hT
  have hp : Preserves (claimAnnotations cr) w w' :=
    preserves_of_touches ht (by simp) (by simp) (by simp) (by simp)
  refine ⟨h.1.preserves w w' hp, h.2.imp (fun hr => hr.preserves w w' hp) ?_⟩
  rintro ⟨hdone, p, hp, hover⟩
  exact ⟨hdone, p, hp, hover.of_touches ht (by simp)⟩

/-- The pass of a component, as part of a call. -/
theorem Reconciler.reconcile_passable {done rest : List Reconciler} {r : Reconciler}
    (hlist : buildReconcilers cr = done ++ r :: rest) :
    Triple (fun w => Passable cr done w ∧ GlobalHashed cr w) r.reconcile
      (fun _ w => Passable cr (done ++ [r]) w) fun e _ => Ordinary e := by
  -- the pass of ZooKeeper comes first, so before any other one the map is there
  have hothers (hne : ∀ p : ZooKeeperResourceProvider, r ≠ .zooKeeper p) {w : World}
      (hw : Passable cr done w) : cr.Sound w ∧ cr.Recording w := by
    refine ⟨hw.1, hw.2.resolve_right ?_⟩
    rintro ⟨rfl, p, rfl, -⟩
    rw [buildReconcilers_eq, List.nil_append, List.cons.injEq] at hlist
    exact hne p hlist.1.symm
  have hkept : ∀ w w', cr.Sound w ∧ cr.Recording w → Preserves (claimAnnotations cr) w w' →
      cr.Sound w' ∧ cr.Recording w' :=
    fun w w' hw hp => ⟨hw.1.preserves w w' hp, hw.2.preserves w w' hp⟩
  have hpassed {w : World} (hw : cr.Sound w ∧ cr.Recording w) : Passable cr (done ++ [r]) w :=
    ⟨hw.1, .inl hw.2⟩
  intro w hw
  have hglobal := hw.1.1.global
  rcases mem_buildReconcilers (hlist ▸ List.mem_append_cons_self) with
    ⟨p, rfl, rfl⟩ | ⟨p, rfl, rfl⟩ | ⟨p, rfl, rfl⟩ | ⟨tests, rfl⟩
  · rcases hw.1.2 with hrecording | ⟨-, q, hq, hover⟩
    · exact (p.reconcile_safe hkept (fun w hw => hw.1.zooKeeper p rfl) hglobal False).conseq
        (fun _ hw => ⟨hw, False.elim⟩) (fun _ _ hw => hpassed hw.1) (fun _ _ h => h) w
        ⟨hw.1.1, hrecording⟩
    · -- the pass of ZooKeeper itself makes the map that is missing
      obtain rfl : q = p := Option.some.inj
        ((zooKeeperProvider?_eq q).symm.trans ((congrArg _ hq).trans (zooKeeperProvider?_eq p)))
      refine (q.reconcile_safe (fun w w' hw hp => ZooKeeperService.Sound.preserves w w' hw hp)
        (fun w hw => hw.zooKeeper q rfl) hglobal True).conseq (fun _ hw => hw) (fun _ w' hw' => ?_)
        (fun _ _ h => h) w ⟨hw.1.1, fun _ => ⟨hover, hw.2⟩⟩
      refine hpassed ⟨hw'.1, fun d hd vault hvault => .inl (hw'.2 trivial ?_)⟩
      rw [← hd]
      exact Option.isSome_of_mem hvault
  · exact (p.reconcile_safe hglobal hkept fun w hw => hw.1.monitoring p rfl).conseq (fun _ hw => hw)
      (fun _ _ hw => hpassed hw) (fun _ _ h => h) w (hothers (by simp) hw.1)
  · exact (p.reconcile_safe hglobal hkept fun w hw => ⟨hw.1.backupDaemon p rfl, hw.2 p rfl⟩).conseq
      (fun _ hw => hw) (fun _ _ hw => hpassed hw) (fun _ _ h => h) w (hothers (by simp) hw.1)
  · exact hpassed (hothers (by simp) hw.1)

/-- **A call does not panic**, whatever becomes of its requests, if what it finds in the cluster is
sound, and the map of Secret versions is there or is made before the daemon writes into it. -/
theorem reconcile_ordinary :
    Triple (fun w => w.cr = some cr ∧ Passable cr [] w.fetched) reconcile (fun _ _ => True)
      fun e _ => Ordinary e := by
  rintro w ⟨hcr, hw⟩
  rcases reconcile_cases hcr with ⟨w', hget, hrun⟩ | ⟨e, w', hget, hrun⟩ <;> rw [hrun]
  · have hw' := hw.of_touches (getInstance_touches_fetched hget) (Set.empty_subset _)
    have hprepare : Triple (Passable cr []) (prepare cr)
        (fun _ w => Passable cr [] w ∧ GlobalHashed cr w) fun e _ => Ordinary e :=
      ((((prepare_touches cr (.inl rfl) (.inr rfl)).triple
        fun _ _ (h : Passable cr [] _) ht => h.of_touches ht subset_rfl).and
        (prepare_globalHashed cr)).and (prepare_ordinary cr)).conseq
        (fun _ h => ⟨⟨h, trivial⟩, h.1.whole⟩) (fun _ _ h => h.1) fun _ _ h => h.2
    refine (hprepare.bind fun isChanged => ?_) w' hw'
    refine Triple.of_fact (fun _ h => h.1.1.global) fun hglobal => ?_
    refine Triple.bind (Q := fun _ _ => True) ?_ fun _ => Raises.triple ?_
    · refine (forEach_triple (I := fun done w => Passable cr done w ∧ GlobalHashed cr w)
        fun done r rest hlist => reporting_ordinary _ ?_).conseq (fun _ h => h)
          (fun _ _ _ => trivial)
        fun _ _ h => h
      have hkept := r.reconcile_touches.triple fun w w' (hw : GlobalHashed cr w) ht =>
        hw.of_touches ht id
      exact ((r.reconcile_passable hlist).and hkept).conseq (fun _ h => ⟨h, h.2⟩) (fun _ _ h => h)
        fun _ _ h => h.1
    · exact (updateStatus_steady hglobal).bind fun _ => (finishCycle_steady cr).whenever.bind
        fun _ => raises_update _
  · exact getInstance_steady w e w' hget

end Call

/-! ## Runs -/

namespace PanicFree

/-- What happens between the calls of `Reconcile`. -/
inductive Deed where
  /-- the cluster becomes another one: the custom resource, its status, the objects, Vault -/
  | become (cluster : World)
  /-- the operator is started again, and remembers nothing -/
  | restart

/-- Changes of the cluster, restarts of the operator, and calls of `Reconcile`. What the operator
remembers is not part of the cluster. -/
def interplay : Interplay World Deed Call where
  others w
    | .become cluster =>
      { cluster with
        resourceVersions := w.resourceVersions
        resourceHashes := w.resourceHashes
        globalSpecHash := w.globalSpecHash }
    | .restart => { w with resourceVersions := ∅, resourceHashes := ∅, globalSpecHash := none }
  call w call := (reconcile (call.start w)).next

/-- A call does not panic. -/
def Panicless (w : World) (call : Call) : Prop :=
  ∀ e t, reconcile (call.start w) = .raised e t → Ordinary e

/-- No call of a run panics. -/
def NeverPanics : World → List (Turn Deed Call) → Prop := interplay.EveryCall Panicless

/-- Every call of a run finds a sound cluster, and the map of Secret versions is there or is made
before the daemon writes into it. -/
def Careful : World → List (Turn Deed Call) → Prop :=
  interplay.EveryCall fun w call => ∀ cr, w.cr = some cr → Passable cr [] (call.start w).fetched

/-- Without a custom resource there is nothing to do. -/
theorem reconcile_ordinary_of_none {w : World} (h : w.cr = none) {e : GoError} {t : World}
    (hrun : reconcile w = .raised e t) : Ordinary e := by
  have hfetch : Triple (fun w => w.cr = none) ((some <$> getInstance).recover fun e =>
      if e.isNotFound then some (pure none) else none) (fun found _ => found = none)
      fun e _ => Ordinary e := by
    refine Triple.raises (E := fun _ _ => True) ?_
      ((getInstance_steady.map some).recover_if fun _ => raises_pure none)
    refine Triple.recover (Q := fun found _ => found = none) (E := fun _ _ => True) ?_
      (fun e k hk => ?_) fun _ _ _ _ => trivial
    · intro v hv
      rcases hget : getInstance v with ⟨cr, u⟩ | ⟨e, u⟩
      · cases hv.symm.trans (getInstance_ok_inv hget).1
      · rw [show (some <$> getInstance) v = .raised e u from bind_raised hget]
        trivial
    · split at hk <;> cases hk
      exact triple_pure fun _ _ => rfl
  refine (hfetch.bind (R := fun _ _ => True) fun found => Triple.of_fact (fun _ h => h) ?_).raised h
    hrun
  rintro rfl
  exact triple_pure fun _ _ => trivial

/-- What a call needs, it has to find each time: between the calls nothing is kept. -/
theorem invariant_true {C : World → Call → Prop} : interplay.Invariant C fun _ => True where
  others _ _ h := h
  call _ _ h _ := h

/-- Secrets that are missing can be cleaned. -/
theorem annotated_of_missing {w : World} {n : String} (h : w.get? .secret n = none) :
    w.Annotated n := fun s hs => by
  rw [h] at hs
  cases hs

/-- The sample with Vault has neither claims nor labels, so only its Secrets matter. -/
theorem sound_sampleResource {w : World} (hservers : w.get? .secret "zookeeper-secret" = none)
    (hbackup : w.get? .secret "backup-secret" = none) (hwhole : w.Whole) :
    (Passages.sampleResource none).Sound w where
  global := rfl
  whole _ := hwhole
  zooKeeper := by
    rintro ⟨cr, spec, hspec⟩ rfl
    cases hspec
    refine ⟨⟨.inl rfl, .inl rfl, .inl rfl, fun i _ _ hlabel => absurd rfl hlabel,
      fun _ => by decide⟩, nofun, fun i _ hprovided => ?_,
      fun _ _ => annotated_of_missing hservers, fun _ => hwhole⟩
    rcases hprovided with h | h | h <;> exact absurd rfl h
  monitoring := by
    rintro ⟨cr, spec, hspec⟩ rfl
    cases hspec
  backupDaemon := by
    rintro ⟨cr, spec, hspec⟩ rfl
    cases hspec
    exact ⟨fun h => absurd rfl h, fun _ => annotated_of_missing hbackup, fun _ => hwhole⟩

/-- The sample with Vault, as a cluster without any Secrets. -/
def sampleWorld : World := (Passages.sampleSession none).world

/-- A first call fails midway; another one follows after the operator was started again, and then a
third one. -/
def carefulRun : List (Turn Deed Call) :=
  [.call ⟨HashGate.failsMidway, HashGate.calm⟩, .others .restart, .call ⟨[], HashGate.calm⟩,
   .call ⟨[], HashGate.calm⟩]

/-- A cluster in which a call is overdue. -/
theorem passable_of_hashes {w : World} (hservers : w.get? .secret "zookeeper-secret" = none)
    (hbackup : w.get? .secret "backup-secret" = none) (hwhole : w.Whole)
    (hhash : w.resourceHashes.lookup (hashName .zooKeeper) = none) :
    Passable (Passages.sampleResource none) [] w := by
  refine ⟨sound_sampleResource hservers hbackup hwhole,
    .inr ⟨rfl, ⟨_, _, rfl⟩, rfl, ⟨by decide, .inl ?_⟩⟩⟩
  rw [hhash]
  exact nofun

/-- All calls of the sample run are made under the condition: in the first two the pass of ZooKeeper
is overdue, and in the third the map is there. -/
theorem careful_carefulRun : Careful sampleWorld carefulRun := by
  have hsample {w : World} {cr : ZooKeeperService} (hw : w.cr = some (Passages.sampleResource none))
      (hcr : w.cr = some cr) : Passages.sampleResource none = cr :=
    Option.some.inj (hw.symm.trans hcr)
  refine ⟨fun cr hcr => ?_, fun cr hcr => ?_, fun cr hcr => ?_, trivial⟩
  · obtain rfl := hsample rfl hcr
    exact passable_of_hashes rfl rfl (show .hollow ∉ HashGate.failsMidway by decide) rfl
  · obtain rfl := hsample (by decide +kernel) hcr
    exact passable_of_hashes (by decide +kernel) (by decide +kernel) List.not_mem_nil
      (by decide +kernel)
  · obtain rfl := hsample (by decide +kernel) hcr
    refine ⟨sound_sampleResource (by decide +kernel) (by decide +kernel) List.not_mem_nil, .inl ?_⟩
    exact fun _ _ _ _ => .inl (by decide +kernel)

/-- A cluster with servers and a Secret, and a custom resource without a global section. -/
def withoutGlobal : World :=
  { HashGate.sampleSession.world with
    cr := some { HashGate.sampleResource with
      spec := { HashGate.sampleResource.spec with global := none } } }

/-- The same cluster with a volume for only one of two servers. -/
def withOneVolume : World :=
  { HashGate.sampleSession.world with
    cr := some (HashGate.sampleResource.withZooKeeper { HashGate.sampleZooKeeper "zookeeper:1" with
      replicas := 2
      storage := { size := .of "1Gi", volumes := ["pv-1"] } }) }

/-- A cluster with Vault, and a Secret with data and without annotations. -/
def withoutAnnotations : World :=
  { sampleWorld with
    objects := Function.update (fun _ => ∅) .secret (Store.put (k := .secret) ∅
      { metadata := { name := "zookeeper-secret", resourceVersion := 1 }
        data := some (.ofList [("admin-username", "admin")]) })
    version := 1 }

/-- The custom resource before it has a backup daemon. -/
def withoutDaemon : ZooKeeperService :=
  { Passages.sampleResource none with
    spec := { (Passages.sampleResource none).spec with backupDaemon := none } }

/-- A cluster whose Vault has the credentials of the servers already. -/
def withCredentials : World :=
  { sampleWorld with
    cr := some withoutDaemon
    vault := { secrets :=
      ((sampleWorld.vault.secrets.insert "secret/data/zookeeper.zk/admin-credentials"
        (StringMap.ofList [("username", "admin"), ("password", "p")], 1)).insert
        "secret/data/zookeeper.zk/client-credentials"
        (StringMap.ofList [("username", "client"), ("password", "p")], 1)) } }

/-- What a first call leaves there, with a backup daemon added to the custom resource. -/
def withDaemon : World :=
  { interplay.call withCredentials ⟨[], HashGate.calm⟩ with
    cr := some (Passages.sampleResource none) }

/-- A backup daemon is added after a first call. -/
def daemonAddedRun : List (Turn Deed Call) :=
  [.call ⟨[], HashGate.calm⟩, .others (.become withDaemon), .call ⟨[], HashGate.calm⟩]

/-- The answer to the first read of a secret in Vault has no data: the last version of the secret
has been deleted. -/
def deletedSecret : List Fault := List.replicate 13 .none ++ [.hollow]

/-- A call that ends with a panic. -/
def panics (w : World) (faults : List Fault) (panic : Panic) : Bool :=
  match reconcile (Call.start ⟨faults, HashGate.calm⟩ w) with
  | .raised (.panic why) _ => why = panic
  | _ => false

theorem not_panicless_of_panics {w : World} {faults : List Fault} {panic : Panic}
    (h : panics w faults panic = true) : ¬ Panicless w ⟨faults, HashGate.calm⟩ := by
  intro hordinary
  unfold panics at h
  split at h
  next why t hrun => cases hordinary _ _ hrun
  · cases h

end PanicFree

end QubershipZookeeper.Operator
