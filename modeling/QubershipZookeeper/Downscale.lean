import QubershipZookeeper.HashGate
import QubershipZookeeper.CalmCluster

/-!
# Scaling down

When ZooKeeper's pass takes its apply branch, it first counts the Deployments of servers that
have replicas, and scales down the servers with the numbers from `Replicas + 1` up to this
**count**. The count is taken for the highest number of a server, which it is only when
there are no gaps. A server with a higher number stays active, and a number in a gap may have no
Deployment to scale.

`downscales_iff` says exactly when the pass does what it should.
-/

namespace QubershipZookeeper.Operator

open Proc

namespace ZooKeeperResourceProvider

variable (p : ZooKeeperResourceProvider)

/-! ## Active servers -/

/-- `spec.replicas` of the Deployment of a server. -/
def replicasOf (serverId : ℕ) (w : World) : Option ℤ :=
  (w.get? .deployment (serverName p.cr.name serverId)).map Deployment.replicas

/-- The Deployment of a server has replicas. -/
def Active (serverId : ℕ) (w : World) : Prop := ∃ replicas ∈ p.replicasOf serverId w, 0 < replicas

/-- What `getCurrentDeploymentsCount` counts. -/
def activeCount (w : World) : ℕ :=
  Multiset.card (((w.objects .deployment).items.filter fun d =>
    (getZooKeeperSelectorLabels p.cr.name).selects d.metadata.labels).filter
    fun d => d.replicas > 0)

/-- The replicas of a server are read from its Deployment. -/
theorem replicasOf_congr {i : ℕ} {w w' : World}
    (h : w'.get? .deployment (serverName p.cr.name i) =
      w.get? .deployment (serverName p.cr.name i)) :
    p.replicasOf i w' = p.replicasOf i w := by
  rw [replicasOf, replicasOf, h]

theorem objects_congr {k : Kind} {w w' : World} (h : ∀ n, w'.get? k n = w.get? k n) :
    w'.objects k = w.objects k := by
  refine Finmap.ext_lookup fun n => ?_
  exact Option.map_injective Subtype.val_injective (h n)

/-- The number of active servers is read from all Deployments. -/
theorem activeCount_congr {w w' : World} (h : ∀ n, w'.get? .deployment n = w.get? .deployment n) :
    p.activeCount w' = p.activeCount w := by
  rw [activeCount, activeCount, objects_congr h]

/-- The numbers of replicas, and their count, are these. -/
def Census (n : ℕ) (replicas : ℕ → Option ℤ) (w : World) : Prop :=
  p.activeCount w = n ∧ ∀ i, p.replicasOf i w = replicas i

/-- The census is kept while no Deployment is written. -/
theorem census_of_touches {F : Footprint} (hF : F.deployments = ∅) {n : ℕ}
    {replicas : ℕ → Option ℤ} {w w' : World} (ht : Touches F.fields w w')
    (h : p.Census n replicas w) : p.Census n replicas w' := by
  have hget : ∀ name, w'.get? .deployment name = w.get? .deployment name := fun name => by
    refine ht.get? ?_
    show name ∉ F.deployments
    rw [hF]
    exact Set.notMem_empty name
  exact ⟨(p.activeCount_congr hget).trans h.1, fun i => (p.replicasOf_congr (hget _)).trans (h.2 i)⟩

/-! ## What a pass leaves -/

/-- A Deployment that was scaled has the replicas. -/
theorem scaleDeployment_stores (name : String) (replicas : ℤ) :
    Triple (fun _ => True) (scaleDeployment name replicas)
      (fun _ w => (w.get? .deployment name).map Deployment.replicas = some replicas)
      fun _ _ => True := by
  refine (retryOnConflict_triple (P := fun _ => True) ?_ _).conseq (fun _ h => h) (fun _ _ h => h)
    fun _ _ h => h
  refine Triple.bind (Q := fun found _ => found.metadata.name = name) ?_ fun found => ?_
  · refine (clientGet_triple (fun _ _ _ _ => trivial) .deployment name).conseq (fun _ h => h)
      (fun found w h => ?_) fun _ _ h => h
    exact Store.name_of_get? h.2
  · refine Triple.bind (Q := fun _ w => (w.get? .deployment name).map Deployment.replicas =
      some replicas) ?_ fun _ => triple_pure fun _ h => h
    intro w hname
    refine ((clientUpdate_stores .deployment { found with replicas := replicas }).conseq
      (fun _ h => h) (fun stored w h => ?_) fun _ _ h => h) w trivial
    obtain ⟨hget, v, rfl⟩ := h
    have hget' : w.get? .deployment name =
        some (Kind.accept .deployment v { found with replicas := replicas }) := hname ▸ hget
    rw [hget']
    rfl

/-- Scaling a server down sets its replicas to none, and leaves the others alone. -/
theorem scaleDeployment_replicasOf (i : ℕ) (replicas : ℕ → Option ℤ) :
    Triple (fun w => ∀ j, p.replicasOf j w = replicas j)
      (scaleDeployment (serverName p.cr.name i) 0)
      (fun _ w => ∀ j, p.replicasOf j w = if j = i then some 0 else replicas j)
        fun _ _ => True := by
  intro w hw
  have hstores := scaleDeployment_stores (serverName p.cr.name i) 0 w trivial
  have htouch := scaleDeployment_touches 0 (writes_deployment (serverName p.cr.name i))
  rcases hrun : scaleDeployment (serverName p.cr.name i) 0 w with ⟨u, w'⟩ | ⟨e, w'⟩
  · rw [hrun] at hstores
    intro j
    split
    next hj => exact hj ▸ hstores
    next hj =>
      refine (p.replicasOf_congr ((htouch.ok hrun).get? ?_)).trans (hw j)
      simpa using fun h => hj (serverName_injective _ h)
  · trivial

/-- After scaling down, the excess servers have no replicas. -/
theorem scaleDown_replicasOf (n : ℕ) (replicas : ℕ → Option ℤ) :
    Triple (fun w => ∀ j, p.replicasOf j w = replicas j) (p.scaleDown n)
      (fun _ w => ∀ j, p.replicasOf j w = if j ∈ p.excessIds n then some 0 else replicas j)
      fun _ _ => True := by
  refine (forEach_triple (I := fun done w => ∀ j, p.replicasOf j w =
    if j ∈ done then some 0 else replicas j) fun done i rest _ => ?_).conseq
    (fun w hw j => by simpa using hw j) (fun _ _ h => h) fun _ _ h => h
  refine (p.scaleDeployment_replicasOf i _).conseq (fun _ h => h) (fun _ w h j => ?_) fun _ _ h => h
  rw [h j]
  by_cases hj : j = i
  · simp [hj]
  · simp [hj]

/-- A server has one replica. -/
theorem replicasOf_of_holdsServer {i : ℕ} {w : World} (h : p.HoldsServer i w) :
    p.replicasOf i w = some 1 := by
  obtain ⟨wanted, stored, hwanted, hstored, hsame⟩ := h
  have hreplicas : stored.replicas = wanted.replicas := hsame.replicas_eq
  obtain ⟨built, hbuilt, hwanted⟩ := except_bind_ok_inv hwanted
  obtain ⟨m, -, hwanted⟩ := except_bind_ok_inv hwanted
  cases hwanted
  rcases hnew : p.newServerDeploymentForCR i with e | d <;> rw [hnew] at hbuilt <;> cases hbuilt
  obtain ⟨global, -, hnew⟩ := except_bind_ok_inv hnew
  obtain ⟨affinity, -, hnew⟩ := except_bind_ok_inv hnew
  cases hnew
  rw [replicasOf, hstored]
  exact congrArg some hreplicas

/-- The round of a server sets its replicas to one. -/
theorem applyServer_replicasOf (rolling : Bool) (secret : Secret) (i : ℕ)
    (replicas : ℕ → Option ℤ) :
    Triple (fun w => ∀ j, p.replicasOf j w = replicas j) (p.applyServer rolling secret i)
      (fun _ w => ∀ j, p.replicasOf j w = if j = i then some 1 else replicas j)
      fun _ _ => True := by
  intro w hw
  have hholds := p.applyServer_establishes rolling secret i w trivial
  have howns : Footprint.Owns ⟨Set.univ, {serverName p.cr.name i}, Set.univ, ∅⟩ secret :=
    owns_of_univ rfl secret
  have htouch := p.applyServer_touches rfl rolling howns rfl
  rcases hrun : p.applyServer rolling secret i w with ⟨s, w'⟩ | ⟨e, w'⟩
  · rw [hrun] at hholds
    intro j
    split
    next hj => exact hj ▸ p.replicasOf_of_holdsServer hholds
    next hj =>
      refine (p.replicasOf_congr ((htouch.ok hrun).get? fun hmem => hj ?_)).trans (hw j)
      exact serverName_injective _ hmem
  · trivial

/-- The replicas after the loops over the servers. -/
def replicasAfter (n : ℕ) (replicas : ℕ → Option ℤ) (i : ℕ) : Option ℤ :=
  if i ∈ p.serverIds then some 1 else if i ∈ p.excessIds n then some 0 else replicas i

/-- **The loop over the servers**: the wanted ones are up, those in excess are down, and all others
are as before. -/
theorem applyServers_replicasOf (secret : Secret) (n : ℕ) (replicas : ℕ → Option ℤ) :
    Triple (p.Census n replicas) (p.applyServers secret)
      (fun _ w => ∀ i, p.replicasOf i w = p.replicasAfter n replicas i) fun _ _ => True := by
  have hquiet {α : Type} {m : Op α} (h : Within (Touches withoutDeployments.fields) m) :
      Triple (p.Census n replicas) m (fun _ => p.Census n replicas) fun _ _ => True :=
    (h.triple fun _ _ hw ht => p.census_of_touches rfl ht hw).conseq (fun _ h => h) (fun _ _ h => h)
      fun _ _ _ => trivial
  refine (hquiet (applySnapshotsClaim_touches rfl _ _).whenever).bind fun _ => ?_
  refine (hquiet (applyService_touches _ _)).bind fun _ => ?_
  refine (hquiet (applyService_touches _ _)).bind fun _ => ?_
  refine Triple.bind (Q := fun current w => current = n ∧ ∀ i, p.replicasOf i w = replicas i) ?_
    fun current => ?_
  · -- the count is that of the Deployments there are
    intro w hw
    have htouch := p.getCurrentDeploymentsCount_touches (T := withoutDeployments.fields)
    rcases hrun : p.getCurrentDeploymentsCount w with ⟨current, w'⟩ | ⟨e, w'⟩
    · refine ⟨?_, (p.census_of_touches rfl (htouch.ok hrun) hw).2⟩
      obtain ⟨deployments, t, hlist, hcount⟩ := bind_ok_inv hrun
      obtain ⟨rfl, rfl⟩ := pure_ok_inv hcount
      rw [request_observe_ok_inv (fun _ => rfl) hlist]
      exact hw.1
    · trivial
  · intro w ⟨hcurrent, hw⟩
    subst hcurrent
    refine (p.scaleDown_replicasOf current replicas).bind (fun _ => ?_) w hw
    refine (foldEach_triple (I := fun done _ w => ∀ i, p.replicasOf i w = if i ∈ done then some 1
      else if i ∈ p.excessIds current then some 0 else replicas i) (fun done i rest s _ => ?_)
      secret).conseq (fun w hw i => by simpa using hw i) (fun _ _ h => h) fun _ _ h => h
    refine (p.applyServer_replicasOf _ s i _).conseq (fun _ h => h) (fun _ w h j => ?_)
      fun _ _ h => h
    rw [h j]
    by_cases hj : j = i
    · simp [hj]
    · simp [hj]

/-- Marking for restarts leaves the replicas alone. -/
theorem markRestarts_replicasOf (secret : Secret) (replicas : ℕ → Option ℤ) :
    Within (Keeps fun w => ∀ i, p.replicasOf i w = replicas i) (p.markRestarts secret) := by
  have hstable : Stable fun w => ∀ i, p.replicasOf i w = replicas i := fun w w' ht hw i =>
    (p.replicasOf_congr (ht.get? (Set.notMem_empty _))).trans (hw i)
  refine forEach_within fun j _ => updateDeploymentSecretRestartAnnotations_keeps hstable
    fun w d hw hd i => ?_
  have hname : d.metadata.name = serverName p.cr.name j := Store.name_of_get? hd
  by_cases hij : i = j
  · subst hij
    have hget := w.get?_store_self .deployment (applyAutoRestartSecretAnnotations d [some secret]).1
    rw [← hw i, replicasOf, replicasOf, hd, ← hname]
    exact (congrArg (Option.map Deployment.replicas) hget).trans rfl
  · refine (p.replicasOf_congr (w.get?_store_of_ne (.inr fun h => hij ?_))).trans (hw i)
    exact serverName_injective _ (h.trans hname)

/-- `ReconcileZooKeeper.Reconcile` from the beginning of its apply branch on. -/
def applyPass (secret : Secret) : Op Unit := do
  let secret ← p.apply secret
  p.markRestarts secret
  remember .zooKeeper (.zooKeeper p.spec) [some secret]

/-- The pass enters its apply branch in the world `w`, with a Secret in hand. -/
def Enters (w₀ : World) (secret : Secret) (w : World) : Prop :=
  ∃ t, watchOwnSecret p.spec.secretName p.cr w₀ = .ok secret t ∧
    testChanged .zooKeeper (.zooKeeper p.spec) [some secret] t = .ok true w

/-- What remains of the pass is `applyPass`. -/
theorem reconcile_eq_applyPass {w₀ w : World} {secret : Secret} (h : p.Enters w₀ secret w) :
    p.reconcile w₀ = p.applyPass secret w := by
  obtain ⟨t, hwatch, htest⟩ := h
  simp only [reconcile, pass, applyPass, bind_assoc]
  rw [bind_ok hwatch, bind_ok htest]
  rfl

/-- **What a pass leaves.** One replica for every wanted server, none for those that were
scaled down, and all others as they were. -/
theorem applyPass_replicasOf (hR : 0 < p.spec.replicas) (secret : Secret) (n : ℕ)
    (replicas : ℕ → Option ℤ) :
    Triple (p.Census n replicas) (p.applyPass secret)
      (fun _ w => ∀ i, p.replicasOf i w = p.replicasAfter n replicas i) fun _ _ => True := by
  have hquiet {α : Type} {m : Op α} (h : Within (Touches withoutDeployments.fields) m) :
      Triple (fun w => ∀ i, p.replicasOf i w = p.replicasAfter n replicas i) m
        (fun _ w => ∀ i, p.replicasOf i w = p.replicasAfter n replicas i) fun _ _ => True :=
    (h.triple fun w w' hw ht i => (p.replicasOf_congr (ht.get?
      (Set.notMem_empty (serverName p.cr.name i)))).trans (hw i)).conseq (fun _ h => h)
        (fun _ _ h => h) fun _ _ _ => trivial
  refine Triple.bind (Q := fun _ w => ∀ i, p.replicasOf i w = p.replicasAfter n replicas i) ?_
    fun secret' => ?_
  · rw [apply, if_pos hR]
    refine (p.applyServers_replicasOf secret n replicas).bind fun secret' => ?_
    exact (hquiet p.updateZooKeeperStatus_touches).bind fun _ => triple_pure fun _ h => h
  · refine ((triple_of_keeps (p.markRestarts_replicasOf secret' _)).conseq (fun _ h => h)
      (fun _ _ h => h) fun _ _ _ => trivial).bind fun _ => ?_
    exact hquiet (remember_touches _ trivial fun s _ => owns_of_univ rfl s)

/-- Which servers are active after a pass that returned. -/
theorem active_applyPass (hR : 0 < p.spec.replicas) {secret : Secret} {w w' : World}
    (h : p.applyPass secret w = .ok () w') {i : ℕ} (hi : 1 ≤ i) :
    p.Active i w' ↔ (i : ℤ) ≤ p.spec.replicas ∨
      (p.activeCount w < i ∧ p.spec.replicas < i) ∧ p.Active i w := by
  have hafter := (p.applyPass_replicasOf hR secret (p.activeCount w) fun i => p.replicasOf i w).ok
    ⟨rfl, fun _ => rfl⟩ h i
  rw [Active, hafter, replicasAfter]
  by_cases hserver : (i : ℤ) ≤ p.spec.replicas
  · have hmem : i ∈ p.serverIds := p.mem_serverIds.mpr ⟨hi, by omega⟩
    rw [if_pos hmem]
    exact iff_of_true ⟨1, rfl, one_pos⟩ (.inl hserver)
  · have hmem : i ∉ p.serverIds :=
      fun hmem => hserver (by have := (p.mem_serverIds.mp hmem).2; omega)
    rw [if_neg hmem]
    by_cases hexcess : i ≤ p.activeCount w
    · rw [if_pos (p.mem_excessIds.mpr ⟨by omega, hexcess⟩)]
      refine iff_of_false ?_ (by omega)
      rintro ⟨r, hr, hpos⟩
      cases hr
      exact absurd hpos (lt_irrefl 0)
    · rw [if_neg fun hmem => hexcess (p.mem_excessIds.mp hmem).2]
      refine ⟨fun hactive => .inr ⟨⟨by omega, by omega⟩, hactive⟩, fun h => ?_⟩
      exact (h.resolve_left hserver).2

/-! ## When a pass returns -/

/-- A Service that needs the global section is applied exactly if there is one. -/
theorem returns_applyService_iff_global {w : World} (h : Calm w) (cr : ZooKeeperService)
    {global : Option Global} {service : Global → Service}
    (howners : ∀ g, (service g).metadata.ownerReferences = []) :
    Returns (applyService cr (do let g ← deref global; return service g)) w ↔ global.isSome := by
  refine (returns_applyService_iff h cr fun s hs => ?_).trans ?_
  · obtain ⟨g, -, hs⟩ := except_bind_ok_inv hs
    cases hs
    exact howners g
  · rcases global with - | g
    · exact iff_of_false (by rintro ⟨s, ⟨⟩⟩) (by rintro ⟨⟩)
    · exact iff_of_true ⟨service g, rfl⟩ rfl

theorem global_of_newServerDeploymentForCR {i : ℕ} {d : Deployment}
    (h : p.newServerDeploymentForCR i = .ok d) :
    p.cr.spec.global.isSome ∧ d.metadata.ownerReferences = [] := by
  obtain ⟨g, hg, h⟩ := except_bind_ok_inv h
  obtain ⟨affinity, -, h⟩ := except_bind_ok_inv h
  cases h
  exact ⟨Option.isSome_of_eq_some (deref_ok_inv hg), rfl⟩

/-- The claim of a server is built with the annotations of the custom resource. -/
theorem made_newZooKeeperPersistentVolumeClaimForCR {i : ℕ} {claim : PersistentVolumeClaim}
    (h : p.newZooKeeperPersistentVolumeClaimForCR i = .ok (some claim)) :
    claim.Made (claimAnnotations p.cr) := by
  obtain ⟨name, -, h⟩ := except_bind_ok_inv h
  obtain ⟨label, -, h⟩ := except_bind_ok_inv h
  obtain ⟨storageClass, -, h⟩ := except_bind_ok_inv h
  obtain ⟨g, hg, h⟩ := except_bind_ok_inv h
  rw [claimAnnotations_eq hg]
  exact made_processNonSharedPersistentVolumeClaim h

/-- The claim and the Deployment of a server can be built, and the claim can be stored. -/
def ServerReady (i : ℕ) (w : World) : Prop :=
  (∃ claim, p.newZooKeeperPersistentVolumeClaimForCR i = .ok claim ∧
    ∀ c ∈ claim, w.ClaimApplies c) ∧
    ∃ d, p.newServerDeploymentForCR i = .ok d

/-- The Secret is stored, unless it is the empty one. -/
def Stored (secret : Secret) (w : World) : Prop :=
  secret.metadata.name ≠ "" → (w.get? .secret secret.metadata.name).isSome

/-- A Secret that is stored under its name stays so. -/
theorem Stored.evolves {secret secret' : Secret} {w w' : World} (h : Stored secret w)
    (hname : secret'.metadata.name = secret.metadata.name) (he : Evolves w w') :
    Stored secret' w' := by
  unfold Stored
  rw [hname]
  exact fun hne => he.present _ _ (h hne)

/-- The footprint of a step that leaves the hashes alone. -/
def withoutHashes : Footprint := ⟨Set.univ, Set.univ, Set.univ, ∅⟩

/-- The footprint of a step that leaves the claims alone. -/
def withoutClaims : Footprint := ⟨∅, Set.univ, Set.univ, Set.univ⟩

theorem owns_withoutClaims (secret : Secret) : withoutClaims.Owns secret :=
  owns_of_univ rfl secret

/-- With annotations wanted, the round of a server leaves the claims without annotations what they
are. -/
theorem applyServer_sameClaims (w₀ : World) (h : claimAnnotations p.cr ≠ ∅) (rolling : Bool)
    (secret : Secret) (i : ℕ) :
    Triple (SameClaims w₀) (p.applyServer rolling secret i) (fun _ => SameClaims w₀)
      fun _ => SameClaims w₀ := by
  have hquiet {α : Type} {m : Op α} (hm : Within (Touches withoutClaims.fields) m) :
      Triple (SameClaims w₀) m (fun _ => SameClaims w₀) fun _ => SameClaims w₀ :=
    hm.triple fun _ _ hw ht => trans_of SameClaims hw (sameClaims_of_touches rfl ht)
  refine (hquiet (applyService_touches _ _)).bind fun _ => ?_
  refine Triple.bind (Q := fun claim w => SameClaims w₀ w ∧
    p.newZooKeeperPersistentVolumeClaimForCR i = .ok claim) ?_ fun claim => ?_
  · exact triple_build (fun _ _ hclaim hw => ⟨hw, hclaim⟩) fun _ _ hw => hw
  refine Triple.bind (Q := fun _ => SameClaims w₀) ?_ fun _ => ?_
  · rcases claim with - | claim
    · exact triple_pure fun _ hw => hw.1
    · refine (createPersistentVolumeClaim_sameClaims w₀ claim).conseq (fun w hw => ⟨hw.1, .inl ?_⟩)
        (fun _ _ hw => hw) fun _ _ hw => hw
      rwa [wanted_of_storedAnnotations
        (p.made_newZooKeeperPersistentVolumeClaimForCR hw.2).annotations]
  refine (hquiet (createServiceAccount_touches ⟨trivial, by simp⟩)).bind fun _ => ?_
  refine (hquiet (p.applyVault_touches (owns_withoutClaims secret))).bind fun secret' => ?_
  refine (hquiet (applyDeployment_touches _ _ fun _ _ => trivial)).bind fun _ => ?_
  exact (hquiet (p.awaitServer_touches _ _)).bind fun _ => triple_pure fun _ hw => hw

/-- After the credentials step there is nothing more to clean into a nil map. -/
theorem applyServer_cleanApplies (hvault : p.cr.vault?.isSome) (rolling : Bool) (secret : Secret)
    (i : ℕ) : Yields CleanApplies (p.applyServer rolling secret i) := by
  refine yields_of_last fun _ => yields_of_last fun _ => yields_of_last fun _ => ?_
  refine yields_of_last fun _ => Yields.bind (Q := CleanApplies) ?_ fun secret' hclean =>
    yields_of_last fun _ => yields_of_last fun _ => yields_pure hclean
  obtain ⟨vault, hvault⟩ := Option.isSome_iff_exists.mp hvault
  rw [applyVault, hvault]
  refine yields_of_last fun _ => yields_of_last fun _ => yields_of_last fun _ => ?_
  exact yields_of_last fun _ => yields_of_last fun _ => yields_of_last fun _ =>
    cleanSecret_cleanApplies _ _

/-- A round of the loop returns when the server is ready and the Secret can be cleaned. -/
theorem returns_applyServer_iff {w₀ w : World} (h : Calm w)
    (hclaims : claimAnnotations p.cr ≠ ∅ → SameClaims w₀ w) {secret : Secret}
    (hstored : Stored secret w) (rolling : Bool) (i : ℕ) :
    Returns (p.applyServer rolling secret i) w ↔
      p.ServerReady i w₀ ∧ (p.cr.vault?.isSome → CleanApplies secret) := by
  have hround : Returns (p.applyServer rolling secret i) w ↔ p.cr.spec.global.isSome ∧
      ∃ claim, p.newZooKeeperPersistentVolumeClaimForCR i = .ok claim ∧
        (∀ c ∈ claim, w₀.ClaimApplies c) ∧ (p.cr.vault?.isSome → CleanApplies secret) ∧
        ∃ d, p.newServerDeploymentForCR i = .ok d := by
    refine returns_bind_iff (returns_applyService_iff_global h p.cr fun _ => rfl)
      fun _ t₁ hrun₁ => ?_
    have ht₁ := (applyService_touches (F := withoutClaims) _ _).ok hrun₁
    refine returns_build_bind_iff.trans (exists_congr fun claim => and_congr_right fun hclaim => ?_)
    refine returns_bind_iff ((returns_applyClaim_iff (h.touches ht₁) claim).trans ?_)
      fun _ t₂ hrun₂ => ?_
    · refine forall₂_congr fun c hc => claimApplies_iff (fun hne => ?_)
        (p.made_newZooKeeperPersistentVolumeClaimForCR (hc ▸ hclaim)).annotations
      exact trans_of SameClaims (hclaims hne) (sameClaims_of_touches rfl ht₁)
    have ht₂ := ht₁.evolves.trans
      ((applyClaim_touches (F := withoutDeployments) rfl claim).ok hrun₂).evolves
    refine returns_bind_iff_of_returns (returns_createServiceAccount (h.evolves ht₂) _)
      fun _ t₃ hrun₃ => ?_
    have ht₃ := ht₂.trans
      ((createServiceAccount_touches (T := withoutClaims.fields) ⟨trivial, by simp⟩).ok
        hrun₃).evolves
    refine returns_bind_iff (p.returns_applyVault_iff (h.evolves ht₃) (hstored.evolves rfl ht₃))
      fun secret' t₄ hrun₄ => ?_
    have ht₄ := ht₃.trans ((p.applyVault_touches (owns_withoutClaims secret)).ok hrun₄).evolves
    refine returns_bind_iff_of_last (returns_applyDeployment_iff (h.evolves ht₄) p.cr _
      fun d hd => (p.global_of_newServerDeploymentForCR hd).2) fun _ t₅ hrun₅ => ?_
    -- the Deployment was built and stored, so that it can be waited for
    have ht₅ := ht₄.trans
      ((applyDeployment_touches (F := withoutClaims) p.cr _ fun _ _ => trivial).ok hrun₅).evolves
    obtain ⟨wanted, stored, -, hget, -⟩ := (p.applyDeployment_establishes i _).ok trivial hrun₅
    obtain ⟨d, t, hbuild, -⟩ := bind_ok_inv hrun₅
    have hglobal := (p.global_of_newServerDeploymentForCR (build_ok_inv hbuild).1).1
    exact (p.returns_awaitServer (h.evolves ht₅) hglobal rolling
      (Option.isSome_of_eq_some hget)).bind fun _ _ _ => returns_pure _
  rw [hround]
  constructor
  · rintro ⟨-, claim, hclaim, happly, hclean, hd⟩
    exact ⟨⟨⟨claim, hclaim, happly⟩, hd⟩, hclean⟩
  · rintro ⟨⟨⟨claim, hclaim, happly⟩, d, hd⟩, hclean⟩
    exact ⟨(p.global_of_newServerDeploymentForCR hd).1, claim, hclaim, happly, hclean, d, hd⟩

/-- The loop over the servers returns when all servers are ready; the Secret is cleaned in
the first round. -/
theorem returns_servers_iff {w₀ w : World} (h : Calm w)
    (hclaims : claimAnnotations p.cr ≠ ∅ → SameClaims w₀ w) {secret : Secret}
    (hstored : Stored secret w) (hR : 0 < p.spec.replicas) (rolling : Bool) :
    Returns (foldEach p.serverIds secret (p.applyServer rolling)) w ↔
      (∀ i ∈ p.serverIds, p.ServerReady i w₀) ∧ (p.cr.vault?.isSome → CleanApplies secret) := by
  refine (returns_foldEach_iff (I := fun secret' t => Calm t ∧
    (claimAnnotations p.cr ≠ ∅ → SameClaims w₀ t) ∧ Stored secret' t ∧
    (p.cr.vault?.isSome → (CleanApplies secret' ↔ CleanApplies secret)))
    (C := fun i => p.ServerReady i w₀ ∧ (p.cr.vault?.isSome → CleanApplies secret))
    (fun secret' t i _ ht => ?_) (fun secret' t i _ ht secret'' t' hrun => ?_)
    ⟨h, hclaims, hstored, fun _ => Iff.rfl⟩).trans ?_
  · obtain ⟨hcalm, hsame, hst, hclean⟩ := ht
    refine (p.returns_applyServer_iff hcalm hsame hst rolling i).trans (and_congr_right fun _ => ?_)
    exact forall_congr' hclean
  · obtain ⟨hcalm, hsame, hst, hclean⟩ := ht
    have hround := (p.returns_applyServer_iff hcalm hsame hst rolling i).mp ⟨_, _, hrun⟩
    have howns : withoutHashes.Owns secret' := owns_of_univ rfl secret'
    have hevolves := ((p.applyServer_touches rfl rolling howns trivial).ok hrun).evolves
    refine ⟨hcalm.evolves hevolves, fun hne => ?_,
      hst.evolves (p.applyServer_yields rolling secret' i t secret'' t' hrun) hevolves,
      fun hvault => ?_⟩
    · exact (p.applyServer_sameClaims w₀ hne rolling secret' i).ok (hsame hne) hrun
    · exact iff_of_true (p.applyServer_cleanApplies hvault rolling secret' i t secret'' t' hrun)
        ((hclean hvault).mp (hround.2 hvault))
  · -- there is a first round
    have hone : 1 ∈ p.serverIds := p.mem_serverIds.mpr ⟨le_rfl, by omega⟩
    exact ⟨fun hall => ⟨fun i hi => (hall i hi).1, (hall 1 hone).2⟩,
      fun hall i hi => ⟨hall.1 i hi, hall.2⟩⟩

/-- Scaling down returns when all the Deployments to be scaled are there. -/
theorem returns_scaleDown_iff {w : World} (h : Calm w) (n : ℕ) :
    Returns (p.scaleDown n) w ↔ ∀ i ∈ p.excessIds n,
      (w.get? .deployment (serverName p.cr.name i)).isSome := by
  refine returns_forEach_iff (I := fun t => Calm t ∧
    ∀ name, (t.get? .deployment name).isSome ↔ (w.get? .deployment name).isSome)
    (fun t i _ ht => ?_) (fun t i _ ht t' hrun => ?_) ⟨h, fun _ => Iff.rfl⟩
  · exact (returns_scaleDeployment_iff ht.1 _ 0).trans (ht.2 _)
  · have htouch := (scaleDeployment_touches 0 (writes_deployment (serverName p.cr.name i))).ok hrun
    refine ⟨ht.1.touches htouch, fun name => ⟨fun hsome => ?_, fun hsome => ?_⟩⟩
    · by_cases hname : name = serverName p.cr.name i
      · have hthere := (returns_scaleDeployment_iff ht.1 _ 0).mp ⟨_, _, hrun⟩
        exact hname ▸ (ht.2 _).mp hthere
      · refine (ht.2 name).mp ?_
        rwa [← htouch.get? (by simpa using hname)]
    · exact htouch.evolves.present _ _ ((ht.2 name).mpr hsome)

/-- The count is the number of active servers. -/
theorem getCurrentDeploymentsCount_calm {w : World} (h : Calm w) :
    p.getCurrentDeploymentsCount w = .ok (p.activeCount w) w :=
  bind_ok (request_calm h _)

/-- **When the loop over the servers returns**: the claims can be applied, the servers in excess are
there, and every server can be built. -/
theorem returns_applyServers_iff {w : World} (h : Calm w) (hR : 0 < p.spec.replicas)
    {secret : Secret} (hstored : Stored secret w) :
    Returns (p.applyServers secret) w ↔
      (p.hasSnapshotsClaim = true → SnapshotsReady p.spec.snapshotStorage p.cr w) ∧
      p.cr.spec.global.isSome ∧
      (∀ i ∈ p.excessIds (p.activeCount w), (w.get? .deployment (serverName p.cr.name i)).isSome) ∧
      (∀ i ∈ p.serverIds, p.ServerReady i w) ∧ (p.cr.vault?.isSome → CleanApplies secret) := by
  refine returns_bind_iff (returns_whenever_iff fun hclaim => returns_applySnapshotsClaim_iff h ?_)
    fun _ t₁ hrun₁ => ?_
  · intro hstandalone
    simp [hasSnapshotsClaim, hstandalone] at hclaim
  have ht₁ := (applySnapshotsClaim_touches (F := withoutDeployments) rfl
    p.spec.snapshotStorage p.cr).whenever.ok hrun₁
  have hsame₁ : claimAnnotations p.cr ≠ ∅ → SameClaims w t₁ := fun hne =>
    (Triple.whenever (fun _ => applySnapshotsClaim_sameClaims w _ hne) fun _ _ hw => hw).ok
      (refl_of SameClaims w) hrun₁
  have h₁ := h.touches ht₁
  -- a section `global` is all that both Services need
  refine (returns_bind_iff (returns_applyService_iff_global h₁ p.cr fun _ => rfl)
    fun _ t₂ hrun₂ => ?_).trans and_self_left
  have ht₂ := (applyService_touches (F := ⟨∅, ∅, ∅, ∅⟩) _ _).ok hrun₂
  refine returns_bind_iff (returns_applyService_iff_global (h₁.touches ht₂) p.cr fun _ => rfl)
    fun _ t₃ hrun₃ => ?_
  have ht₃ := trans_of (Touches _) ht₂ ((applyService_touches _ _).ok hrun₃)
  have hget₃ : ∀ name, t₃.get? .deployment name = t₁.get? .deployment name := fun name =>
    ht₃.get? (Set.notMem_empty name)
  have hget : ∀ name, t₃.get? .deployment name = w.get? .deployment name := fun name =>
    (hget₃ name).trans (ht₁.get? (Set.notMem_empty name))
  have h₃ := h₁.touches ht₃
  rw [Returns, bind_ok (p.getCurrentDeploymentsCount_calm h₃), p.activeCount_congr hget, ← Returns]
  refine returns_bind_iff ((p.returns_scaleDown_iff h₃ _).trans ?_) fun _ t₄ hrun₄ => ?_
  · exact forall₂_congr fun i _ => by rw [hget]
  have ht₄ := (p.scaleDown_touches (F := withoutClaims) _ fun _ _ => trivial).ok hrun₄
  have hevolves := ht₁.evolves.trans (ht₃.evolves.trans ht₄.evolves)
  refine p.returns_servers_iff (h.evolves hevolves) (fun hne => ?_)
    (hstored.evolves rfl hevolves) hR _
  have hlater := trans_of SameClaims (sameClaims_of_touches rfl ht₃) (sameClaims_of_touches rfl ht₄)
  exact trans_of SameClaims (hsame₁ hne) hlater

/-- What a pass needs, apart from Deployments to scale down. -/
structure Prepared (secret : Secret) (w : World) : Prop where
  resource : w.cr.isSome
  global : p.cr.spec.global.isSome
  snapshots : p.hasSnapshotsClaim = true → SnapshotsReady p.spec.snapshotStorage p.cr w
  servers : ∀ i ∈ p.serverIds, p.ServerReady i w
  vault : p.cr.vault?.isSome → CleanApplies secret

/-- The Deployments that are to be scaled down are there. -/
def NoGap (w : World) : Prop :=
  ∀ i : ℕ, p.spec.replicas < i → i ≤ p.activeCount w →
    (w.get? .deployment (serverName p.cr.name i)).isSome

/-- The servers in excess are there exactly if the numbers have no gap. -/
theorem noGap_iff {w : World} (hR : 0 < p.spec.replicas) :
    (∀ i ∈ p.excessIds (p.activeCount w), (w.get? .deployment (serverName p.cr.name i)).isSome) ↔
      p.NoGap w := by
  have hmem {i : ℕ} : i ∈ p.excessIds (p.activeCount w) ↔
      p.spec.replicas < i ∧ i ≤ p.activeCount w := by
    rw [p.mem_excessIds]
    omega
  exact ⟨fun h i hlt hle => h i (hmem.mpr ⟨hlt, hle⟩),
    fun h i hi => h i (hmem.mp hi).1 (hmem.mp hi).2⟩

/-- The status is updated as long as the custom resource is there. -/
theorem returns_updateZooKeeperStatus_iff {w : World} (h : Calm w) :
    Returns p.updateZooKeeperStatus w ↔ w.cr.isSome := by
  refine returns_bind_iff_of_returns (returns_listPods h _) fun pods t hrun => ?_
  have ht := (listPods_touches (T := ∅) _).ok hrun
  have hcalm : Calm t := h.touches ht
  refine returns_bind_iff_of_returns (returns_update _) fun _ t' hrun' => ?_
  have hstatus : Calm t' ∧ t'.cr = t.cr := by
    obtain rfl := update_ok_inv hrun'
    exact ⟨⟨hcalm.faults, hcalm.cooperative⟩, rfl⟩
  rw [returns_statusUpdate_iff hstatus.1, hstatus.2, ht.evolves.cr]

theorem returns_markRestarts {w : World} (h : Calm w) (secret : Secret) :
    Returns (p.markRestarts secret) w := by
  refine (returns_forEach_iff (I := Calm) (C := fun _ => True) (fun t i _ ht => ?_)
    (fun t i _ ht t' hrun => ?_) h).mpr fun _ _ => trivial
  · exact iff_true_intro (returns_updateDeploymentSecretRestartAnnotations ht _ _)
  · exact ht.touches
      ((updateDeploymentSecretRestartAnnotations_touches _ (writes_deployment _)).ok hrun)

/-- **When a pass returns.** When nothing fails, it needs what is prepared and no gap. -/
theorem returns_applyPass_iff {w : World} (h : Calm w) (hR : 0 < p.spec.replicas) {secret : Secret}
    (hstored : Stored secret w) :
    Returns (p.applyPass secret) w ↔ p.Prepared secret w ∧ p.NoGap w := by
  have howns : withoutHashes.Owns secret := owns_of_univ rfl secret
  have happly : Returns (p.apply secret) w ↔ p.Prepared secret w ∧ p.NoGap w := by
    rw [apply, if_pos hR]
    refine (returns_bind_iff (B := w.cr.isSome) (p.returns_applyServers_iff h hR hstored)
      fun secret' t hrun => returns_bind_iff_of_last ?_ fun _ _ _ => returns_pure _).trans ?_
    · have ht := ((p.applyServers_touches rfl howns fun _ => trivial).ok hrun).evolves
      rw [p.returns_updateZooKeeperStatus_iff (h.evolves ht), ht.cr]
    · rw [p.noGap_iff hR]
      constructor
      · rintro ⟨⟨hsnapshots, hglobal, hgap, hservers, hclean⟩, hcr⟩
        exact ⟨⟨hcr, hglobal, hsnapshots, hservers, hclean⟩, hgap⟩
      · rintro ⟨⟨hcr, hglobal, hsnapshots, hservers, hclean⟩, hgap⟩
        exact ⟨⟨hsnapshots, hglobal, hgap, hservers, hclean⟩, hcr⟩
  refine returns_bind_iff_of_last happly fun secret' t hrun => ?_
  have hcalm := h.touches ((p.apply_touches rfl howns fun _ => trivial).ok hrun)
  exact (p.returns_markRestarts hcalm secret').bind fun _ _ _ => returns_update _

/-! ## The servers after a pass -/

/-- A Secret that was watched is stored. -/
theorem watchSecret_stored (secretName : String) (cr : ZooKeeperService) :
    Triple (fun _ => True) (watchSecret secretName cr) Stored fun _ _ => True := by
  refine triple_of_last fun _ => triple_of_last fun _ => triple_of_last fun _ => ?_
  refine (clientUpdate_stores .secret _).conseq (fun _ h => h) (fun stored w hw _ => ?_)
    fun _ _ h => h
  obtain ⟨hget, v, rfl⟩ := hw
  exact Option.isSome_of_eq_some hget

/-- The Secret that a pass enters its apply branch with is stored. -/
theorem Enters.stored {w₀ w : World} {secret : Secret} (h : p.Enters w₀ secret w) :
    Stored secret w := by
  obtain ⟨t, hwatch, htest⟩ := h
  have hstored : Stored secret t := by
    have hrecover : Triple (fun _ => True) (watchOwnSecret p.spec.secretName p.cr) Stored
        fun _ _ => True := by
      refine (watchSecret_stored _ _).recover (fun e k hk => ?_) fun _ _ _ _ => trivial
      split at hk <;> cases hk
      exact triple_pure fun _ _ hname => absurd rfl hname
    exact hrecover.ok trivial hwatch
  exact hstored.evolves rfl
    ((testChanged_touches (F := withoutClaims) Set.univ_nonempty _ _ _).ok htest).evolves

/-- **The purpose of scaling.** Whatever fails: when the pass returns, the active servers are
those from 1 to `Replicas`. And it does return when nothing fails. -/
def Downscales (secret : Secret) (w : World) : Prop :=
  (∀ faults environment w',
    p.applyPass secret { w with faults := faults, environment := environment } = .ok () w' →
      ∀ i : ℕ, 1 ≤ i → (p.Active i w' ↔ (i : ℤ) ≤ p.spec.replicas)) ∧
  ∀ environment : Environment, environment.Cooperative →
    Returns (p.applyPass secret) { w with faults := [], environment := environment }

/-- The numbers of the active servers are not above both their count and `Replicas`. -/
def NoOutlier (w : World) : Prop :=
  ∀ i : ℕ, 1 ≤ i → p.Active i w → (i : ℤ) ≤ p.spec.replicas ∨ i ≤ p.activeCount w

/-- An environment in which all Deployments are ready at once. -/
def readyAtOnce : Environment where
  observe _ deployments :=
    { pods := []
      statuses := fun n => (Store.get? deployments n).elim {} fun d =>
        { readyReplicas := d.replicas, updatedReplicas := d.replicas } }
  password _ := "password"

theorem cooperative_readyAtOnce : readyAtOnce.Cooperative := by
  intro time deployments
  refine ⟨by rintro _ ⟨⟩, fun n d hd => ?_⟩
  simp only [readyAtOnce, hd, Option.elim_some, min_self]

/-- **When scaling does what it should.** Apart from what any pass needs, no active server
may have a number above their count, unless it is wanted, and no number up to the count may
have no Deployment. -/
theorem downscales_iff {w₀ w : World} {secret : Secret} (henter : p.Enters w₀ secret w)
    (hR : 0 < p.spec.replicas) :
    p.Downscales secret w ↔ p.Prepared secret w ∧ p.NoOutlier w ∧ p.NoGap w := by
  have hcalm : ∀ environment : Environment, environment.Cooperative →
      Calm { w with faults := [], environment := environment } := fun _ h => ⟨rfl, h⟩
  have hreturns : ∀ environment : Environment, environment.Cooperative →
      (Returns (p.applyPass secret) { w with faults := [], environment := environment } ↔
        p.Prepared secret w ∧ p.NoGap w) := fun environment h => by
    refine (p.returns_applyPass_iff (hcalm environment h) hR henter.stored).trans ?_
    exact and_congr_left' ⟨fun h => ⟨h.resource, h.global, h.snapshots, h.servers, h.vault⟩,
      fun h => ⟨h.resource, h.global, h.snapshots, h.servers, h.vault⟩⟩
  constructor
  · rintro ⟨hexact, hreturn⟩
    have hready := hreturn readyAtOnce cooperative_readyAtOnce
    obtain ⟨hprepared, hgap⟩ := (hreturns _ cooperative_readyAtOnce).mp hready
    refine ⟨hprepared, fun i hi hactive => ?_, hgap⟩
    -- a pass would leave an outlier active
    obtain ⟨u, w', hrun⟩ := hready
    by_contra hout
    rw [not_or] at hout
    have hstill := (p.active_applyPass hR hrun hi).mpr (.inr
      ⟨⟨not_le.mp hout.2, not_le.mp hout.1⟩, hactive⟩)
    exact hout.1 ((hexact [] readyAtOnce w' hrun i hi).mp hstill)
  · rintro ⟨hprepared, hout, hgap⟩
    refine ⟨fun faults environment w' hrun i hi => ?_, fun environment h =>
      (hreturns environment h).mpr ⟨hprepared, hgap⟩⟩
    rw [p.active_applyPass hR hrun hi, or_iff_left_iff_imp]
    rintro ⟨⟨hcount, hbig⟩, hactive⟩
    rcases hout i hi hactive with hsmall | hsmall
    · exact hsmall
    · exact absurd hcount (not_lt.mpr hsmall)

/-! ## Gaps among the servers -/

/-- One server is wanted. -/
def sampleProvider : ZooKeeperResourceProvider :=
  HashGate.sampleResource.providerFor (HashGate.sampleZooKeeper "zookeeper:1")

/-- Servers with the given numbers and replicas. -/
def sampleServers (servers : List (ℕ × ℤ)) : Store .deployment :=
  servers.foldl (fun deployments server =>
    (sampleProvider.newServerDeploymentForCR server.1).toOption.elim deployments fun d =>
      deployments.put { d with replicas := server.2 }) ∅

/-- A cluster with these servers. -/
def sampleCluster (servers : List (ℕ × ℤ)) : World :=
  { HashGate.sampleSession.world with
    objects := fun
      | .deployment => sampleServers servers
      | k => HashGate.sampleSession.world.objects k }

/-- A fresh controller enters the apply branch. -/
theorem exists_enters (servers : List (ℕ × ℤ)) :
    ∃ secret w, sampleProvider.Enters (sampleCluster servers) secret w ∧
      Touches (Footprint.fields ⟨∅, ∅, Set.univ, ∅⟩) (sampleCluster servers) w := by
  obtain ⟨secret, t, hwatch⟩ := Outcome.returned_iff.mp (show (watchOwnSecret
    sampleProvider.spec.secretName sampleProvider.cr (sampleCluster servers)).returned =
      true from rfl)
  have ht := (watchOwnSecret_touches (F := ⟨∅, ∅, Set.univ, ∅⟩) sampleProvider.cr trivial).ok hwatch
  have hhash : t.resourceHashes.lookup (hashName .zooKeeper) = none :=
    ht.same (.recordedHash (hashName .zooKeeper)) (Set.notMem_empty (hashName .zooKeeper))
  have hchanged : changed .zooKeeper (.zooKeeper sampleProvider.spec) [some secret] t = true := by
    rw [changed, hhash]
    rfl
  have htest : testChanged .zooKeeper (.zooKeeper sampleProvider.spec) [some secret] t =
      .ok true _ := congrArg (fun answer => Outcome.ok answer _) hchanged
  exact ⟨secret, _, ⟨t, hwatch, htest⟩,
    trans_of (Touches _) ht ((testChanged_touches Set.univ_nonempty _ _ _).ok htest)⟩

theorem mem_of_get?_sampleServers {servers : List (ℕ × ℤ)} {name : String} {d : Deployment}
    (h : (sampleServers servers).get? name = some d) :
    ∃ server ∈ servers, name = serverName sampleProvider.cr.name server.1 := by
  induction servers using List.reverseRecOn with
  | nil => cases h
  | append_singleton servers server ih =>
    rw [sampleServers, List.foldl_append] at h
    rcases hd : sampleProvider.newServerDeploymentForCR server.1 with e | d'
    · rw [List.foldl_cons, hd] at h
      obtain ⟨server', hmem, hname⟩ := ih h
      exact ⟨server', List.mem_append_left _ hmem, hname⟩
    · by_cases hname : name = serverName sampleProvider.cr.name server.1
      · exact ⟨server, List.mem_append_right _ (List.mem_singleton_self _), hname⟩
      · rw [List.foldl_cons, hd] at h
        have hnamed : d'.metadata.name = _ := sampleProvider.name_newServerDeploymentForCR hd
        have hne : name ≠ Kind.name .deployment { d' with replicas := server.2 } := fun heq =>
          hname (heq.trans hnamed)
        obtain ⟨server', hmem, hname'⟩ := ih ((Store.get?_put_of_ne _ hne).symm.trans h)
        exact ⟨server', List.mem_append_left _ hmem, hname'⟩

theorem serversReady_sampleProvider (w : World) : ∀ i ∈ sampleProvider.serverIds,
    sampleProvider.ServerReady i w := by
  intro i hi
  obtain rfl : i = 1 := List.mem_singleton.mp hi
  exact ⟨⟨none, rfl, by rintro _ ⟨⟩⟩, _, rfl⟩

/-- Two servers too many are scaled down. -/
theorem downscales_segment : ∃ secret w,
    sampleProvider.Enters (sampleCluster [(1, 1), (2, 1), (3, 1)]) secret w ∧
      0 < sampleProvider.spec.replicas ∧ sampleProvider.Downscales secret w := by
  obtain ⟨secret, w, henter, htouch⟩ := exists_enters [(1, 1), (2, 1), (3, 1)]
  have hget : ∀ name,
    w.get? .deployment name = (sampleServers [(1, 1), (2, 1), (3, 1)]).get? name :=
    fun name => htouch.get? (Set.notMem_empty name)
  -- all three Deployments have a pod to run
  have hcount : sampleProvider.activeCount w = 3 := by
    rw [sampleProvider.activeCount_congr (w := sampleCluster [(1, 1), (2, 1), (3, 1)]) hget]
    decide +kernel
  refine ⟨secret, w, henter, one_pos, (sampleProvider.downscales_iff henter one_pos).mpr
    ⟨⟨?_, rfl, ?_, serversReady_sampleProvider w, ?_⟩, fun i hi hactive => ?_, fun i hlt hle => ?_⟩⟩
  · rw [htouch.evolves.cr]
    rfl
  · exact fun h => absurd h (by decide)
  · exact fun h => absurd h (by decide)
  · obtain ⟨r, hr, -⟩ := hactive
    obtain ⟨d, hd, -⟩ := Option.map_eq_some_iff.mp hr
    obtain ⟨server, hserver, hname⟩ := mem_of_get?_sampleServers ((hget _).symm.trans hd)
    obtain rfl : i = server.1 := serverName_injective _ hname
    have hsmall : ∀ server ∈ [((1 : ℕ), (1 : ℤ)), (2, 1), (3, 1)], server.1 ≤ 3 := by decide
    exact .inr (hcount ▸ hsmall server hserver)
  · rw [hget]
    rw [hcount] at hle
    obtain rfl | rfl : i = 2 ∨ i = 3 := by
      have hwanted : sampleProvider.spec.replicas = 1 := rfl
      omega
    · decide +kernel
    · decide +kernel

/-- **A server with a number above the count stays active.** The second server has been
scaled down before, so that two servers are counted and the third is overlooked. -/
theorem not_downscales_gap : ∃ secret w,
    sampleProvider.Enters (sampleCluster [(1, 1), (2, 0), (3, 1)]) secret w ∧
      0 < sampleProvider.spec.replicas ∧ ¬ sampleProvider.Downscales secret w := by
  obtain ⟨secret, w, henter, -⟩ := exists_enters [(1, 1), (2, 0), (3, 1)]
  refine ⟨secret, w, henter, one_pos, fun h => ?_⟩
  obtain ⟨u, w', hrun⟩ := Outcome.returned_iff.mp (show (sampleProvider.reconcile
    (sampleCluster [(1, 1), (2, 0), (3, 1)])).returned = true by decide +kernel)
  have hthird : sampleProvider.replicasOf 3 w' = some 1 := by
    have hnext : sampleProvider.replicasOf 3 (sampleProvider.reconcile
      (sampleCluster [(1, 1), (2, 0), (3, 1)])).next = some 1 := by decide +kernel
    rwa [hrun] at hnext
  have hpass := (sampleProvider.reconcile_eq_applyPass henter).symm.trans hrun
  have hwanted := (h.1 w.faults w.environment w' hpass 3 (by decide)).mp ⟨1, hthird, one_pos⟩
  exact absurd hwanted (by decide)

end ZooKeeperResourceProvider

end QubershipZookeeper.Operator
