import QubershipZookeeper.Downscale

/-!
# Mounted claims

The apply branch of a component stores claims, and then Deployments whose pods mount claims
by name. Whether a claim is mounted and whether it is stored are decided in different places:
a Deployment mounts a claim as soon as a **list** of volumes or labels is not empty, while a
claim is stored only for an **entry** that is not; and a storage type that
`processSnapshotsPersistentVolumeClaim` does not know is mounted, while nothing is stored.

`Reconciler.mountsClaims_iff` says for which custom resources the two agree.
-/

namespace QubershipZookeeper.Operator

open Proc

/-! ## The claims of a pass -/

/-- The claims that were created or found are those with these names. -/
def ClaimsAre (S : Set String) (w : World) : Prop := ∀ n, n ∈ w.claimed ↔ n ∈ S

/-- A step that stores no claims. -/
theorem claimsAre_triple {α : Type} {T : Set Field} {m : Op α} (S : Set String)
    (hT : .claimed ∉ T) (h : Within (Touches T) m) :
    Triple (ClaimsAre S) m (fun _ => ClaimsAre S) fun _ _ => True := by
  refine (h.triple (P := ClaimsAre S) fun w w' hw ht n => ?_).conseq (fun _ h => h)
    (fun _ _ h => h) fun _ _ _ => trivial
  rw [show w'.claimed = w.claimed from ht.same .claimed hT]
  exact hw n

/-- Every claim that is applied is on record. -/
theorem createPersistentVolumeClaim_claims (S : Set String) (claim : PersistentVolumeClaim) :
    Triple (ClaimsAre S) (createPersistentVolumeClaim claim)
      (fun _ => ClaimsAre (insert claim.metadata.name S)) fun _ _ => True := by
  have hnote : Triple (ClaimsAre S) (noteClaim claim.metadata.name)
      (fun _ => ClaimsAre (insert claim.metadata.name S)) fun _ _ => True :=
    triple_update fun w hw n => by
      rw [List.mem_cons, hw n]
      exact Iff.rfl
  refine (claimsAre_triple (T := ∅) S (Set.notMem_empty _)
    (findObject_touches .persistentVolumeClaim _)).bind fun found => ?_
  rcases found with - | found
  · refine Triple.bind (claimsAre_triple (T := {.object .persistentVolumeClaim claim.metadata.name})
      S (by simp) (clientCreate_touches rfl ⟨rfl, by simp⟩)) fun _ => hnote
  · refine hnote.bind fun _ => claimsAre_triple
      (T := {.object .persistentVolumeClaim found.metadata.name}) _ (by simp)
      (updatePersistentVolumeClaim_touches claim ⟨rfl, by simp⟩)

theorem applyClaim_claims (S : Set String) (claim : Option PersistentVolumeClaim) :
    Triple (ClaimsAre S) (applyClaim claim)
      (fun _ => ClaimsAre ({n | ∃ c ∈ claim, n = c.metadata.name} ∪ S)) fun _ _ => True := by
  cases claim with
  | none => exact triple_pure fun w hw n => (hw n).trans (by simp)
  | some claim =>
    refine (createPersistentVolumeClaim_claims S claim).conseq (fun _ h => h) (fun _ w hw n => ?_)
      fun _ _ h => h
    exact (hw n).trans (by simp)

/-! ## Which claims are stored -/

/-- A claim is built under its name. -/
theorem name_newPersistentVolumeClaim {name namespaceName volumeName : String}
    {size : VolumeSize}
    {labels annotations : StringMap} {shared : Bool} {selector : Option StringMap}
    {storageClass : Option String} {claim : PersistentVolumeClaim}
    (h : newPersistentVolumeClaim name namespaceName labels annotations shared volumeName selector
      storageClass size = .ok claim) : claim.metadata.name = name := by
  obtain ⟨storage, -, h⟩ := except_bind_ok_inv h
  cases h
  rfl

/-- The claim has the name; it is there if a volume, a label or a class is given. -/
theorem name_processNonSharedPersistentVolumeClaim {name volumeName label : String}
    {storageClass : Option String} {size : VolumeSize} {namespaceName : String}
    {labels annotations : StringMap}
    {claim : Option PersistentVolumeClaim}
    (h : processNonSharedPersistentVolumeClaim name volumeName label storageClass size namespaceName
      labels annotations = .ok claim) (n : String) :
    (∃ c ∈ claim, n = c.metadata.name) ↔
      (volumeName ≠ "" ∨ label ≠ "" ∨ storageClass ≠ none) ∧ n = name := by
  have hnew : ∀ {selector : Option StringMap}, (some <$> newPersistentVolumeClaim name namespaceName
      labels annotations false volumeName selector storageClass size) = .ok claim →
      ((∃ c ∈ claim, n = c.metadata.name) ↔ n = name) := by
    intro selector hx
    rcases hc : newPersistentVolumeClaim name namespaceName labels annotations false volumeName
      selector storageClass size with e | c <;> rw [hc] at hx <;> cases hx
    simp [name_newPersistentVolumeClaim hc]
  unfold processNonSharedPersistentVolumeClaim at h
  dsimp only at h
  by_cases hvolume : volumeName = ""
  · rw [if_neg (not_not.mpr hvolume)] at h
    by_cases hlabel : label = ""
    · rw [if_neg (not_not.mpr hlabel)] at h
      by_cases hclass : storageClass = none
      · rw [if_pos hclass] at h
        cases h
        simp [hvolume, hlabel, hclass]
      · rw [if_neg hclass] at h
        rw [hnew h]
        simp [hclass]
    · rw [if_pos hlabel] at h
      obtain ⟨key, -, h⟩ := except_bind_ok_inv h
      obtain ⟨value, -, h⟩ := except_bind_ok_inv h
      rw [hnew h]
      simp [hlabel]
  · rw [if_pos hvolume] at h
    rw [hnew h]
    simp [hvolume]

/-- The claim for snapshots or backups that is to be used. -/
def SnapshotStorage.claimName (storage : SnapshotStorage) (name : String) : String :=
  if storage.persistentVolumeClaimName = "" then snapshotsPersistentVolumeClaimPattern name
  else storage.persistentVolumeClaimName

/-- The storage says where its volume comes from: by one of the types for shared volumes, or
as a volume of its own with a volume, a label or a class. -/
def SnapshotStorage.IsProvided (storage : SnapshotStorage) : Prop :=
  storage.persistentVolumeType ∈ ["predefined_claim", "predefined", "storage_class"] ∨
    storage.persistentVolumeType = "standalone" ∧ (storage.persistentVolumeName ≠ "" ∨
      storage.persistentVolumeLabel ≠ "" ∨ storage.storageClass ≠ none)

/-- The claim of the snapshots is made, or found, under its name, or there is none. -/
theorem processSnapshotsPersistentVolumeClaim_names (storage : SnapshotStorage)
    (cr : ZooKeeperService) :
    Yields (fun claim => ∀ n, (∃ c ∈ claim, n = c.metadata.name) ↔
      storage.IsProvided ∧ n = storage.claimName cr.name)
      (processSnapshotsPersistentVolumeClaim storage cr) := by
  refine yields_of_last fun global => ?_
  have hsome {m : Op PersistentVolumeClaim} (htype : storage.IsProvided)
      (hm : Yields (fun c => c.metadata.name = storage.claimName cr.name) m) :
      Yields (fun claim => ∀ n, (∃ c ∈ claim, n = c.metadata.name) ↔
        storage.IsProvided ∧ n = storage.claimName cr.name) (some <$> m) :=
    hm.map fun c hc n => by simp [htype, hc]
  -- the types in the order of the `switch`
  dsimp only
  split
  next htype =>
    refine build_yields fun claim hclaim n => ?_
    rw [name_processNonSharedPersistentVolumeClaim hclaim, SnapshotStorage.IsProvided, htype]
    simp [SnapshotStorage.claimName]
  next hstandalone =>
    split
    next htype =>
      exact hsome (.inl (by simp [htype])) (clientGet_yields .persistentVolumeClaim _)
    next hclaim =>
      split
      next htype =>
        split
        · exact yields_raise _
        · exact hsome (.inl (by simp [htype]))
            (build_yields fun _ hc => name_newPersistentVolumeClaim hc)
      next hpredefined =>
        split
        next htype =>
          exact hsome (.inl (by simp [htype]))
            (build_yields fun _ hc => name_newPersistentVolumeClaim hc)
        next hclass =>
          refine yields_pure fun n => iff_of_false (by simp) fun h => ?_
          rcases h.1 with h | h
          · simp [hclaim, hpredefined, hclass] at h
          · exact hstandalone h.1

theorem applySnapshotsClaim_claims (S : Set String) (storage : SnapshotStorage)
    (cr : ZooKeeperService) :
    Triple (ClaimsAre S) (applySnapshotsClaim storage cr)
      (fun _ => ClaimsAre ({n | storage.IsProvided ∧ n = storage.claimName cr.name} ∪ S))
      fun _ _ => True := by
  refine ((claimsAre_triple (T := ∅) S (Set.notMem_empty _)
    (processSnapshotsPersistentVolumeClaim_touches storage cr)).and_yields
    (processSnapshotsPersistentVolumeClaim_names storage cr)).bind fun claim w hw => ?_
  have hnames : {n | ∃ c ∈ claim, n = c.metadata.name} =
      {n | storage.IsProvided ∧ n = storage.claimName cr.name} := Set.ext hw.2
  rw [← hnames]
  exact applyClaim_claims S claim w hw.1

/-! ## What is stored and mounted -/

/-- The pods of a Deployment mount a claim. -/
def Deployment.Mounts (d : Deployment) (n : String) : Prop :=
  ∃ v ∈ d.podSpec.volumes, v.source = .persistentVolumeClaim n

instance (d : Deployment) (n : String) : Decidable (d.Mounts n) :=
  inferInstanceAs (Decidable (∃ v ∈ d.podSpec.volumes, v.source = .persistentVolumeClaim n))

/-- The stored Deployment has these volumes. -/
def HoldsVolumes (name : String) (volumes : List Volume) (w : World) : Prop :=
  ∃ d, w.get? .deployment name = some d ∧ d.podSpec.volumes = volumes

/-- The volumes of a Deployment stay while it is not written. -/
theorem holdsVolumes_of_touches {T : Set Field} {name : String} {volumes : List Volume}
    {w w' : World} (h : HoldsVolumes name volumes w) (ht : Touches T w w')
    (hT : .object .deployment name ∉ T) : HoldsVolumes name volumes w' := by
  unfold HoldsVolumes
  rw [ht.get? hT]
  exact h

/-- A Deployment that was built and stored has the volumes it was built with. -/
theorem applyDeployment_holdsVolumes (cr : ZooKeeperService) (deployment : Except Panic Deployment)
    (secrets : List (Option Secret)) :
    Triple (fun _ => True) (applyDeployment cr deployment secrets)
      (fun _ w => ∃ d, deployment = .ok d ∧ HoldsVolumes d.metadata.name d.podSpec.volumes w)
      fun _ _ => True := by
  refine Triple.bind (Q := fun d _ => deployment = .ok d)
    (triple_build (fun _ _ hd _ => hd) fun _ _ _ => trivial) fun d => ?_
  refine Triple.bind (Q := fun m _ => deployment = .ok d ∧ m.name = d.metadata.name)
    (triple_lift (fun m _ hm hd => ⟨hd, name_setControllerReference hm⟩) fun _ _ _ _ => trivial)
    fun m w hw => ?_
  have hstores := createOrUpdateDeployment_stores
    (applyAutoRestartSecretAnnotations { d with metadata := m } secrets).1
  refine (hstores.conseq (fun _ h => h) (fun _ w' hw' => ?_) fun _ _ h => h) w trivial
  obtain ⟨v, hv⟩ := hw'
  refine ⟨d, hw.1, ?_⟩
  rw [← hw.2]
  exact ⟨_, hv, rfl⟩

/-- Marking a Deployment for a restart leaves its volumes alone. -/
theorem updateDeploymentSecretRestartAnnotations_holdsVolumes (name : String)
    (volumes : List Volume) (secrets : List (Option Secret)) :
    Within (Keeps (HoldsVolumes name volumes))
      (updateDeploymentSecretRestartAnnotations name secrets) := by
  refine updateDeploymentSecretRestartAnnotations_keeps
    (fun w w' ht hw => holdsVolumes_of_touches hw ht (Set.notMem_empty _)) fun w d hw hd => ?_
  obtain ⟨d', hd', hvolumes⟩ := hw
  obtain rfl : d' = d := Option.some.inj (hd'.symm.trans hd)
  have hname : d'.metadata.name = name := Store.name_of_get? hd
  rw [← hname]
  exact ⟨_, w.get?_store_self .deployment _, hvolumes⟩

/-! ## ZooKeeper -/

namespace ZooKeeperResourceProvider

variable (p : ZooKeeperResourceProvider)

/-- A volume, a label or a class is given for the data of a server. -/
def DataProvided (serverId : ℕ) : Prop :=
  p.spec.storage.className ≠ [] ∨ p.spec.storage.volumes.getD (serverId - 1) "" ≠ "" ∨
    p.spec.storage.labels.getD (serverId - 1) "" ≠ ""

/-- The claim for the data of a server. -/
def dataClaimName (serverId : ℕ) : String := persistentVolumeClaimPattern p.cr.name serverId

/-- The claim for snapshots. -/
def snapshotsClaimName : String := p.spec.snapshotStorage.claimName p.cr.name

/-- A shared volume is given for the snapshots. -/
def SnapshotsProvided : Prop :=
  p.spec.snapshotStorage.persistentVolumeType ≠ "standalone" ∧ p.spec.snapshotStorage.IsProvided

theorem dataClaimName_injective : Function.Injective p.dataClaimName :=
  fun _ _ h => toString_injective ((String.append_right_inj _).mp h)

theorem perServer_ok_inv {xs : List String} {i : ℕ} {x : String} (h : perServer xs i = .ok x) :
    xs.getD (i - 1) "" = x := by
  unfold perServer index at h
  by_cases hxs : xs = []
  · rw [if_pos hxs] at h
    cases h
    rw [hxs]
    rfl
  · rw [if_neg hxs] at h
    rw [List.getD_eq_getElem?_getD]
    split at h <;> cases h
    next hx => rw [hx]; rfl

/-- There is a storage class exactly if some are listed. -/
theorem storageClassName_ok_inv {i : ℕ} {storageClass : Option String}
    (h : p.storageClassName i = .ok storageClass) :
    storageClass ≠ none ↔ p.spec.storage.className ≠ [] := by
  unfold storageClassName at h
  split at h
  next hnone =>
    cases h
    exact iff_of_false (fun h => h rfl) fun h => h hnone
  next className more hsome =>
    refine iff_of_true ?_ (by rw [hsome]; exact List.cons_ne_nil _ _)
    split at h
    · rcases hindex : index (className :: more) (i - 1) with e | x <;> rw [hindex] at h <;> cases h
      exact Option.some_ne_none _
    · cases h
      exact Option.some_ne_none _

/-- The claim of a server is made exactly if its storage is provided. -/
theorem name_newZooKeeperPersistentVolumeClaimForCR {i : ℕ} {claim : Option PersistentVolumeClaim}
    (h : p.newZooKeeperPersistentVolumeClaimForCR i = .ok claim) (n : String) :
    (∃ c ∈ claim, n = c.metadata.name) ↔ p.DataProvided i ∧ n = p.dataClaimName i := by
  obtain ⟨volume, hvolume, h⟩ := except_bind_ok_inv h
  obtain ⟨label, hlabel, h⟩ := except_bind_ok_inv h
  obtain ⟨storageClass, hclass, h⟩ := except_bind_ok_inv h
  obtain ⟨global, -, h⟩ := except_bind_ok_inv h
  rw [name_processNonSharedPersistentVolumeClaim h, DataProvided, perServer_ok_inv hvolume,
    perServer_ok_inv hlabel, p.storageClassName_ok_inv hclass]
  refine and_congr ⟨fun h => ?_, fun h => ?_⟩ Iff.rfl
  · rcases h with h | h | h
    · exact .inr (.inl h)
    · exact .inr (.inr h)
    · exact .inl h
  · rcases h with h | h | h
    · exact .inr (.inr h)
    · exact .inl h
    · exact .inr (.inl h)

/-- The fields outside of which no claim is recorded. -/
theorem claimed_notMem_withoutClaims : Field.claimed ∉ withoutClaims.fields := by
  rintro ⟨n, hn⟩
  exact hn

/-- The round of a server adds its claim to the record. -/
theorem applyServer_claims (S : Set String) (rolling : Bool) (secret : Secret) (i : ℕ) :
    Triple (ClaimsAre S) (p.applyServer rolling secret i)
      (fun _ => ClaimsAre ({n | p.DataProvided i ∧ n = p.dataClaimName i} ∪ S))
        fun _ _ => True := by
  have hquiet {α : Type} {m : Op α} (S : Set String)
    (hm : Within (Touches withoutClaims.fields) m) :=
    claimsAre_triple S claimed_notMem_withoutClaims hm
  refine (hquiet S (applyService_touches _ _)).bind fun _ => ?_
  refine Triple.bind (Q := fun claim w => ClaimsAre S w ∧
    p.newZooKeeperPersistentVolumeClaimForCR i = .ok claim)
    (triple_build (fun _ _ hclaim hw => ⟨hw, hclaim⟩) fun _ _ _ => trivial) fun claim => ?_
  refine Triple.bind (Q := fun _ => ClaimsAre ({n | p.DataProvided i ∧ n = p.dataClaimName i} ∪ S))
    (fun w hw => ?_) fun _ => ?_
  · have hnames : {n | ∃ c ∈ claim, n = c.metadata.name} =
        {n | p.DataProvided i ∧ n = p.dataClaimName i} :=
      Set.ext (p.name_newZooKeeperPersistentVolumeClaimForCR hw.2)
    rw [← hnames]
    exact applyClaim_claims S claim w hw.1
  refine (hquiet _ (createServiceAccount_touches ⟨trivial, by simp⟩)).bind fun _ => ?_
  refine (hquiet _ (p.applyVault_touches (owns_withoutClaims secret))).bind fun secret' => ?_
  refine (hquiet _ (applyDeployment_touches _ _ fun _ _ => trivial)).bind fun _ => ?_
  exact (hquiet _ (p.awaitServer_touches _ _)).bind fun _ => triple_pure fun _ hw => hw

/-- The claims that a pass through the apply branch stores. -/
def claimNames : Set String :=
  {n | p.SnapshotsProvided ∧ n = p.snapshotsClaimName} ∪
    {n | ∃ i ∈ p.serverIds, p.DataProvided i ∧ n = p.dataClaimName i}

/-- The loop over the servers: the record has the claims of all of them, and the one of the
snapshots. -/
theorem applyServers_claims (secret : Secret) :
    Triple (ClaimsAre ∅) (p.applyServers secret) (fun _ => ClaimsAre p.claimNames)
      fun _ _ => True := by
  have hquiet {α : Type} {m : Op α} (S : Set String)
    (hm : Within (Touches withoutClaims.fields) m) :=
    claimsAre_triple S claimed_notMem_withoutClaims hm
  -- a claim is stored for snapshots when the type is neither empty nor standalone
  refine Triple.bind (Q := fun _ => ClaimsAre {n | p.SnapshotsProvided ∧ n = p.snapshotsClaimName})
    (Triple.whenever (fun hclaim => ?_) fun hnone w hw n => ?_) fun _ => ?_
  · simp only [hasSnapshotsClaim, Bool.and_eq_true, decide_eq_true_iff] at hclaim
    refine (applySnapshotsClaim_claims ∅ p.spec.snapshotStorage p.cr).conseq (fun _ h => h)
      (fun _ w hw n => (hw n).trans ?_) fun _ _ h => h
    simp [SnapshotsProvided, snapshotsClaimName, hclaim.2]
  · refine (hw n).trans (iff_of_false (Set.notMem_empty n) ?_)
    rintro ⟨⟨hstandalone, hprovided⟩, -⟩
    simp only [hasSnapshotsClaim, Bool.and_eq_false_iff, decide_eq_false_iff_not, not_not] at hnone
    rcases hnone with hempty | h
    · simp [SnapshotStorage.IsProvided, hempty] at hprovided
    · exact hstandalone h
  refine (hquiet _ (applyService_touches _ _)).bind fun _ => ?_
  refine (hquiet _ (applyService_touches _ _)).bind fun _ => ?_
  refine (hquiet _ p.getCurrentDeploymentsCount_touches).bind fun n => ?_
  refine (hquiet _ (p.scaleDown_touches n fun _ _ => trivial)).bind fun _ => ?_
  -- after so many rounds, the claims of so many servers are stored
  refine (foldEach_triple (I := fun done _ => ClaimsAre
    ({n | p.SnapshotsProvided ∧ n = p.snapshotsClaimName} ∪
      {n | ∃ i ∈ done, p.DataProvided i ∧ n = p.dataClaimName i}))
    (fun done i rest s _ => ?_) secret).conseq (fun w hw n => (hw n).trans (by simp))
    (fun _ _ h => h) fun _ _ h => h
  refine (p.applyServer_claims _ (p.rolling _) s i).conseq (fun _ h => h)
    (fun _ w hw n => (hw n).trans ?_) fun _ _ h => h
  simp only [Set.mem_union, Set.mem_ofPred_eq, List.mem_append, List.mem_singleton]
  constructor
  · rintro (h | h | ⟨j, hj, h⟩)
    · exact .inr ⟨i, .inr rfl, h⟩
    · exact .inl h
    · exact .inr ⟨j, .inl hj, h⟩
  · rintro (h | ⟨j, hj | rfl, h⟩)
    · exact .inr (.inl h)
    · exact .inr (.inr ⟨j, hj, h⟩)
    · exact .inl h

/-- When the pod of a server mounts a claim for its data. -/
theorem dataVolumeSource_eq_iff {i : ℕ} {n : String} :
    p.dataVolumeSource i = .persistentVolumeClaim n ↔
      (p.spec.storage.volumes ≠ [] ∨ p.spec.storage.labels ≠ [] ∨ p.spec.storage.className ≠ []) ∧
        n = p.dataClaimName i := by
  unfold dataVolumeSource
  split
  next h => exact ⟨fun heq => ⟨h, by cases heq; rfl⟩, fun hn => by rw [hn.2]; rfl⟩
  next h => exact iff_of_false (by rintro ⟨⟩) fun hn => h hn.1

/-- When it mounts one for its snapshots. -/
theorem backupVolumeSource_eq_iff {n : String} :
    p.backupVolumeSource = .persistentVolumeClaim n ↔
      ¬ (p.spec.snapshotStorage.persistentVolumeType = "" ∨
        p.spec.snapshotStorage.persistentVolumeType = "standalone") ∧ n = p.snapshotsClaimName := by
  unfold backupVolumeSource snapshotsClaimName SnapshotStorage.claimName
  dsimp only
  by_cases htype : p.spec.snapshotStorage.persistentVolumeType = "" ∨
      p.spec.snapshotStorage.persistentVolumeType = "standalone"
  · rw [if_pos htype]
    exact iff_of_false (by rintro ⟨⟩) fun h => h.1 htype
  · rw [if_neg htype]
    split
    · exact ⟨fun heq => ⟨htype, by cases heq; rfl⟩, fun hn => by rw [hn.2]⟩
    · exact ⟨fun heq => ⟨htype, by cases heq; rfl⟩, fun hn => by rw [hn.2]⟩

/-- The data and the snapshots are all that a server mounts from claims. -/
theorem mem_serverVolumes_iff {global : Global} {i : ℕ} {n : String} :
    (∃ v ∈ p.serverVolumes global i, v.source = .persistentVolumeClaim n) ↔
      p.dataVolumeSource i = .persistentVolumeClaim n ∨
        p.backupVolumeSource = .persistentVolumeClaim n := by
  have hnot : ∀ v ∈ p.serverVolumes global i, v.source = .persistentVolumeClaim n →
      v.source = p.dataVolumeSource i ∨ v.source = p.backupVolumeSource := by
    intro v hv hsource
    simp only [serverVolumes, List.mem_append, List.mem_cons, List.not_mem_nil, or_false,
      List.mem_ite_nil_right] at hv
    rcases hv with (((rfl | rfl | rfl | rfl) | ⟨-, rfl⟩) | ⟨-, rfl⟩) | ⟨-, rfl⟩
    · exact .inl rfl
    · cases hsource
    · exact .inr rfl
    all_goals cases hsource
  constructor
  · rintro ⟨v, hv, hsource⟩
    exact (hnot v hv hsource).imp (fun h => h.symm.trans hsource) fun h => h.symm.trans hsource
  · rintro (h | h)
    · exact ⟨⟨"data", p.dataVolumeSource i⟩, by simp [serverVolumes], h⟩
    · exact ⟨⟨"backup-storage", p.backupVolumeSource⟩, by simp [serverVolumes], h⟩

/-- A held Deployment has the volumes it was built with. -/
theorem volumes_of_holdsServer {i : ℕ} {w : World} (h : p.HoldsServer i w) :
    ∃ global, HoldsVolumes (serverName p.cr.name i) (p.serverVolumes global i) w := by
  obtain ⟨wanted, stored, hwanted, hstored, hsame⟩ := h
  obtain ⟨built, hbuilt, hwanted⟩ := except_bind_ok_inv hwanted
  obtain ⟨m, -, hwanted⟩ := except_bind_ok_inv hwanted
  cases hwanted
  rcases hnew : p.newServerDeploymentForCR i with e | d <;> rw [hnew] at hbuilt <;> cases hbuilt
  obtain ⟨global, -, hnew⟩ := except_bind_ok_inv hnew
  obtain ⟨affinity, -, hnew⟩ := except_bind_ok_inv hnew
  cases hnew
  exact ⟨global, stored, hstored, by rw [hsame.podSpec_eq]⟩

/-- The pass finds that something has changed. -/
def FindsChange (w : World) : Prop :=
  ∃ secret t, watchOwnSecret p.spec.secretName p.cr w = .ok secret t ∧
    changed .zooKeeper (.zooKeeper p.spec) [some secret] t = true

/-- A section whose hash is not remembered is a change, if only the Secret can be watched. -/
theorem findsChange_of_recordedHash {w t : World} {secret : Secret}
    (h : recordedHash w ≠ some (.zooKeeper p.spec))
    (hwatch : watchOwnSecret p.spec.secretName p.cr w = .ok secret t) : p.FindsChange w := by
  have hwatched := (watchOwnSecret_touches (F := ⟨∅, ∅, Set.univ, ∅⟩) p.cr trivial).ok hwatch
  refine ⟨secret, t, hwatch, Bool.not_eq_false _ ▸ fun hfalse => h ?_⟩
  rw [← recordedHash_of_touches hwatched (Set.notMem_empty _)]
  exact p.recordedHash_of_not_changed hfalse

/-- A pass that found a change has stored the claims and the Deployments. -/
theorem reconcile_stores {w w' : World} (hw : w.claimed = []) (hchange : p.FindsChange w)
    (hrun : p.reconcile w = .ok () w') :
    (p.serverIds ≠ [] → ClaimsAre p.claimNames w') ∧ p.HoldsServers w' := by
  obtain ⟨secret, t, hwatch, hchanged⟩ := hchange
  obtain ⟨final, u, hpass, hremember⟩ := bind_ok_inv hrun
  rw [pass, bind_ok hwatch] at hpass
  obtain ⟨isChanged, t₁, htest, hrest⟩ := bind_ok_inv hpass
  obtain rfl : isChanged = true := (testChanged_ok_inv htest).trans hchanged
  rw [if_pos rfl] at hrest
  obtain ⟨secret', u₁, happly, hrest⟩ := bind_ok_inv hrest
  obtain ⟨_, u₂, hmark, hpure⟩ := bind_ok_inv hrest
  obtain ⟨-, rfl⟩ := pure_ok_inv hpure
  have hkeeps : ∀ i, p.HoldsServer i u₁ → p.HoldsServer i w' := fun i hi =>
    (p.keeps_of_withoutDeployments i (remember_touches _ trivial fun s _ => owns_of_univ rfl s)).ok
      hremember ((p.markRestarts_keeps i secret').ok hmark hi)
  refine ⟨fun hservers => ?_, fun i hi => ?_⟩
  · -- the claims are those of the apply branch; nothing else records any
    have hquiet {α : Type} {m : Op α} (S : Set String)
        (hm : Within (Touches withoutClaims.fields) m) :=
      claimsAre_triple S claimed_notMem_withoutClaims hm
    have hstart : ClaimsAre ∅ w := fun n => by simp [hw]
    have hwatched := (hquiet ∅ (watchOwnSecret_touches _ trivial)).ok hstart hwatch
    have htested := (hquiet ∅ (testChanged_touches Set.univ_nonempty _ _ _)).ok hwatched htest
    have hpositive : 0 < p.spec.replicas := by
      by_contra h
      refine hservers ?_
      rw [serverIds, Int.toNat_of_nonpos (not_lt.mp h)]
      rfl
    have happly' : Triple (ClaimsAre ∅) (p.apply secret) (fun _ => ClaimsAre p.claimNames)
        fun _ _ => True := by
      unfold apply
      rw [if_pos hpositive]
      exact (p.applyServers_claims secret).bind fun _ =>
        (hquiet _ p.updateZooKeeperStatus_touches).bind fun _ => triple_pure fun _ h => h
    have hclaims := happly'.ok htested happly
    have hmarked := (hquiet _ (p.markRestarts_touches secret' fun _ => trivial)).ok hclaims hmark
    exact (hquiet _ (remember_touches _ trivial fun s _ => owns_of_univ rfl s)).ok hmarked hremember
  · exact hkeeps i ((p.apply_establishes secret).ok trivial happly i hi)

/-- The storage of the servers is provided for: a volume, a label or a class is given for the
data of every server, or none for any; and the type of the storage for snapshots is a known
one. A claim that is missing on one side may also be stored for the other. -/
def StorageProvided : Prop :=
  ∀ i ∈ p.serverIds,
    (p.DataProvided i ∨ (p.spec.storage.volumes = [] ∧ p.spec.storage.labels = []) ∨
      (p.SnapshotsProvided ∧ p.snapshotsClaimName = p.dataClaimName i)) ∧
    (p.SnapshotsProvided ∨ p.spec.snapshotStorage.persistentVolumeType = "" ∨
      p.spec.snapshotStorage.persistentVolumeType = "standalone" ∨
      ∃ j ∈ p.serverIds, p.DataProvided j ∧ p.dataClaimName j = p.snapshotsClaimName)

/-- The claim of the data is there if it is provided, or if the snapshots have a claim of the same
name. -/
theorem dataClaimName_mem_claimNames_iff {i : ℕ} (hi : i ∈ p.serverIds) :
    p.dataClaimName i ∈ p.claimNames ↔
      p.DataProvided i ∨ (p.SnapshotsProvided ∧ p.snapshotsClaimName = p.dataClaimName i) := by
  constructor
  · rintro (⟨hprovided, hname⟩ | ⟨j, -, hprovided, hname⟩)
    · exact .inr ⟨hprovided, hname.symm⟩
    · exact .inl (p.dataClaimName_injective hname ▸ hprovided)
  · rintro (hprovided | ⟨hprovided, hname⟩)
    · exact .inr ⟨i, hi, hprovided, rfl⟩
    · exact .inl ⟨hprovided, hname.symm⟩

/-- The same the other way round. -/
theorem snapshotsClaimName_mem_claimNames_iff :
    p.snapshotsClaimName ∈ p.claimNames ↔ p.SnapshotsProvided ∨
      ∃ j ∈ p.serverIds, p.DataProvided j ∧ p.dataClaimName j = p.snapshotsClaimName := by
  constructor
  · rintro (⟨hprovided, -⟩ | ⟨j, hj, hprovided, hname⟩)
    · exact .inl hprovided
    · exact .inr ⟨j, hj, hprovided, hname.symm⟩
  · rintro (hprovided | ⟨j, hj, hprovided, hname⟩)
    · exact .inl ⟨hprovided, rfl⟩
    · exact .inr ⟨j, hj, hprovided, hname.symm⟩

/-- The claims that a server mounts are stored in the same pass, exactly if its storage is
provided for. -/
theorem mounts_subset_iff :
    (∀ i ∈ p.serverIds, ∀ n, p.dataVolumeSource i = .persistentVolumeClaim n ∨
      p.backupVolumeSource = .persistentVolumeClaim n → n ∈ p.claimNames) ↔ p.StorageProvided := by
  refine forall₂_congr fun i hi => ?_
  -- the data and the snapshots are mounted from different claims, and compared apart
  have hdata : (∀ n, p.dataVolumeSource i = .persistentVolumeClaim n → n ∈ p.claimNames) ↔
      ((p.spec.storage.volumes ≠ [] ∨ p.spec.storage.labels ≠ [] ∨ p.spec.storage.className ≠ []) →
        p.dataClaimName i ∈ p.claimNames) := by
    refine ⟨fun h hgiven => h _ (p.dataVolumeSource_eq_iff.mpr ⟨hgiven, rfl⟩), fun h n hn => ?_⟩
    obtain ⟨hgiven, rfl⟩ := p.dataVolumeSource_eq_iff.mp hn
    exact h hgiven
  have hsnapshots : (∀ n, p.backupVolumeSource = .persistentVolumeClaim n → n ∈ p.claimNames) ↔
      (¬ (p.spec.snapshotStorage.persistentVolumeType = "" ∨
        p.spec.snapshotStorage.persistentVolumeType = "standalone") →
        p.snapshotsClaimName ∈ p.claimNames) := by
    refine ⟨fun h htype => h _ (p.backupVolumeSource_eq_iff.mpr ⟨htype, rfl⟩), fun h n hn => ?_⟩
    obtain ⟨htype, rfl⟩ := p.backupVolumeSource_eq_iff.mp hn
    exact h htype
  refine ((forall_congr' fun n => or_imp).trans forall_and).trans ?_
  rw [hdata, hsnapshots, p.dataClaimName_mem_claimNames_iff hi,
    p.snapshotsClaimName_mem_claimNames_iff]
  refine and_congr ⟨fun h => ?_, ?_⟩ ⟨fun h => ?_, ?_⟩
  · by_cases hlists : p.spec.storage.volumes = [] ∧ p.spec.storage.labels = []
    · exact .inr (.inl hlists)
    · refine (h ?_).imp_right .inr
      exact (not_and_or.mp hlists).imp_right .inl
  · rintro (hprovided | ⟨hvolumes, hlabels⟩ | hshared) hgiven
    · exact .inl hprovided
    · exact .inl (.inl ((hgiven.resolve_left (not_not.mpr hvolumes)).resolve_left
        (not_not.mpr hlabels)))
    · exact .inr hshared
  · by_cases htype : p.spec.snapshotStorage.persistentVolumeType = "" ∨
        p.spec.snapshotStorage.persistentVolumeType = "standalone"
    · exact .inr (htype.imp_right .inl)
    · exact (h htype).imp_right fun h => .inr (.inr h)
  · rintro (hprovided | htype | htype | hshared) hne
    · exact .inl hprovided
    · exact absurd (.inl htype) hne
    · exact absurd (.inr htype) hne
    · exact .inr hshared

end ZooKeeperResourceProvider

/-! ## Monitoring and the backup daemon -/

/-- The end of an apply branch: the Deployment is stored, and the pods are reported. -/
theorem applyLast_holdsVolumes {β : Type} (cr : ZooKeeperService) {α : Type}
    {deployment : Except Panic Deployment} (secrets : List (Option Secret)) {name : String}
    {volumes : β → List Volume} {status : Op Unit} (a : α)
    (hbuilt : ∀ d, deployment = .ok d → d.metadata.name = name ∧ ∃ b, d.podSpec.volumes = volumes b)
    (hstatus : Within (Touches ∅) status) :
    Triple (fun _ => True) (do
      applyDeployment cr deployment secrets
      status
      pure a : Op α) (fun _ w => ∃ b, HoldsVolumes name (volumes b) w) fun _ _ => True := by
  refine (applyDeployment_holdsVolumes cr deployment secrets).bind fun _ => ?_
  refine Triple.bind (Q := fun _ w => ∃ b, HoldsVolumes name (volumes b) w) (fun w hw => ?_)
    fun _ => triple_pure fun _ h => h
  obtain ⟨d, hd, hholds⟩ := hw
  obtain ⟨rfl, b, hb⟩ := hbuilt d hd
  rw [hb] at hholds
  rcases hrun : status w with ⟨u, w'⟩ | ⟨e, w'⟩
  · exact ⟨b, holdsVolumes_of_touches hholds (hstatus.ok hrun) (Set.notMem_empty _)⟩
  · trivial

/-- The end of a pass: neither marking for restarts nor remembering concerns the volumes. -/
theorem passLast_holdsVolumes {name : String} {volumes : List Volume}
    {secrets : List (Option Secret)} {c : Component} {digest : Digest} {w t w' : World}
    (h : HoldsVolumes name volumes w)
    (hmark : updateDeploymentSecretRestartAnnotations name secrets w = .ok () t)
    (hremember : remember c digest secrets t = .ok () w') : HoldsVolumes name volumes w' := by
  have hmarked := (updateDeploymentSecretRestartAnnotations_holdsVolumes name volumes secrets).ok
    hmark h
  obtain rfl := update_ok_inv hremember
  exact hmarked

namespace MonitoringResourceProvider

variable (p : MonitoringResourceProvider)

/-- The pass finds that something has changed. -/
def FindsChange (w : World) : Prop :=
  ∃ secret t other t', watchOwnSecret p.spec.secretName p.cr w = .ok secret t ∧
    watchOtherSecret p.backupDaemonSecretName p.cr t = .ok other t' ∧
    changed .monitoring (.monitoring p.spec) [some secret, other] t' = true

/-- A pass that found a change has stored the Deployment. -/
theorem reconcile_stores {w w' : World} (hchange : p.FindsChange w)
    (hrun : p.reconcile w = .ok () w') :
    ∃ global, HoldsVolumes p.getServiceName (p.volumes global) w' := by
  obtain ⟨secret, t, other, t', hwatch, hother, hchanged⟩ := hchange
  rw [reconcile, bind_ok hwatch, bind_ok hother] at hrun
  obtain ⟨isChanged, t₁, htest, hrun⟩ := bind_ok_inv hrun
  obtain rfl : isChanged = true := (testChanged_ok_inv htest).trans hchanged
  rw [if_pos rfl] at hrun
  obtain ⟨secret', u, happly, hrun⟩ := bind_ok_inv hrun
  obtain ⟨_, u', hmark, hremember⟩ := bind_ok_inv hrun
  have happlied : Triple (fun _ => True) (p.apply secret other)
      (fun _ w => ∃ global, HoldsVolumes p.getServiceName (p.volumes global) w)
        fun _ _ => True := by
    refine triple_of_last fun _ => triple_of_last fun _ => triple_of_last fun secret' => ?_
    refine applyLast_holdsVolumes p.cr _ secret'
      (fun d hd => ⟨p.name_newMonitoringDeployment hd, ?_⟩)
      p.updateMonitoringStatus_touches
    obtain ⟨global, -, hd⟩ := except_bind_ok_inv hd
    cases hd
    exact ⟨global, rfl⟩
  obtain ⟨global, hholds⟩ := happlied.ok trivial happly
  exact ⟨global, passLast_holdsVolumes hholds hmark hremember⟩

/-- The agent mounts no claims. -/
theorem not_mem_volumes {global : Global} {n : String} {v : Volume} (hv : v ∈ p.volumes global) :
    v.source ≠ .persistentVolumeClaim n := by
  intro hsource
  simp only [volumes, List.mem_append, List.mem_cons, List.not_mem_nil, or_false,
    List.mem_ite_nil_left, List.mem_ite_nil_right] at hv
  rcases hv with ((((rfl | rfl) | ⟨-, rfl⟩) | ⟨-, rfl⟩) | ⟨-, rfl⟩) | hv
  · cases hsource
  · cases hsource
  · cases hsource
  · cases hsource
  · cases hsource
  · rcases htls : p.backupDaemonTls with - | secretName <;> rw [htls] at hv
    · cases hv
    · cases List.mem_singleton.mp hv
      cases hsource

end MonitoringResourceProvider

namespace BackupDaemonResourceProvider

variable (p : BackupDaemonResourceProvider)

/-- The pass finds that something has changed. -/
def FindsChange (w : World) : Prop :=
  ∃ secret t s3 t' aliases t'', watchOwnSecret p.spec.secretName p.cr w = .ok secret t ∧
    watchOtherSecret p.s3SecretName p.cr t = .ok s3 t' ∧ p.findS3Aliases t' = .ok aliases t'' ∧
    changed .backupDaemon (.backupDaemon p.spec) [some secret, s3, aliases] t'' = true

/-- The claim for backups. -/
def backupClaimName : String := p.spec.backupStorage.claimName p.cr.name

/-- The claims that a pass through the apply branch stores. -/
def claimNames : Set String := {n | p.spec.backupStorage.IsProvided ∧ n = p.backupClaimName}

theorem apply_claims (secret : Secret) (s3Secret s3AliasesSecret : Option Secret) :
    Triple (ClaimsAre ∅) (p.apply secret s3Secret s3AliasesSecret)
      (fun _ => ClaimsAre p.claimNames) fun _ _ => True := by
  have hquiet {α : Type} {m : Op α} (S : Set String) (hm : Within
      (Touches ZooKeeperResourceProvider.withoutClaims.fields) m) :=
    claimsAre_triple S ZooKeeperResourceProvider.claimed_notMem_withoutClaims hm
  refine Triple.bind (Q := fun _ => ClaimsAre p.claimNames)
    (Triple.whenever (fun _ => ?_) fun hnone w hw n => ?_) fun _ => ?_
  · refine (applySnapshotsClaim_claims ∅ p.spec.backupStorage p.cr).conseq (fun _ h => h)
      (fun _ w hw n => (hw n).trans (by simp [claimNames, backupClaimName])) fun _ _ h => h
  · have htype : p.spec.backupStorage.persistentVolumeType = "" := by simpa using hnone
    refine (hw n).trans (iff_of_false (Set.notMem_empty n) ?_)
    rintro ⟨hprovided, -⟩
    simp [SnapshotStorage.IsProvided, htype] at hprovided
  refine (hquiet _ (applyService_touches _ _)).bind fun _ => ?_
  refine (hquiet _ (createServiceAccount_touches ⟨trivial, by simp⟩)).bind fun _ => ?_
  refine (hquiet _ (p.applyVault_touches (owns_of_univ rfl secret))).bind fun secret' => ?_
  refine (hquiet _ (applyDeployment_touches _ _ fun _ _ => trivial)).bind fun _ => ?_
  exact (hquiet _ p.updateBackupDaemonStatus_touches).bind fun _ => triple_pure fun _ h => h

/-- A pass that found a change has stored the claim and the Deployment. -/
theorem reconcile_stores {w w' : World} (hw : w.claimed = []) (hchange : p.FindsChange w)
    (hrun : p.reconcile w = .ok () w') :
    ClaimsAre p.claimNames w' ∧
      ∃ global aliases, HoldsVolumes p.getServiceName (p.volumes global aliases) w' := by
  obtain ⟨secret, t, s3, t', aliases, t'', hwatch, hs3, haliases, hchanged⟩ := hchange
  rw [reconcile, bind_ok hwatch, bind_ok hs3, bind_ok haliases] at hrun
  obtain ⟨isChanged, t₁, htest, hrun⟩ := bind_ok_inv hrun
  obtain rfl : isChanged = true := (testChanged_ok_inv htest).trans hchanged
  rw [if_pos rfl] at hrun
  obtain ⟨secret', u, happly, hrun⟩ := bind_ok_inv hrun
  obtain ⟨_, u', hmark, hremember⟩ := bind_ok_inv hrun
  constructor
  · have hquiet {α : Type} {m : Op α} (S : Set String) (hm : Within
        (Touches ZooKeeperResourceProvider.withoutClaims.fields) m) :=
      claimsAre_triple S ZooKeeperResourceProvider.claimed_notMem_withoutClaims hm
    have hstart : ClaimsAre ∅ w := fun n => by simp [hw]
    have hwatched := (hquiet ∅ (watchOwnSecret_touches _ trivial)).ok hstart hwatch
    have hfound := (hquiet ∅ (watchOtherSecret_touches _ fun _ _ => trivial)).ok hwatched hs3
    have hlooked := (hquiet ∅ p.findS3Aliases_touches).ok hfound haliases
    have htested := (hquiet ∅ (testChanged_touches Set.univ_nonempty _ _ _)).ok hlooked htest
    have hclaims := (p.apply_claims secret s3 aliases).ok htested happly
    have hmarked := (hquiet _ (updateDeploymentSecretRestartAnnotations_touches _
      ⟨trivial, fun _ => ⟨p.getServiceName, trivial⟩⟩)).ok hclaims hmark
    exact (hquiet _ (remember_touches _ trivial fun s _ => owns_of_univ rfl s)).ok hmarked hremember
  · have happlied : Triple (fun _ => True) (p.apply secret s3 aliases)
        (fun _ w => ∃ global, HoldsVolumes p.getServiceName (p.volumes global aliases.isSome) w)
        fun _ _ => True := by
      refine triple_of_last fun _ => triple_of_last fun _ => triple_of_last fun _ => ?_
      refine triple_of_last fun secret' => ?_
      refine applyLast_holdsVolumes p.cr _ secret'
        (fun d hd => ⟨p.name_newBackupDaemonDeployment hd, ?_⟩) p.updateBackupDaemonStatus_touches
      obtain ⟨global, -, hd⟩ := except_bind_ok_inv hd
      cases hd
      exact ⟨global, rfl⟩
    obtain ⟨global, hholds⟩ := happlied.ok trivial happly
    exact ⟨global, aliases.isSome, passLast_holdsVolumes hholds hmark hremember⟩

/-- When the pod of the daemon mounts a claim. -/
theorem backupVolumeSource_eq_iff {n : String} :
    p.backupVolumeSource = .persistentVolumeClaim n ↔
      p.spec.backupStorage.persistentVolumeType ≠ "" ∧ n = p.backupClaimName := by
  unfold backupVolumeSource backupClaimName SnapshotStorage.claimName
  dsimp only
  by_cases htype : p.spec.backupStorage.persistentVolumeType = ""
  · rw [if_pos htype]
    exact iff_of_false (by rintro ⟨⟩) fun h => h.1 htype
  · rw [if_neg htype]
    split
    · exact ⟨fun heq => ⟨htype, by cases heq; rfl⟩, fun hn => by rw [hn.2]⟩
    · exact ⟨fun heq => ⟨htype, by cases heq; rfl⟩, fun hn => by rw [hn.2]⟩

/-- The backups are all that the daemon mounts from a claim. -/
theorem mem_volumes_iff {global : Global} {aliases : Bool} {n : String} :
    (∃ v ∈ p.volumes global aliases, v.source = .persistentVolumeClaim n) ↔
      p.backupVolumeSource = .persistentVolumeClaim n := by
  constructor
  · rintro ⟨v, hv, hsource⟩
    simp only [volumes, List.mem_append, List.mem_cons, List.not_mem_nil, or_false,
      List.mem_ite_nil_left, List.mem_ite_nil_right] at hv
    rcases hv with
      ((((((rfl | rfl | rfl) | ⟨-, rfl⟩) | ⟨-, rfl⟩) | ⟨-, rfl⟩) | ⟨-, rfl⟩) | ⟨-, rfl⟩) |
      ⟨-, rfl⟩
    · exact hsource
    all_goals cases hsource
  · exact fun h => ⟨⟨"backup-storage", p.backupVolumeSource⟩, by simp [volumes], h⟩

end BackupDaemonResourceProvider

/-! ## The components -/

namespace Reconciler

/-- The pass of a component finds that something has changed, and so writes its Deployments. -/
def FindsChange : Reconciler → World → Prop
  | zooKeeper p => p.FindsChange
  | monitoring p => p.FindsChange
  | backupDaemon p => p.FindsChange
  | integrationTests _ => fun _ => False

/-- The Deployments of a component. -/
def deploymentNames : Reconciler → List String
  | zooKeeper p => p.serverIds.map (serverName p.cr.name)
  | monitoring p => [p.getServiceName]
  | backupDaemon p => [p.getServiceName]
  | integrationTests _ => []

/-- Every claim that the Deployments of a component mount was created or found. -/
def MountsClaims (r : Reconciler) (w : World) : Prop :=
  ∀ name ∈ r.deploymentNames, ∀ d, w.get? .deployment name = some d →
    ∀ n, d.Mounts n → n ∈ w.claimed

/-- The storage of a component is provided for. -/
def StorageProvided : Reconciler → Prop
  | zooKeeper p => p.StorageProvided
  | monitoring _ => True
  | backupDaemon p =>
    p.spec.backupStorage.persistentVolumeType = "" ∨ p.spec.backupStorage.IsProvided
  | integrationTests _ => True

/-- What a stored Deployment mounts, in terms of its volumes. -/
theorem forall_mounts_iff {name : String} {volumes : List Volume} {w : World}
    (h : HoldsVolumes name volumes w) :
    (∀ d, w.get? .deployment name = some d → ∀ n, d.Mounts n → n ∈ w.claimed) ↔
      ∀ n, (∃ v ∈ volumes, v.source = .persistentVolumeClaim n) → n ∈ w.claimed := by
  obtain ⟨d, hd, rfl⟩ := h
  refine ⟨fun h n hn => h d hd n hn, fun h d' hd' n hn => ?_⟩
  obtain rfl : d' = d := Option.some.inj (hd'.symm.trans hd)
  exact h n hn

/-- **Mounted claims.** When a pass that found a change returns nil, every claim that its
Deployments mount was created or found in the same pass, exactly if the storage of the
component is provided for. -/
theorem mountsClaims_iff (r : Reconciler) {w w' : World} (hw : w.claimed = [])
    (hchange : r.FindsChange w) (hrun : r.reconcile w = .ok () w') :
    r.MountsClaims w' ↔ r.StorageProvided := by
  cases r with
  | zooKeeper p =>
    obtain ⟨hclaims, hholds⟩ := p.reconcile_stores hw hchange hrun
    refine Iff.trans ?_ p.mounts_subset_iff
    refine List.forall_mem_map.trans (forall₂_congr fun i hi => ?_)
    obtain ⟨global, hvolumes⟩ := p.volumes_of_holdsServer (hholds i hi)
    refine (forall_mounts_iff hvolumes).trans (forall_congr' fun n => ?_)
    rw [p.mem_serverVolumes_iff, hclaims (List.ne_nil_of_mem hi) n]
  | monitoring p =>
    -- Monitoring mounts no claim at all
    obtain ⟨global, hvolumes⟩ := p.reconcile_stores hchange hrun
    refine iff_of_true (fun name hname => ?_) trivial
    obtain rfl := List.mem_singleton.mp hname
    refine (forall_mounts_iff hvolumes).mpr ?_
    rintro n ⟨v, hv, hsource⟩
    exact absurd hsource (p.not_mem_volumes hv)
  | backupDaemon p =>
    obtain ⟨hclaims, global, aliases, hvolumes⟩ := p.reconcile_stores hw hchange hrun
    refine List.forall_mem_singleton.trans ((forall_mounts_iff hvolumes).trans ?_)
    simp only [p.mem_volumes_iff, p.backupVolumeSource_eq_iff, hclaims _]
    constructor
    · intro h
      by_cases htype : p.spec.backupStorage.persistentVolumeType = ""
      · exact .inl htype
      · exact .inr (h _ ⟨htype, rfl⟩).1
    · rintro (hempty | hprovided) n ⟨htype, hn⟩
      · exact absurd hempty htype
      · exact ⟨hprovided, hn⟩
  | integrationTests tests => exact hchange.elim

/-! ### Storage that is provided for, and storage that is not -/

/-- One server with some storage. -/
def sampleServers (storage : Storage) : ZooKeeperResourceProvider :=
  HashGate.sampleResource.providerFor { HashGate.sampleZooKeeper "zookeeper:1" with
    storage := storage }

/-- A storage class is given for the data of all servers. -/
def sampleClass : Storage := { size := .of "1Gi", className := ["standard"] }

/-- An empty name is given for the volume of the server, and nothing else. -/
def sampleEmptyVolume : Storage := { size := .of "1Gi", volumes := [""] }

/-- The first pass over a new cluster finds a change. -/
theorem findsChange_sampleServers (storage : Storage) :
    (zooKeeper (sampleServers storage)).FindsChange HashGate.sampleSession.world := by
  obtain ⟨secret, t, hwatch⟩ := Outcome.returned_iff.mp (show (watchOwnSecret "zookeeper-secret"
    HashGate.sampleResource HashGate.sampleSession.world).returned = true by decide +kernel)
  have hwatch' : watchOwnSecret (sampleServers storage).spec.secretName (sampleServers storage).cr
      HashGate.sampleSession.world = .ok secret t := hwatch
  refine (sampleServers storage).findsChange_of_recordedHash ?_ hwatch'
  rintro ⟨⟩

theorem mountsClaims_sampleClass :
    ∃ w w', w.claimed = [] ∧ (zooKeeper (sampleServers sampleClass)).FindsChange w ∧
      (zooKeeper (sampleServers sampleClass)).reconcile w = .ok () w' ∧
      (zooKeeper (sampleServers sampleClass)).MountsClaims w' := by
  obtain ⟨_, w', hrun⟩ := Outcome.returned_iff.mp (show ((zooKeeper
    (sampleServers sampleClass)).reconcile HashGate.sampleSession.world).returned = true by
      decide +kernel)
  refine ⟨_, w', rfl, findsChange_sampleServers sampleClass, hrun, ?_⟩
  refine (mountsClaims_iff _ rfl (findsChange_sampleServers sampleClass) hrun).mpr fun i _ => ?_
  exact ⟨.inl (.inl (by decide)), .inr (.inl rfl)⟩

/-- **A claim that is mounted and not stored.** With an empty name for the volume, the server
mounts a claim that the pass has neither created nor found. -/
theorem not_mountsClaims_sampleEmptyVolume :
    ∃ w w', w.claimed = [] ∧ (zooKeeper (sampleServers sampleEmptyVolume)).FindsChange w ∧
      (zooKeeper (sampleServers sampleEmptyVolume)).reconcile w = .ok () w' ∧
      ¬ (zooKeeper (sampleServers sampleEmptyVolume)).MountsClaims w' := by
  let run := (zooKeeper (sampleServers sampleEmptyVolume)).reconcile HashGate.sampleSession.world
  obtain ⟨_, w', hrun⟩ := Outcome.returned_iff.mp (show run.returned = true by decide +kernel)
  refine ⟨_, w', rfl, findsChange_sampleServers sampleEmptyVolume, hrun, fun h => ?_⟩
  have hmounts : (run.next.get? .deployment "zookeeper-1").map
      (fun d => decide (d.Mounts "pvc-zookeeper-1")) = some true := by decide +kernel
  have hclaimed : run.next.claimed = [] := by decide +kernel
  rw [show run.next = w' from congrArg Outcome.next hrun] at hmounts hclaimed
  obtain ⟨d, hd, hmounts⟩ := Option.map_eq_some_iff.mp hmounts
  have hmem := h "zookeeper-1" (by decide) d hd _ (of_decide_eq_true hmounts)
  rw [hclaimed] at hmem
  cases hmem

end Reconciler

end QubershipZookeeper.Operator
