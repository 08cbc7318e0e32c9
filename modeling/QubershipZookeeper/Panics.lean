import QubershipZookeeper.MountedClaims
import QubershipZookeeper.WatchedSecrets

/-!
# Panics

A panic comes from a builder, from the annotations of a Secret or of a claim, or from the map of
Secret versions in the status. Every other step is **steady**: it can fail, but it does not panic,
whatever the state. This module says what the others need so as not to panic, and that the steps of
a call keep it.
-/

namespace QubershipZookeeper.Operator

open Proc

/-! ## Steady steps -/

/-- An error that is not a panic. -/
def Ordinary (e : GoError) : Prop := e.isPanic = false

/-- A step that never panics. -/
abbrev Steady {α : Type} (m : Op α) : Prop := Raises Ordinary m

section Steady

/-- A request fails with an error, never with a panic, unless serving it panics. -/
theorem request_steady {α : Type} {serve : Op α} (h : Steady serve) : Steady (request serve) := by
  intro w e t hrun
  rcases request_raised_inv hrun with ⟨v, hv⟩ | ⟨why, rfl⟩
  · exact h v e t hv
  · cases why <;> rfl

/-- The requests of the client do not panic. -/
theorem clientGet_steady (k : Kind) (n : String) : Steady (clientGet k n) :=
  request_steady fun w e t h => by
    split at h <;> cases h
    rfl

theorem clientCreate_steady (k : Kind) (o : k.Object) : Steady (clientCreate k o) :=
  request_steady fun w e t h => by
    split at h <;> cases h
    rfl

theorem clientUpdate_steady (k : Kind) (o : k.Object) : Steady (clientUpdate k o) :=
  request_steady fun w e t h => by
    split at h
    · cases h
      rfl
    · split at h <;> cases h

theorem findObject_steady (k : Kind) (n : String) :
    Steady ((some <$> clientGet k n).recover fun e =>
      if e.isNotFound then some (pure none) else none) :=
  ((clientGet_steady k n).map some).recover_if fun _ => raises_pure none

theorem listPods_steady (selector : StringMap) : Steady (listPods selector) :=
  request_steady (raises_observe _)

theorem statusUpdate_steady : Steady statusUpdate :=
  request_steady fun w e t h => by
    split at h <;> cases h
    rfl

/-- A wait does not panic if its condition does not. -/
theorem poll_steady {condition : Op Bool} (h : Steady condition) (tries : ℕ) :
    Steady (poll tries condition) := by
  induction tries with
  | zero => exact raises_raise rfl
  | succ tries ih =>
    refine h.bind fun done => ?_
    split
    · exact raises_pure ()
    · exact (raises_update _).bind fun _ => ih

theorem retryOnConflict_steady {α : Type} {m : Op α} (h : Steady m) (retries : ℕ) :
    Steady (retryOnConflict retries m) := by
  induction retries with
  | zero => exact h
  | succ retries ih => exact h.recover_if fun _ => ih

/-- Another owner is an error, and no panic. -/
theorem setControllerReference_steady (cr : ZooKeeperService) (m : ObjectMeta) :
    Steady (lift (setControllerReference cr m)) := by
  refine raises_lift fun e he => ?_
  unfold setControllerReference at he
  split at he
  · split at he <;> cases he
    rfl
  · cases he

/-- A builder that has an object to return does not panic. -/
theorem build_steady {α : Type} {x : Except Panic α} (h : ∃ a, x = .ok a) : Steady (build x) := by
  obtain ⟨a, rfl⟩ := h
  exact raises_pure a

/-- The procedures that write one object do not panic once it has been built. -/
theorem createOrUpdateService_steady (service : Service) :
    Steady (createOrUpdateService service) := by
  refine (findObject_steady _ _).bind fun found => ?_
  rcases found with - | found
  · exact (clientCreate_steady _ _).map _
  · exact (clientUpdate_steady _ _).map _

theorem createServiceAccount_steady (account : ServiceAccount) :
    Steady (createServiceAccount account) :=
  ((clientGet_steady _ _).map _).recover_if fun _ => (clientCreate_steady _ _).map _

theorem createOrUpdateDeployment_steady (deployment : Deployment) :
    Steady (createOrUpdateDeployment deployment) := by
  refine (findObject_steady _ _).bind fun found => ?_
  rcases found with - | found
  · exact (clientCreate_steady _ _).map _
  · exact retryOnConflict_steady ((clientGet_steady _ _).bind fun _ =>
      (clientUpdate_steady _ _).map _) _

theorem scaleDeployment_steady (name : String) (replicas : ℤ) :
    Steady (scaleDeployment name replicas) :=
  retryOnConflict_steady ((clientGet_steady _ _).bind fun _ => (clientUpdate_steady _ _).map _) _

theorem isDeploymentReady_steady (name : String) : Steady (isDeploymentReady name) :=
  ((clientGet_steady _ _).bind fun _ => (raises_observe _).bind fun _ =>
    raises_pure _).recover_unless
    fun _ => raises_pure false

/-- Watching Secrets does not panic: it reads no map of theirs. -/
theorem watchSecret_steady (secretName : String) (cr : ZooKeeperService) :
    Steady (watchSecret secretName cr) :=
  (clientGet_steady _ _).bind fun _ => (setControllerReference_steady _ _).bind fun _ =>
    (clientGet_steady _ _).bind fun _ => clientUpdate_steady _ _

theorem watchOwnSecret_steady (secretName : String) (cr : ZooKeeperService) :
    Steady (watchOwnSecret secretName cr) :=
  (watchSecret_steady secretName cr).recover_if fun _ => raises_pure _

theorem watchOtherSecret_steady (secretName : Option String) (cr : ZooKeeperService) :
    Steady (watchOtherSecret secretName cr) := by
  cases secretName with
  | none => exact raises_pure none
  | some n => exact ((watchSecret_steady n cr).map some).recover_if fun _ => raises_pure none

theorem updateDeploymentSecretRestartAnnotations_steady (name : String)
    (secrets : List (Option Secret)) :
    Steady (updateDeploymentSecretRestartAnnotations name secrets) := by
  refine retryOnConflict_steady ((findObject_steady _ _).bind fun found => ?_) _
  rcases found with - | found
  · exact raises_pure ()
  · exact ((clientUpdate_steady _ _).map _).whenever

theorem updateConditions_steady (condition : StatusCondition) :
    Steady (updateConditions condition) :=
  Raises.bind (fun _ _ _ h => by cases h) fun _ => (raises_update _).bind fun _ =>
    statusUpdate_steady

theorem updatePodStatus_steady (labels : StringMap)
    (set : List String → ZooKeeperServiceStatus → ZooKeeperServiceStatus) :
    Steady (updatePodStatus labels set) :=
  (listPods_steady _).bind fun _ => (raises_update _).bind fun _ => statusUpdate_steady

theorem testChanged_steady (c : Component) (digest : Digest) (secrets : List (Option Secret)) :
    Steady (testChanged c digest secrets) := fun _ _ _ h => by cases h

/-- What can be built is applied without a panic. -/
theorem applyService_steady (cr : ZooKeeperService) {service : Except Panic Service}
    (h : ∃ s, service = .ok s) : Steady (applyService cr service) :=
  (build_steady h).bind fun _ => (setControllerReference_steady _ _).bind fun _ =>
    createOrUpdateService_steady _

theorem applyDeployment_steady (cr : ZooKeeperService) {deployment : Except Panic Deployment}
    (h : ∃ d, deployment = .ok d) (secrets : List (Option Secret)) :
    Steady (applyDeployment cr deployment secrets) :=
  (build_steady h).bind fun _ => (setControllerReference_steady _ _).bind fun _ =>
    createOrUpdateDeployment_steady _

/-! ### Vault -/

theorem vaultRequest_steady {α : Type} {serve : Op α} (write : VaultWrite) (h : Steady serve) :
    Steady (vaultRequest write serve) :=
  (raises_update _).bind fun _ => request_steady h

/-- Policies and roles are written without reading the answer of Vault. -/
theorem ensureVaultPolicy_steady (policyName policy : String) (secret : Secret) :
    Steady (ensureVaultPolicy policyName policy secret) :=
  (request_steady (raises_observe _)).bind fun _ =>
    (vaultRequest_steady _ (raises_update _)).whenever

theorem ensureVaultRole_steady (roleName : String) (role : VaultRole)
    (vault : VaultSecretManagement)
    (secret : Secret) : Steady (ensureVaultRole roleName role vault secret) :=
  (request_steady (raises_observe _)).bind fun _ =>
    (vaultRequest_steady _ (raises_update _)).whenever

theorem newPasswordGenerator_steady (cr : ZooKeeperService) (vault : VaultSecretManagement) :
    Steady (newPasswordGenerator cr vault) := by
  unfold newPasswordGenerator
  split
  · exact ((vaultRequest_steady _ (raises_update _)).recover_unless fun _ => raises_pure ()).bind
      fun _ => raises_pure _
  · exact raises_pure _

theorem generate_steady (generator : PasswordGenerator) : Steady generator.generate := by
  have hnext : Steady nextPassword := fun _ _ _ h => by cases h
  cases generator with
  | operator => exact hnext
  | vault policyName =>
    refine request_steady fun w e t h => ?_
    split at h
    · exact hnext w e t h
    · cases h
      rfl

/-- No answer lacks anything. -/
def World.Whole (w : World) : Prop := .hollow ∉ w.faults

/-- What is taken out of a whole answer is there. -/
theorem replied_ordinary {α : Type} {p : Panic} {m : Op α} (h : Steady m) :
    Triple World.Whole (replied p m) (fun _ _ => True) fun e _ => Ordinary e := by
  refine Triple.bind (triple_observe (Q := fun hollow _ => hollow = false) fun w hw => ?_)
    fun hollow => Triple.of_fact (fun _ hw => hw) ?_
  · exact decide_eq_false fun hhead => hw (List.mem_of_mem_head? hhead)
  · rintro rfl
    exact (h.bind fun reply => raises_pure reply).triple

/-- The login reads its answer, so it needs answers that are whole. -/
theorem initVaultClient_ordinary (vault : VaultSecretManagement) :
    Triple World.Whole (initVaultClient vault) (fun _ _ => True) fun e _ => Ordinary e := by
  refine Triple.bind (triple_lift (fun _ _ _ hw => hw) fun e _ he _ => ?_) fun _ =>
    replied_ordinary (request_steady (raises_pure ()))
  unfold checkVaultConnectionParameters at he
  repeat' split at he
  all_goals cases he
  all_goals rfl

end Steady

/-! ## Builders -/

section Builders

/-- A text with the separator in it has two pieces at least. -/
theorem two_le_length_splitOn {c : Char} {text : List Char} (h : c ∈ text) :
    2 ≤ (text.splitOn c).length := by
  induction text with
  | nil => cases h
  | cons x text ih =>
    rw [List.splitOn_cons_eq_if_modifyHead]
    split
    · have hpos := List.length_pos_of_ne_nil (List.splitOn_ne_nil c text)
      rw [List.length_cons]
      omega
    next hx =>
      rw [List.length_modifyHead]
      refine ih ((List.mem_cons.mp h).resolve_left fun heq => hx ?_)
      rw [heq, beq_self_eq_true]

/-- The ways in which a builder does not panic: an index within the list, a pointer that is set, a
size that can be parsed. -/
theorem index_ok {α : Type} {xs : List α} {i : ℕ} (h : i < xs.length) :
    ∃ x, index xs i = .ok x := by
  rw [index, List.getElem?_eq_getElem h]
  exact ⟨_, rfl⟩

theorem deref_ok {α : Type} {x : Option α} (h : x.isSome) : ∃ a, deref x = .ok a := by
  obtain ⟨a, rfl⟩ := Option.isSome_iff_exists.mp h
  exact ⟨a, rfl⟩

/-- Builders in sequence. -/
theorem except_bind_ok {ε α β : Type} {x : Except ε α} {f : α → Except ε β} (hx : ∃ a, x = .ok a)
    (hf : ∀ a, x = .ok a → ∃ b, f a = .ok b) : ∃ b, (x >>= f) = .ok b := by
  obtain ⟨a, rfl⟩ := hx
  exact hf a rfl

theorem except_map_ok {ε α β : Type} {x : Except ε α} (f : α → β) (hx : ∃ a, x = .ok a) :
    ∃ b, (f <$> x) = .ok b := by
  obtain ⟨a, rfl⟩ := hx
  exact ⟨f a, rfl⟩

/-- `resource.MustParse` panics exactly where the size is no quantity. -/
theorem mustParse_ok {size : VolumeSize} (h : size.quantity.isSome) :
    ∃ quantity, mustParse size = .ok quantity := by
  obtain ⟨quantity, hquantity⟩ := Option.isSome_iff_exists.mp h
  exact ⟨quantity, by rw [mustParse, hquantity]⟩

/-- A claim is built wherever its size can be parsed. -/
theorem newPersistentVolumeClaim_ok (name namespaceName : String) (labels annotations : StringMap)
    (shared : Bool) (volumeName : String) (selector : Option StringMap)
    (storageClass : Option String)
    {size : VolumeSize} (h : size.quantity.isSome) :
    ∃ c, newPersistentVolumeClaim name namespaceName labels annotations shared volumeName selector
      storageClass size = .ok c :=
  except_bind_ok (mustParse_ok h) fun _ _ => ⟨_, rfl⟩

/-- A claim that is not shared can be built from a label that is a pair, and with a size that is a
quantity. -/
theorem processNonSharedPersistentVolumeClaim_ok (name : String) {volumeName label : String}
    {size : VolumeSize} {storageClass : Option String} (namespaceName : String)
    (labels annotations : StringMap)
    (hpair : volumeName = "" → label ≠ "" → '=' ∈ label.toList)
    (hsize : volumeName ≠ "" ∨ label ≠ "" ∨ storageClass ≠ none → size.quantity.isSome) :
    ∃ c, processNonSharedPersistentVolumeClaim name volumeName label storageClass size namespaceName
      labels annotations = .ok c := by
  have hclaim (selector : Option StringMap) (h : size.quantity.isSome) :=
    except_map_ok some (newPersistentVolumeClaim_ok name namespaceName labels annotations false
      volumeName selector storageClass h)
  unfold processNonSharedPersistentVolumeClaim
  dsimp only
  split
  next hvolume => exact hclaim _ (hsize (.inl hvolume))
  next hvolume =>
    split
    next hlabel =>
      have hlength := two_le_length_splitOn (hpair (not_not.mp hvolume) hlabel)
      refine except_bind_ok (index_ok (by omega)) fun key _ => ?_
      refine except_bind_ok (index_ok (by omega)) fun value _ => ?_
      exact hclaim _ (hsize (.inr (.inl hlabel)))
    next =>
      split
      · exact ⟨none, rfl⟩
      next hclass => exact hclaim _ (hsize (.inr (.inr hclass)))

end Builders

/-- What the builder of a claim for snapshots or backups needs: where a volume of its own is
bound by a label, the label is a pair; and the size of a claim that is built is a quantity. -/
structure SnapshotStorage.Fits (storage : SnapshotStorage) : Prop where
  pair : storage.persistentVolumeType = "standalone" → storage.persistentVolumeName = "" →
    storage.persistentVolumeLabel ≠ "" → '=' ∈ storage.persistentVolumeLabel.toList
  size : storage.IsProvided → storage.persistentVolumeType ≠ "predefined_claim" →
    (storage.persistentVolumeType = "predefined" → storage.persistentVolumeName ≠ "") →
    storage.volumeSize.quantity.isSome

namespace ZooKeeperResourceProvider

variable (p : ZooKeeperResourceProvider)

/-- A list has no entries, or one for each server. -/
def OnePerServer (xs : List String) : Prop := xs = [] ∨ p.spec.replicas ≤ xs.length

/-- What the builders of the servers need: lists that are long enough, labels that are pairs, and a
size that is a quantity. -/
structure StorageFits : Prop where
  volumes : p.OnePerServer p.spec.storage.volumes
  labels : p.OnePerServer p.spec.storage.labels
  nodes : p.OnePerServer p.spec.storage.nodes
  pairs : ∀ i ∈ p.serverIds, p.spec.storage.volumes.getD (i - 1) "" = "" →
    p.spec.storage.labels.getD (i - 1) "" ≠ "" →
      '=' ∈ (p.spec.storage.labels.getD (i - 1) "").toList
  size : (∃ i ∈ p.serverIds, p.DataProvided i) → p.spec.storage.size.quantity.isSome

variable {p}

/-- A list with an entry for each server has one for this server. -/
theorem index_perServer_ok {xs : List String} {i : ℕ} (h : p.OnePerServer xs) (hi : i ∈ p.serverIds)
    (hxs : xs ≠ []) : ∃ x, index xs (i - 1) = .ok x := by
  have hlength := h.resolve_left hxs
  rw [serverIds, List.mem_range'_1] at hi
  refine index_ok ?_
  omega

theorem perServer_ok {xs : List String} {i : ℕ} (h : p.OnePerServer xs) (hi : i ∈ p.serverIds) :
    ∃ x, perServer xs i = .ok x := by
  unfold perServer
  split
  · exact ⟨"", rfl⟩
  next hxs => exact index_perServer_ok h hi hxs

theorem storageClassName_ok {i : ℕ} (hi : i ∈ p.serverIds) : ∃ x, p.storageClassName i = .ok x := by
  unfold storageClassName
  split
  · exact ⟨none, rfl⟩
  next className more _ =>
    split
    next hlength =>
      exact except_map_ok some (index_perServer_ok (.inr hlength.ge) hi (List.cons_ne_nil _ _))
    · exact ⟨_, rfl⟩

/-- With a fitting storage the claim of each server can be built. -/
theorem StorageFits.claim_ok (h : p.StorageFits) (hglobal : p.cr.spec.global.isSome) {i : ℕ}
    (hi : i ∈ p.serverIds) : ∃ claim, p.newZooKeeperPersistentVolumeClaimForCR i = .ok claim := by
  refine except_bind_ok (perServer_ok h.volumes hi) fun volume hvolume => ?_
  refine except_bind_ok (perServer_ok h.labels hi) fun label hlabel => ?_
  refine except_bind_ok (storageClassName_ok hi) fun storageClass hclass => ?_
  refine except_bind_ok (deref_ok hglobal) fun global _ => ?_
  obtain rfl := perServer_ok_inv hvolume
  obtain rfl := perServer_ok_inv hlabel
  refine processNonSharedPersistentVolumeClaim_ok _ _ _ _ (h.pairs i hi) fun hprovided =>
    h.size ⟨i, hi, ?_⟩
  rcases hprovided with hvolume | hlabel | hclass'
  · exact .inr (.inl hvolume)
  · exact .inr (.inr hlabel)
  · exact .inl ((p.storageClassName_ok_inv hclass).mp hclass')

/-- With a fitting storage the Deployment of each server can be built. -/
theorem StorageFits.deployment_ok (h : p.StorageFits) (hglobal : p.cr.spec.global.isSome) {i : ℕ}
    (hi : i ∈ p.serverIds) : ∃ d, p.newServerDeploymentForCR i = .ok d := by
  refine except_bind_ok (deref_ok hglobal) fun global _ => ?_
  refine except_bind_ok ?_ fun affinity _ => ⟨_, rfl⟩
  unfold getZooKeeperAffinityRules
  split
  · exact ⟨_, rfl⟩
  next hnodes => exact except_map_ok _ (index_perServer_ok h.nodes hi hnodes)

end ZooKeeperResourceProvider

/-! ## What a call keeps

The steps of a call do not make things worse: a Secret or a claim that can be written keeps its
annotations, and the map of Secret versions stays. -/

/-- A Secret that can be cleaned: if it has data, it has annotations. -/
def Secret.Annotated (s : Secret) : Prop :=
  s.data.getD ∅ ≠ ∅ → s.metadata.annotations.getD ∅ ≠ ∅

namespace World

/-- Writing these annotations to the claim with a name is not writing into a nil map. -/
def Takes (w : World) (annotations : StringMap) (n : String) : Prop :=
  w.BareClaim n → annotations = ∅ ∨ annotations = w.status.pvcAnnotations

/-- The Secret with a name can be cleaned. -/
def Annotated (w : World) (n : String) : Prop := ∀ s, w.get? .secret n = some s → s.Annotated

/-- The Secret with a name does not ask for a refresh. -/
def Unasked (w : World) (n : String) : Prop :=
  ∀ s, w.get? .secret n = some s → needToRefreshCredentials s = false

end World

/-- The steps of a call for a custom resource that asks for these annotations. -/
structure Preserves (annotations : StringMap) (w w' : World) : Prop where
  evolves : Evolves w w'
  claims : annotations ≠ ∅ → SameClaims w w'
  annotated : ∀ n, w.Annotated n → w'.Annotated n
  unasked : ∀ n, w.Unasked n → w'.Unasked n
  versions : w.status.secretVersions.isSome → w'.status.secretVersions.isSome

section Preserves

variable {annotations : StringMap} {w w' : World}

instance : Std.Refl (Preserves annotations) where
  refl w := ⟨Evolves.refl w, fun _ => refl_of SameClaims w, fun _ h => h, fun _ h => h, fun h => h⟩

instance : IsTrans World (Preserves annotations) where
  trans _ _ _ h h' := ⟨h.evolves.trans h'.evolves,
    fun hne => trans_of SameClaims (h.claims hne) (h'.claims hne),
    fun n hn => h'.annotated n (h.annotated n hn), fun n hn => h'.unasked n (h.unasked n hn),
    fun hv => h'.versions (h.versions hv)⟩

/-- Answers that are whole at the beginning stay so: no faults are added. -/
theorem Preserves.whole (h : Preserves annotations w w') (hw : w.Whole) : w'.Whole :=
  fun hmem => hw (h.evolves.faults.subset hmem)

/-- A claim that can be updated stays one that can be. -/
theorem Preserves.takes (h : Preserves annotations w w') {n : String} (hn : w.Takes annotations n) :
    w'.Takes annotations n := by
  intro hbare
  by_cases hempty : annotations = ∅
  · exact .inl hempty
  · have hsame := h.claims hempty
    rw [hsame.annotations]
    exact hn ((hsame.bare n).mp hbare)

/-- A step that leaves Secrets and the map of versions alone preserves what is needed, if it leaves
the claims alone or no annotations are wanted. -/
theorem preserves_of_sameClaims {T : Set Field} (ht : Touches T w w')
    (hsecrets : ∀ n, .object .secret n ∉ T) (hversions : .secretVersions ∉ T)
    (hclaims : annotations ≠ ∅ → SameClaims w w') : Preserves annotations w w' where
  evolves := ht.evolves
  claims := hclaims
  annotated n hn s hs := hn s ((ht.get? (hsecrets n)).symm.trans hs)
  unasked n hn s hs := hn s ((ht.get? (hsecrets n)).symm.trans hs)
  versions hv := Eq.trans (ht.same .secretVersions hversions) hv

/-- A step aside of claims, Secrets and the records about them preserves what is needed. -/
theorem preserves_of_touches {T : Set Field} (ht : Touches T w w')
    (hclaims : ∀ n, .object .persistentVolumeClaim n ∉ T) (hsecrets : ∀ n, .object .secret n ∉ T)
    (hrecord : .pvcAnnotations ∉ T) (hversions : .secretVersions ∉ T) :
    Preserves annotations w w' :=
  preserves_of_sameClaims ht hsecrets hversions fun _ =>
    ⟨ht.same .pvcAnnotations hrecord, fun n => bareClaim_congr (ht.get? (hclaims n))⟩

/-- Steps that leave claims and Secrets alone. -/
def aside : Footprint := ⟨∅, Set.univ, ∅, Set.univ⟩

theorem aside_preserves {α : Type} {m : Op α} (h : Within (Touches aside.fields) m) :
    Within (Preserves annotations) m :=
  h.mono fun _ _ ht => preserves_of_touches ht (fun _ => id) (fun _ => id) id Set.not_nonempty_empty

theorem vault_preserves {α : Type} {m : Op α} (h : Within (Touches {.vault}) m) :
    Within (Preserves annotations) m :=
  h.mono fun _ _ ht => preserves_of_touches ht (by simp) (by simp) (by simp) (by simp)

/-- Requests that come to nothing preserve it too. -/
theorem stable_preserves (w₀ : World) : Stable (Preserves annotations w₀) := fun _ _ ht hw =>
  trans_of (Preserves annotations) hw (preserves_of_touches ht (fun _ => Set.notMem_empty _)
    (fun _ => Set.notMem_empty _) (Set.notMem_empty _) (Set.notMem_empty _))

/-- Storing a Secret that has annotations if it needs them, and that does not ask for a refresh if
the stored one did not. -/
theorem preserves_store {s : Secret}
    (hannotated : w.Annotated s.metadata.name → s.Annotated)
    (hunasked : w.Unasked s.metadata.name → needToRefreshCredentials s = false) :
    Preserves annotations w (w.store .secret s) where
  evolves := evolves_store w .secret s
  claims _ := ⟨rfl, fun n => bareClaim_congr (w.get?_store_of_ne (.inl (by simp)))⟩
  annotated n hn stored hstored := by
    by_cases hname : n = s.metadata.name
    · subst hname
      obtain rfl := Option.some.inj ((w.get?_store_self .secret s).symm.trans hstored)
      exact hannotated hn
    · rw [w.get?_store_of_ne (.inr hname)] at hstored
      exact hn stored hstored
  unasked n hn stored hstored := by
    by_cases hname : n = s.metadata.name
    · subst hname
      obtain rfl := Option.some.inj ((w.get?_store_self .secret s).symm.trans hstored)
      exact hunasked hn
    · rw [w.get?_store_of_ne (.inr hname)] at hstored
      exact hn stored hstored
  versions hv := hv

/-- Whether a Secret asks for a refresh is a question of its annotations. -/
theorem needToRefreshCredentials_congr {s s' : Secret}
    (h : s'.metadata.annotations = s.metadata.annotations) :
    needToRefreshCredentials s' = needToRefreshCredentials s := by
  rw [needToRefreshCredentials, needToRefreshCredentials, h]

/-- A watched Secret gets an owner and keeps its data and annotations. -/
theorem watchSecret_preserves (n : String) (cr : ZooKeeperService) :
    Within (Preserves annotations) (watchSecret n cr) := by
  have hkeeps (w₀ : World) : Triple (Preserves annotations w₀) (watchSecret n cr)
      (fun _ => Preserves annotations w₀) fun _ => Preserves annotations w₀ := by
    refine watchSecret_keeps (stable_preserves w₀) fun w s m hw hs hname hsame => ?_
    refine trans_of (Preserves annotations) hw (preserves_store (fun hn => ?_) fun hn => ?_)
    · intro hdata
      show m.annotations.getD ∅ ≠ ∅
      rw [hsame]
      exact hn s (hname ▸ hs) hdata
    · rw [needToRefreshCredentials_congr hsame]
      exact hn s (hname ▸ hs)
  exact fun w => keeps_of_triple (hkeeps w) w (refl_of (Preserves annotations) w)

theorem watchOwnSecret_preserves (n : String) (cr : ZooKeeperService) :
    Within (Preserves annotations) (watchOwnSecret n cr) :=
  (watchSecret_preserves n cr).recover_if fun _ => within_pure _

theorem watchOtherSecret_preserves (secretName : Option String) (cr : ZooKeeperService) :
    Within (Preserves annotations) (watchOtherSecret secretName cr) := by
  cases secretName with
  | none => exact within_pure none
  | some n => exact ((watchSecret_preserves n cr).map some).recover_if fun _ => within_pure none

/-- A Secret without data need not be cleaned, so its annotations do not matter. -/
theorem annotated_of_data {s : Secret} (h : s.data = none) : s.Annotated :=
  fun hdata => absurd (congrArg (Option.getD · ∅) h) hdata

theorem data_cleanedSecret {s cleaned : Secret} (h : cleanedSecret s = .ok cleaned) :
    cleaned.data = none := by
  obtain ⟨-, rfl⟩ := cleanedSecret_ok_iff.mp h
  rfl

/-- A cleaned Secret has no data any more, and asks for nothing. -/
theorem cleanSecret_preserves (c : Component) (secret : Secret) :
    Within (Preserves annotations) (cleanSecret c secret) := by
  refine Within.bind ?_ fun _ => ?_
  · exact aside_preserves (noteVaulted_touches c secret)
  · split
    · refine (within_lift _).bind_yields (build_yields fun _ h => h)
        fun cleaned hcleaned => ?_
      refine Within.bind (clientUpdate_within (fun _ _ ht => preserves_of_touches ht
        (fun _ => Set.notMem_empty _) (fun _ => Set.notMem_empty _) (Set.notMem_empty _)
        (Set.notMem_empty _)) fun w => preserves_store
          (fun _ => annotated_of_data (data_cleanedSecret hcleaned))
          fun _ => needToRefreshCredentials_cleanedSecret hcleaned)
        fun stored => Within.bind (fun w => ?_) fun _ => within_pure _
      · exact ⟨{ Evolves.refl w with
          applied := List.subset_append_right _ _
          vaulted := List.subset_append_right _ _ }, fun _ => ⟨rfl, fun _ => Iff.rfl⟩, fun _ h => h,
          fun _ h => h, fun h => h⟩
    · exact within_pure _

end Preserves

/-! ## Steps that can panic -/

/-- From a state with `P` the step does not panic, and it keeps `P`. -/
abbrev Safe {α : Type} (P : World → Prop) (m : Op α) : Prop :=
  Triple P m (fun _ => P) fun e _ => Ordinary e

/-- A step that never panics, and that does not make things worse. -/
structure Quiet {α : Type} (annotations : StringMap) (m : Op α) : Prop where
  steady : Steady m
  preserves : Within (Preserves annotations) m

section Safe

variable {α : Type} {annotations : StringMap} {P : World → Prop} {m : Op α}

/-- A step that never panics and preserves the condition is safe under it. -/
theorem Safe.of_steady (hm : Steady m) (h : Within (Preserves annotations) m)
    (hP : ∀ w w', P w → Preserves annotations w w' → P w') : Safe P m :=
  (h.triple hP).raises hm

/-- A quiet step is safe under every condition that is preserved. -/
theorem Quiet.safe (hm : Quiet annotations m)
    (hP : ∀ w w', P w → Preserves annotations w w' → P w') : Safe P m :=
  .of_steady hm.steady hm.preserves hP

theorem quiet_pure (a : α) : Quiet annotations (pure a : Op α) := ⟨raises_pure a, within_pure a⟩

/-- Quiet steps one after the other are quiet. -/
theorem Quiet.bind {β : Type} {f : α → Op β} (hm : Quiet annotations m)
    (hf : ∀ a, Quiet annotations (f a)) : Quiet annotations (m >>= f) :=
  ⟨hm.steady.bind fun a => (hf a).steady, hm.preserves.bind fun a => (hf a).preserves⟩

theorem Quiet.whenever {m : Op Unit} {b : Bool} (hm : Quiet annotations m) :
    Quiet annotations (whenever b m) :=
  ⟨hm.steady.whenever, hm.preserves.whenever⟩

theorem quiet_forEach {β : Type} {xs : List β} {f : β → Op Unit}
    (hf : ∀ x ∈ xs, Quiet annotations (f x)) : Quiet annotations (forEach xs f) :=
  ⟨forEach_raises fun x hx => (hf x hx).steady, forEach_within fun x hx => (hf x hx).preserves⟩

/-- A step that does not panic where the condition holds, and preserves it, is safe. -/
theorem Safe.of_triple {Q : α → World → Prop} (hm : Triple P m Q fun e _ => Ordinary e)
    (h : Within (Preserves annotations) m) (hP : ∀ w w', P w → Preserves annotations w w' → P w') :
    Safe P m :=
  (hm.and (h.triple hP)).conseq (fun _ hw => ⟨hw, hw⟩) (fun _ _ hw => hw.2) fun _ _ hw => hw.1

end Safe

/-! ### Claims -/

/-- A claim is created or updated without a panic if its annotations can be updated. -/
theorem createPersistentVolumeClaim_ordinary (claim : PersistentVolumeClaim) :
    Triple (fun w => w.ClaimApplies claim) (createPersistentVolumeClaim claim) (fun _ _ => True)
      fun e _ => Ordinary e := by
  have hstable : Stable fun w => w.ClaimApplies claim := fun w w' ht hw hbare => by
    rw [show w'.status.pvcAnnotations = w.status.pvcAnnotations from
      ht.same .pvcAnnotations (Set.notMem_empty _)]
    exact hw ((bareClaim_congr (ht.get? (Set.notMem_empty _))).mp hbare)
  refine Triple.bind ((findObject_triple hstable .persistentVolumeClaim claim.metadata.name).raises
    (findObject_steady _ _)) fun found => ?_
  rcases found with - | found
  · exact Raises.triple ((clientCreate_steady _ _).bind fun _ => raises_update _)
  · refine Triple.bind (Q := fun _ w => w.ClaimApplies claim ∧
      w.get? .persistentVolumeClaim claim.metadata.name = some found) (triple_update fun _ h => h)
      fun _ => ?_
    refine Triple.bind (Q := fun previous _ => claim.wanted = previous ∨
      (found.wanted = ∅ → claim.wanted = ∅)) (triple_observe fun w hw => ?_) fun previous => ?_
    · refine or_iff_not_imp_left.mpr fun hne hempty => ?_
      exact (hw.1 ⟨found, hw.2, hempty⟩).resolve_right hne
    · refine Triple.whenever (fun hne => Triple.of_fact (fun _ h => h) fun hcase => ?_)
        fun _ _ _ => trivial
      have hok := hcase.resolve_left (of_decide_eq_true hne)
      exact Raises.triple ((build_steady (updatedAnnotations_ok_iff.mpr hok)).bind fun _ =>
        (clientUpdate_steady _ _).map _)

/-- Steps that store claims, by what they do to claims without annotations. -/
theorem claims_preserve {annotations : StringMap} {α : Type} {m : Op α}
    (ht : Within (Touches (Footprint.fields ⟨Set.univ, ∅, ∅, ∅⟩)) m)
    (h : annotations ≠ ∅ → ∀ w₀, Triple (SameClaims w₀) m (fun _ => SameClaims w₀)
      fun _ => SameClaims w₀) : Within (Preserves annotations) m :=
  fun w => preserves_of_sameClaims (ht w) (fun _ => id) Set.not_nonempty_empty fun hne =>
    keeps_of_triple (h hne w) w (refl_of SameClaims w)

/-- A claim that asks for the wanted annotations leaves no claim behind that could not take them. -/
theorem applyClaim_preserves {annotations : StringMap} {claim : Option PersistentVolumeClaim}
    (h : ∀ c ∈ claim, c.metadata.annotations = storedAnnotations annotations) :
    Within (Preserves annotations) (applyClaim claim) := by
  refine claims_preserve (applyClaim_touches rfl claim) fun hne w₀ => ?_
  rcases claim with - | claim
  · exact triple_pure fun _ hw => hw
  · have hwanted : claim.wanted ≠ ∅ := by rwa [wanted_of_storedAnnotations (h claim rfl)]
    exact (createPersistentVolumeClaim_sameClaims w₀ claim).conseq (fun _ hw => ⟨hw, .inl hwanted⟩)
      (fun _ _ hw => hw) fun _ _ hw => hw

theorem applySnapshotsClaim_preserves (storage : SnapshotStorage) (cr : ZooKeeperService) :
    Within (Preserves (claimAnnotations cr)) (applySnapshotsClaim storage cr) :=
  claims_preserve (applySnapshotsClaim_touches rfl storage cr) fun hne w₀ =>
    applySnapshotsClaim_sameClaims w₀ storage hne

/-- The claims are applied without a panic. -/
theorem applyClaim_ordinary (claim : Option PersistentVolumeClaim) :
    Triple (fun w => ∀ c ∈ claim, w.ClaimApplies c) (applyClaim claim) (fun _ _ => True)
      fun e _ => Ordinary e := by
  rcases claim with - | claim
  · exact triple_pure fun _ _ => trivial
  · exact (createPersistentVolumeClaim_ordinary claim).conseq (fun _ hw => hw claim rfl)
      (fun _ _ h => h) fun _ _ h => h

/-- A fitting storage gives the claim of the snapshots without a panic. -/
theorem processSnapshotsPersistentVolumeClaim_steady {storage : SnapshotStorage}
    {cr : ZooKeeperService} (hglobal : cr.spec.global.isSome) (h : storage.Fits) :
    Steady (processSnapshotsPersistentVolumeClaim storage cr) := by
  refine (build_steady (deref_ok hglobal)).bind fun global => ?_
  dsimp only
  split
  next htype =>
    refine build_steady (processNonSharedPersistentVolumeClaim_ok _ _ _ _ (h.pair htype)
      fun hprovided => h.size (.inr ⟨htype, hprovided⟩) ?_ fun hother => ?_)
    · rw [htype]
      decide
    · rw [htype] at hother
      exact absurd hother (by decide)
  next =>
    split
    · exact (clientGet_steady _ _).map _
    next hclaim =>
      split
      next htype =>
        split
        · exact raises_raise rfl
        next hname =>
          exact (build_steady (newPersistentVolumeClaim_ok _ _ _ _ _ _ _ _
            (h.size (.inl (by simp [htype])) hclaim fun _ => hname))).map _
      next hpredefined =>
        split
        next htype =>
          exact (build_steady (newPersistentVolumeClaim_ok _ _ _ _ _ _ _ _
            (h.size (.inl (by simp [htype])) hclaim fun hother => absurd hother hpredefined))).map _
        · exact raises_pure none

/-- The claim for snapshots or backups takes the annotations of the custom resource, if it is built
and not only looked up. -/
def SnapshotStorage.Takes (storage : SnapshotStorage) (cr : ZooKeeperService) (w : World) : Prop :=
  storage.IsProvided → storage.persistentVolumeType ≠ "predefined_claim" →
    w.Takes (claimAnnotations cr) (storage.claimName cr.name)

/-- The condition on the storage of the snapshots is preserved. -/
theorem SnapshotStorage.Takes.preserves {storage : SnapshotStorage} {cr : ZooKeeperService}
    {w w' : World} (h : storage.Takes cr w) (hw : Preserves (claimAnnotations cr) w w') :
    storage.Takes cr w' :=
  fun hprovided hbuilt => hw.takes (h hprovided hbuilt)

/-- A claim that is only looked up is one that is there. -/
theorem processSnapshotsPersistentVolumeClaim_there {storage : SnapshotStorage}
    (cr : ZooKeeperService) (h : storage.persistentVolumeType = "predefined_claim") :
    Triple (fun _ => True) (processSnapshotsPersistentVolumeClaim storage cr)
      (fun claim w => ∀ c ∈ claim, w.get? .persistentVolumeClaim c.metadata.name = some c)
      fun _ _ => True := by
  refine triple_of_last fun global => ?_
  dsimp only
  rw [if_neg (by rw [h]; decide), if_pos h]
  refine ((clientGet_triple (P := fun _ => True) (fun _ _ _ _ => trivial) .persistentVolumeClaim
    _).conseq (fun _ h => h) (fun _ _ h => h.2) fun _ _ h => h).bind fun claim => ?_
  refine triple_pure fun w hget => ?_
  rintro _ ⟨⟩
  rw [show claim.metadata.name = _ from Store.name_of_get? hget]
  exact hget

theorem applySnapshotsClaim_ordinary {storage : SnapshotStorage} {cr : ZooKeeperService}
    (hglobal : cr.spec.global.isSome) (h : storage.Fits) :
    Triple (storage.Takes cr) (applySnapshotsClaim storage cr) (fun _ _ => True)
      fun e _ => Ordinary e := by
  have hsteady := processSnapshotsPersistentVolumeClaim_steady hglobal h
  have hthere {c : PersistentVolumeClaim} {w : World}
      (hget : w.get? .persistentVolumeClaim c.metadata.name = some c) : w.ClaimApplies c := by
    rintro ⟨found, hfound, hempty⟩
    obtain rfl := Option.some.inj (hget.symm.trans hfound)
    exact .inl hempty
  suffices hprocess : Triple (storage.Takes cr) (processSnapshotsPersistentVolumeClaim storage cr)
      (fun claim w => ∀ c ∈ claim, w.ClaimApplies c) fun _ _ => True from
    (hprocess.raises hsteady).bind applyClaim_ordinary
  by_cases htype : storage.persistentVolumeType = "predefined_claim"
  · exact (processSnapshotsPersistentVolumeClaim_there cr htype).conseq (fun _ _ => trivial)
      (fun claim w hw c hc => hthere (hw c hc)) fun _ _ h => h
  · have hstable : Stable (storage.Takes cr) := fun w w' ht hw =>
      hw.preserves (stable_preserves w w w' ht (refl_of (Preserves _) w))
    refine ((processSnapshotsPersistentVolumeClaim_triple hstable storage cr).and_yields
      (processSnapshotsPersistentVolumeClaim_names storage cr)).conseq (fun _ h => h)
      (fun claim w hw c hc => ?_) fun _ _ _ => trivial
    obtain ⟨⟨htakes, hmade⟩, hnames⟩ := hw
    rcases hmade c hc with hbuilt | hget
    · obtain ⟨hprovided, hname⟩ := (hnames c.metadata.name).mp ⟨c, hc, rfl⟩
      rw [World.ClaimApplies, wanted_of_storedAnnotations hbuilt.annotations, hname]
      exact htakes hprovided htype
    · exact hthere hget

/-! ### Credentials -/

/-- There is a map of Secret versions, or the credentials at a path need not be written. -/
def World.TakesVersion (w : World) (path : String) (secret : Secret) : Prop :=
  w.status.secretVersions.isSome ∨
    w.credentialsVersion path ≠ 0 ∧ needToRefreshCredentials secret = false

/-- The condition on the map of Secret versions is preserved. -/
theorem World.TakesVersion.preserves {annotations : StringMap} {w w' : World} {path : String}
    {secret : Secret} (h : w.TakesVersion path secret) (hw : Preserves annotations w w') :
    w'.TakesVersion path secret := by
  refine h.imp hw.versions fun hthere => ⟨?_, hthere.2⟩
  have hle := hw.evolves.credentials path
  omega

/-- A secret with a version is found. -/
theorem readVaultSecret_isSome {path name : String} {w w' : World} {found : Option StringMap}
    (hw : w.credentialsVersion (vaultSecretPath path name) ≠ 0)
    (h : readVaultSecret path name w = .ok found w') : found ≠ none := by
  obtain rfl := request_observe_ok_inv (fun _ => rfl) (replied_ok_inv h)
  intro hnone
  rw [Option.map_eq_none_iff] at hnone
  rw [World.credentialsVersion, hnone] at hw
  exact hw rfl

/-- Reading and writing secrets asserts the types in the answers, so the answers have to be whole.
-/
theorem readVaultSecret_ordinary (path name : String) :
    Triple World.Whole (readVaultSecret path name) (fun _ _ => True) fun e _ => Ordinary e :=
  replied_ordinary (request_steady (raises_observe _))

theorem writeVaultSecret_ordinary (path name : String) (secret : StringMap) :
    Triple World.Whole (writeVaultSecret path name secret) (fun _ _ => True)
      fun e _ => Ordinary e :=
  replied_ordinary (vaultRequest_steady _ fun _ _ _ h => by cases h)

/-- Credentials can be written: there is a map for their versions, and the answers are whole. -/
structure World.Recordable (w : World) : Prop where
  versions : w.status.secretVersions.isSome
  whole : w.Whole

/-- A map that has been made stays. -/
theorem World.Recordable.preserves {annotations : StringMap} {w w' : World} (h : w.Recordable)
    (hw : Preserves annotations w w') : w'.Recordable :=
  ⟨hw.versions h.versions, hw.whole h.whole⟩

/-- A version is recorded without a panic once the map of versions has been made. -/
theorem recordSecretVersion_ordinary (name : String) (version : ℕ) :
    Triple World.Recordable (recordSecretVersion name version)
      (fun _ _ => True) fun e _ => Ordinary e := by
  intro w hw
  obtain ⟨versions, hversions⟩ := Option.isSome_iff_exists.mp hw.versions
  simp only [recordSecretVersion, hversions]

/-- Steps that leave the map of Secret versions alone. -/
theorem recordable_safe {α : Type} {m : Op α}
    (hm : Triple World.Whole m (fun _ _ => True) fun e _ => Ordinary e)
    (h : Within (Touches {.vault}) m) : Safe World.Recordable m :=
  .of_triple (hm.conseq (fun _ hw => hw.whole) (fun _ _ hw => hw) fun _ _ hw => hw)
    (vault_preserves h) fun _ _ hw (hp : Preserves ∅ _ _) => hw.preserves hp

theorem recordCredentials_ordinary (path name : String) (secret : StringMap) :
    Triple World.Recordable (writeVaultSecret path name secret >>= recordSecretVersion name)
      (fun _ _ => True) fun e _ => Ordinary e :=
  (recordable_safe (writeVaultSecret_ordinary path name secret)
    (writeVaultSecret_touches (Set.mem_singleton _) path name secret)).bind
    (recordSecretVersion_ordinary name)

/-- Credentials are processed without a panic where they need not be written, or their version can
be recorded. -/
theorem processUserCredentials_ordinary (vault : VaultSecretManagement) (name key : String)
    (secret : Secret) (generator : PasswordGenerator) :
    Triple (fun w => w.TakesVersion (vaultSecretPath vault.path name) secret ∧ w.Whole)
      (processUserCredentials vault name key secret generator) (fun _ _ => True)
      fun e _ => Ordinary e := by
  have hread : Triple (fun w => w.TakesVersion (vaultSecretPath vault.path name) secret ∧ w.Whole)
      (readVaultSecret vault.path name) (fun found w => w.Recordable ∨
        found ≠ none ∧ needToRefreshCredentials secret = false) fun e _ => Ordinary e := by
    intro w hw
    rcases hrun : readVaultSecret vault.path name w with ⟨found, t⟩ | ⟨e, t⟩
    · have hkept : Preserves ∅ w t :=
        (vault_preserves (readVaultSecret_touches vault.path name)).ok hrun
      exact hw.1.imp (fun hversions => ⟨hkept.versions hversions, hkept.whole hw.2⟩)
        fun hthere => ⟨readVaultSecret_isSome hthere.1 hrun, hthere.2⟩
    · exact (readVaultSecret_ordinary _ _).raised hw.2 hrun
  refine Triple.bind hread fun found => Triple.whenever (fun hneeded => ?_) fun _ _ _ => trivial
  have hneeded : found = none ∨ needToRefreshCredentials secret = true := by
    simpa using hneeded
  refine Triple.conseq (P := World.Recordable) ?_ (fun w hw => ?_)
    (fun _ _ h => h) fun _ _ h => h
  · refine Triple.bind (Q := fun _ => World.Recordable) ?_ fun password =>
      recordCredentials_ordinary _ _ _
    split
    · exact triple_pure fun _ hw => hw
    · exact recordable_safe (generate_steady generator).triple (generate_touches generator)
  · -- credentials that are there and not asked for would not be written
    refine hw.resolve_right fun hthere => ?_
    rcases hneeded with hnone | hasked
    · exact hthere.1 hnone
    · rw [hthere.2] at hasked
      cases hasked

theorem processAdditionalUsersCredentials_ordinary (cr : ZooKeeperService)
    (vault : VaultSecretManagement) (secret : Secret) (generator : PasswordGenerator) :
    Triple World.Recordable
      (processAdditionalUsersCredentials cr vault secret generator) (fun _ _ => True)
      fun e _ => Ordinary e := by
  refine Triple.bind (recordable_safe (readVaultSecret_ordinary _ _)
    (readVaultSecret_touches _ _)) fun found => ?_
  refine Triple.whenever (fun _ => ?_) fun _ _ _ => trivial
  refine Triple.bind (recordable_safe (Raises.triple ?_) ?_) fun users =>
    recordCredentials_ordinary _ _ _
  · exact foldEach_raises (fun users username _ => (generate_steady generator).bind fun _ =>
      raises_pure _) _
  · exact foldEach_within (fun users username _ => (generate_touches generator).bind fun _ =>
      within_pure _) _

/-! ### Cleaning -/

/-- A Secret that has to be cleaned can be, if it has annotations. -/
theorem cleanedSecret_ok {secret : Secret} (h : secret.Annotated)
    (hneed : needToCleanSecret secret = true) : ∃ s, cleanedSecret secret = .ok s := by
  refine exists_cleanedSecret_iff.mpr fun hempty => ?_
  have hrefresh : needToRefreshCredentials secret = false := by
    rw [needToRefreshCredentials, hempty]
    rfl
  rw [needToCleanSecret, hrefresh, Bool.or_false, Bool.and_eq_true] at hneed
  exact h (of_decide_eq_true hneed.2) hempty

/-- So cleaning it does not panic. -/
theorem cleanSecret_steady (c : Component) {secret : Secret} (h : secret.Annotated) :
    Steady (cleanSecret c secret) := by
  refine (raises_update _).bind fun _ => ?_
  split
  next hneed =>
    exact (build_steady (cleanedSecret_ok h hneed)).bind fun _ => (clientUpdate_steady _ _).bind
      fun _ => (raises_update _).bind fun _ => raises_pure _
  · exact raises_pure _

/-- A cleaned Secret has no data. -/
theorem cleanSecret_annotated (c : Component) {secret : Secret} (h : secret.Annotated) :
    Yields Secret.Annotated (cleanSecret c secret) := by
  refine yields_of_last fun _ => ?_
  split
  · refine (build_yields fun _ h => data_cleanedSecret h).bind fun cleaned hdata => ?_
    have hstored : Yields (fun s => s.data = none) (clientUpdate .secret cleaned) := by
      intro w s w' hw
      obtain ⟨-, v, rfl⟩ := (clientUpdate_stores .secret cleaned).ok trivial hw
      exact hdata
    exact hstored.bind fun s hs => yields_of_last fun _ => yields_pure (annotated_of_data hs)
  · exact yields_pure h

end QubershipZookeeper.Operator
