import QubershipZookeeper.Effects

/-!
# The footprints of the components

The reconcilers of the components share one map of Secret versions and one map of hashes,
and they all write Deployments. A **footprint** says which of these a component may touch at
all; `Reconciler.reconcile_touches` shows that every component keeps to its own, wherever
its pass breaks off.
-/

namespace QubershipZookeeper.Operator

open Proc

/-! ## Vault -/

section Vault

variable {T : Set Field}

theorem initVaultClient_touches (vault : VaultSecretManagement) :
    Within (Touches T) (initVaultClient vault) :=
  (within_lift _).bind fun _ => replied_within (request_touches (within_pure ()))

/-- Other contents of Vault, with nothing gone that a field or the evolution speaks about. -/
theorem touches_vault (hT : .vault ∈ T) (w : World) {vault : Vault}
    (hcredentials : ∀ path, w.credentialsVersion path ≤
      { w with vault := vault }.credentialsVersion path)
    (hpolicies : ∀ n, (w.vault.passwordPolicies.lookup n).isSome →
      (vault.passwordPolicies.lookup n).isSome) : Touches T w { w with vault := vault } where
  same f hf := by
    cases f with
    | vault => exact (hf hT).elim
    | storedAnnotations => exact ⟨rfl, .inl rfl⟩
    | conditions => exact ⟨⟨rfl, .inl rfl⟩, rfl⟩
    | _ => rfl
  evolves := { Evolves.refl w with credentials := hcredentials, passwordPolicies := hpolicies }

/-- Recording the writes that are sent touches nothing. -/
theorem noteVaultWrite_touches (write : VaultWrite) :
    Within (Touches T) (noteVaultWrite write) := by
  refine fun w => ⟨fun f _ => ?_, { Evolves.refl w with }⟩
  cases f with
  | storedAnnotations => exact ⟨rfl, .inl rfl⟩
  | conditions => exact ⟨⟨rfl, .inl rfl⟩, rfl⟩
  | _ => rfl

/-- A write to Vault is on record, accepted or not; the record is no field. -/
theorem vaultRequest_touches {α : Type} {serve : Op α} (write : VaultWrite)
    (h : Within (Touches T) serve) : Within (Touches T) (vaultRequest write serve) :=
  (noteVaultWrite_touches write).bind fun _ => request_touches h

/-- The rule for requests holds for writes to Vault as well. -/
theorem vaultRequest_triple {α : Type} {serve : Op α} {P E : World → Prop} {Q : α → World → Prop}
    (write : VaultWrite) (hP : Stable P) (h : Triple P serve Q fun _ => E) (hPE : ∀ w, P w → E w)
    (hQE : ∀ a w, Q a w → E w) : Triple P (vaultRequest write serve) Q fun _ => E :=
  Triple.bind (triple_update fun w hw => hP _ _ (noteVaultWrite_touches write w) hw)
    fun _ => request_triple hP h hPE hQE

/-- A write that leaves the secrets and keeps the password policies touches Vault and nothing else.
-/
theorem vaultWrite_touches (hT : .vault ∈ T) {write : VaultWrite} {f : Vault → Vault}
    (hsecrets : ∀ v, (f v).secrets = v.secrets)
    (hpolicies : ∀ v n, (v.passwordPolicies.lookup n).isSome →
      ((f v).passwordPolicies.lookup n).isSome) : Within (Touches T) (vaultWrite write f) := by
  refine vaultRequest_touches _ fun w => touches_vault hT w (fun path => ?_) (hpolicies w.vault)
  rw [World.credentialsVersion, World.credentialsVersion, hsecrets]

theorem writeVaultPolicy_touches (hT : .vault ∈ T) (policyName policy : String) :
    Within (Touches T) (writeVaultPolicy policyName policy) :=
  vaultWrite_touches hT (fun _ => rfl) fun _ _ h => h

theorem writeVaultAuthRole_touches (hT : .vault ∈ T) (roleName : String) (role : VaultRole)
    (vault : VaultSecretManagement) :
    Within (Touches T) (writeVaultAuthRole roleName role vault) :=
  vaultWrite_touches hT (fun _ => rfl) fun _ _ h => h

theorem writeVaultPasswordPolicy_touches (hT : .vault ∈ T) (policyName policy : String) :
    Within (Touches T) (writeVaultPasswordPolicy policyName policy) := by
  refine Within.recover_unless (vaultWrite_touches hT (fun _ => rfl) fun v n hn => ?_)
    fun _ => within_pure ()
  by_cases h : n = policyName
  · rw [h, Finmap.lookup_insert]
    rfl
  · rw [Finmap.lookup_insert_of_ne _ h]
    exact hn

theorem readVaultSecret_touches (path secretName : String) :
    Within (Touches T) (readVaultSecret path secretName) :=
  replied_within (request_touches (within_observe _))

/-- A secret gets a new version: versions only rise. -/
theorem writeVaultSecret_touches (hT : .vault ∈ T) (path secretName : String)
    (secret : StringMap) : Within (Touches T) (writeVaultSecret path secretName secret) := by
  refine replied_within (vaultRequest_touches _ fun w =>
    touches_vault hT w (fun secretPath => ?_) fun _ h => h)
  by_cases h : secretPath = vaultSecretPath path secretName
  · subst h
    simp [World.credentialsVersion, Finmap.lookup_insert]
  · simp [World.credentialsVersion, Finmap.lookup_insert_of_ne _ h]

theorem nextPassword_touches : Within (Touches T) nextPassword :=
  fun w => touches_quiet w _ _ _ _

theorem generate_touches (generator : PasswordGenerator) :
    Within (Touches T) generator.generate := by
  cases generator with
  | operator => exact nextPassword_touches
  | vault policyName =>
    refine request_touches fun w => ?_
    split
    · exact nextPassword_touches w
    · exact refl_of (Touches T) w

/-- The generator of Vault may need its policy written first. -/
theorem newPasswordGenerator_touches (hT : .vault ∈ T) (cr : ZooKeeperService)
    (vault : VaultSecretManagement) : Within (Touches T) (newPasswordGenerator cr vault) := by
  unfold newPasswordGenerator
  split
  · exact (writeVaultPasswordPolicy_touches hT _ _).bind fun _ => within_pure _
  · exact within_pure _

/-- What is missing in Vault, or asked for, is written there. -/
theorem ensureVaultPolicy_touches (hT : .vault ∈ T) (policyName policy : String)
    (secret : Secret) : Within (Touches T) (ensureVaultPolicy policyName policy secret) :=
  (request_touches (within_observe _)).bind fun _ => (writeVaultPolicy_touches hT _ _).whenever

theorem ensureVaultRole_touches (hT : .vault ∈ T) (roleName : String) (role : VaultRole)
    (vault : VaultSecretManagement) (secret : Secret) :
    Within (Touches T) (ensureVaultRole roleName role vault secret) :=
  (request_touches (within_observe _)).bind fun _ => (writeVaultAuthRole_touches hT _ _ _).whenever

/-- A map of Secret versions, and nothing else. -/
theorem touches_secretVersions (w : World)
    (secretVersions : Option (Finmap fun _ : String => ℕ)) (h : .secretVersions ∈ T) :
    Touches T w { w with status := { w.status with secretVersions := secretVersions } } := by
  refine touches_background w _ _ _ _ _ _ fun f hf hne => ?_
  rcases hf with rfl | rfl | rfl | rfl
  · rfl
  · exact absurd h hne
  · exact ⟨rfl, .inl rfl⟩
  · exact ⟨⟨rfl, .inl rfl⟩, rfl⟩

theorem recordSecretVersion_touches (secretName : String) (version : ℕ) :
    Within (Touches T) (recordSecretVersion secretName version) := by
  intro w
  unfold recordSecretVersion
  split
  next versions hversions =>
    have hsome : (some (versions.insert secretName version)).isSome =
        w.status.secretVersions.isSome := by rw [hversions]; rfl
    refine touches_background w _ _ _ _ _ _ fun f hf _ => ?_
    refine same_status ?_ hsome ?_ (.inl rfl) f hf <;> rfl
  next => exact refl_of (Touches T) w

/-- Credentials go to Vault; their version goes to the status, which is no field here. -/
theorem processUserCredentials_touches (hT : .vault ∈ T) (vault : VaultSecretManagement)
    (credentialsSecretName usernameKey : String) (secret : Secret) (generator : PasswordGenerator) :
    Within (Touches T)
      (processUserCredentials vault credentialsSecretName usernameKey secret generator) := by
  refine (readVaultSecret_touches _ _).bind fun found => Within.whenever ?_
  dsimp only
  refine Within.bind ?_ fun password => ?_
  · split
    · exact within_pure _
    · exact generate_touches generator
  · exact (writeVaultSecret_touches hT _ _ _).bind fun _ => recordSecretVersion_touches _ _

theorem processAdditionalUsersCredentials_touches (hT : .vault ∈ T) (cr : ZooKeeperService)
    (vault : VaultSecretManagement) (secret : Secret) (generator : PasswordGenerator) :
    Within (Touches T) (processAdditionalUsersCredentials cr vault secret generator) := by
  refine (readVaultSecret_touches _ _).bind fun found => Within.whenever ?_
  refine Within.bind ?_ fun users => ?_
  · exact foldEach_within (fun _ _ _ => (generate_touches generator).bind fun _ => within_pure _) _
  · exact (writeVaultSecret_touches hT _ _ _).bind fun _ => recordSecretVersion_touches _ _

/-- Recording passages of Secrets touches nothing else. -/
theorem touches_passages (w : World) (applied vaulted : List Passage) :
    Touches T w { w with applied := applied ++ w.applied, vaulted := vaulted ++ w.vaulted } where
  same f _ := by
    cases f with
    | storedAnnotations => exact ⟨rfl, .inl rfl⟩
    | conditions => exact ⟨⟨rfl, .inl rfl⟩, rfl⟩
    | _ => rfl
  evolves := { Evolves.refl w with
    applied := List.subset_append_right _ _
    vaulted := List.subset_append_right _ _ }

/-- A version in the memory of the controller touches its entry only. -/
theorem touches_recordedVersion (w : World) {name : String} (version : ℕ)
    (h : .recordedVersion name ∈ T) :
    Touches T w { w with resourceVersions := w.resourceVersions.insert name version } where
  same f hf := by
    cases f with
    | recordedVersion n =>
      refine Finmap.lookup_insert_of_ne _ ?_
      rintro rfl
      exact hf h
    | storedAnnotations => exact ⟨rfl, .inl rfl⟩
    | conditions => exact ⟨⟨rfl, .inl rfl⟩, rfl⟩
    | _ => rfl
  evolves := { Evolves.refl w with }

theorem noteVaulted_touches (c : Component) (secret : Secret) :
    Within (Touches T) (noteVaulted c secret) :=
  fun w => touches_passages w [] _

/-- Only a Secret with a name is cleaned. -/
theorem name_ne_of_needToCleanSecret {secret : Secret} (h : needToCleanSecret secret = true) :
    secret.metadata.name ≠ "" := by
  unfold needToCleanSecret at h
  rw [Bool.and_eq_true] at h
  exact of_decide_eq_true h.1

/-- Cleaning writes the Secret and remembers its new version. -/
theorem cleanSecret_touches (c : Component) {secret : Secret}
    (h : secret.metadata.name ≠ "" → .object .secret secret.metadata.name ∈ T ∧
      .recordedVersion secret.metadata.name ∈ T) :
    Within (Touches T) (cleanSecret c secret) := by
  refine (noteVaulted_touches c secret).bind fun _ => ?_
  split
  next hneed =>
    obtain ⟨hobject, hrecorded⟩ := h (name_ne_of_needToCleanSecret hneed)
    refine (build_touches _).bind_yields (build_yields fun _ => name_cleanedSecret)
      fun cleaned hc => ?_
    refine Within.bind_yields (clientUpdate_touches hc ⟨hobject, by simp⟩)
      (clientUpdate_yields .secret cleaned)
      fun stored hs => ?_
    refine Within.bind (fun w => ?_) fun _ => within_pure _
    refine trans_of (Touches T) (touches_recordedVersion w stored.metadata.resourceVersion ?_)
      (touches_passages _ _ _)
    have hname : stored.metadata.name = secret.metadata.name := hs.trans hc
    exact hname ▸ hrecorded
  next => exact within_pure _

/-- A cleaned Secret keeps its name. -/
theorem cleanSecret_yields (c : Component) (secret : Secret) :
    Yields (fun s => s.metadata.name = secret.metadata.name) (cleanSecret c secret) := by
  refine yields_of_last fun _ => ?_
  split
  · refine (build_yields fun _ => name_cleanedSecret).bind fun cleaned hc => ?_
    refine (clientUpdate_yields .secret cleaned).bind fun stored hs => ?_
    exact yields_of_last fun _ => yields_pure (hs.trans hc)
  · exact yields_pure rfl

end Vault

/-! ## Footprints -/

/-- What a component may touch, apart from Services and ServiceAccounts. -/
structure Footprint where
  /-- the names of its claims -/
  claims : Set String
  /-- the names of its Deployments -/
  deployments : Set String
  /-- the names of the Secrets in its change test -/
  secrets : Set String
  /-- the names under which it remembers hashes -/
  hashes : Set String

/-- The fields of a footprint. A Secret that was not found is remembered as well, under the
empty name; and where no claims, Deployments or Secrets may be touched, nothing is recorded
about them, and there is nothing to be put into Vault. -/
def Footprint.fields (F : Footprint) : Set Field
  | .object .persistentVolumeClaim n => n ∈ F.claims
  | .object .deployment n => n ∈ F.deployments
  | .object .secret n => n ∈ F.secrets
  | .object _ _ => True
  | .recordedVersion n => n = "" ∨ n ∈ F.secrets
  | .recordedHash n => n ∈ F.hashes
  | .tested => F.secrets.Nonempty
  | .globalHash => False
  | .pvcAnnotations => False
  | .secretVersions => F.secrets.Nonempty
  | .storedAnnotations => False
  | .conditions => False
  | .vault => F.secrets.Nonempty
  | .claimed => F.claims.Nonempty
  | .rollouts => F.deployments.Nonempty

section Steps

variable {F : Footprint}

/-- The objects that a pass applies: a footprint has all Services and ServiceAccounts in it. -/
theorem applyService_touches (cr : ZooKeeperService) (service : Except Panic Service) :
    Within (Touches F.fields) (applyService cr service) :=
  (build_touches _).bind fun _ => (within_lift _).bind fun _ =>
    createOrUpdateService_touches ⟨trivial, by simp⟩

/-- Claims are written only within a footprint that has all of them. -/
theorem applyClaim_touches (hF : F.claims = Set.univ) (claim : Option PersistentVolumeClaim) :
    Within (Touches F.fields) (applyClaim claim) := by
  cases claim with
  | none => exact within_pure ()
  | some claim =>
    have hmem : claim.metadata.name ∈ F.claims := by
      rw [hF]
      exact Set.mem_univ _
    exact createPersistentVolumeClaim_touches ⟨hmem, by simp⟩ ⟨_, hmem⟩

theorem applySnapshotsClaim_touches (hF : F.claims = Set.univ) (storage : SnapshotStorage)
    (cr : ZooKeeperService) : Within (Touches F.fields) (applySnapshotsClaim storage cr) :=
  (processSnapshotsPersistentVolumeClaim_touches _ _).bind fun _ => applyClaim_touches hF _

theorem updatePodStatus_touches {T : Set Field} (labels : StringMap)
    {set : List String → ZooKeeperServiceStatus → ZooKeeperServiceStatus}
    (hset : ∀ names status, (set names status).pvcAnnotations = status.pvcAnnotations ∧
      (set names status).secretVersions = status.secretVersions ∧
      (set names status).conditions = status.conditions) :
    Within (Touches T) (updatePodStatus labels set) := by
  refine (listPods_touches _).bind fun names => Within.bind (fun w => ?_) fun _ =>
    statusUpdate_touches
  refine touches_background w _ _ _ _ _ _ fun f hf _ => ?_
  obtain ⟨hannotations, hversions, hconditions⟩ := hset (getPodNames names) w.status
  exact same_status hannotations (congrArg _ hversions) hconditions (.inl rfl) f hf

/-- A Deployment is written under the name that its builder gives it. -/
theorem applyDeployment_touches (cr : ZooKeeperService) {deployment : Except Panic Deployment}
    (secrets : List (Option Secret))
    (h : ∀ d, deployment = .ok d → d.metadata.name ∈ F.deployments) :
    Within (Touches F.fields) (applyDeployment cr deployment secrets) := by
  refine (build_touches _).bind_yields (build_yields h) fun d hd => ?_
  refine (within_lift _).bind_yields (yields_lift fun m hm => name_setControllerReference hm)
    fun m hm => createOrUpdateDeployment_touches ?_
  have hmem : m.name ∈ F.deployments := hm ▸ hd
  exact ⟨hmem, fun _ => ⟨_, hmem⟩⟩

/-- A Secret that the footprint accounts for: one of its own, or one that was not found. -/
structure Footprint.Owns (F : Footprint) (secret : Secret) : Prop where
  nonempty : F.secrets.Nonempty
  name : secret.metadata.name = "" ∨ secret.metadata.name ∈ F.secrets

/-- Whether a footprint owns a Secret is a question of its name. -/
theorem Footprint.Owns.of_name_eq {s s' : Secret} (h : F.Owns s)
    (hname : s'.metadata.name = s.metadata.name) : F.Owns s' :=
  ⟨h.nonempty, by rw [hname]; exact h.name⟩

theorem owns_of_univ (hF : F.secrets = Set.univ) (secret : Secret) : F.Owns secret := by
  refine ⟨?_, .inr ?_⟩ <;> rw [hF]
  · exact Set.univ_nonempty
  · exact Set.mem_univ _

/-- Without a name there is no Secret to be watched. -/
theorem watchOwnSecret_writes {T : Set Field} {secretName : String} (cr : ZooKeeperService)
    (h : Writes T .secret secretName) : Within (Touches T) (watchOwnSecret secretName cr) :=
  (watchSecret_touches cr h).recover_if fun _ => within_pure _

theorem watchOwnSecret_touches {secretName : String} (cr : ZooKeeperService)
    (h : secretName ∈ F.secrets) : Within (Touches F.fields) (watchOwnSecret secretName cr) :=
  watchOwnSecret_writes cr ⟨h, by simp⟩

/-- The Secret that is watched has the name, unless it is missing. -/
theorem watchOwnSecret_yields (secretName : String) (cr : ZooKeeperService) :
    Yields (fun secret => secret.metadata.name = "" ∨ secret.metadata.name = secretName)
      (watchOwnSecret secretName cr) := by
  refine Yields.recover_if ?_ fun _ => yields_pure (.inl rfl)
  exact fun w secret w' hw => .inr (watchSecret_yields secretName cr w secret w' hw)

/-- The Secret that is watched is one of the footprint, or has no name. -/
theorem watchOwnSecret_owns {secretName : String} (cr : ZooKeeperService)
    (h : secretName ∈ F.secrets) : Yields F.Owns (watchOwnSecret secretName cr) := by
  intro w secret w' hw
  rcases watchOwnSecret_yields secretName cr w secret w' hw with hname | hname
  · exact ⟨⟨_, h⟩, .inl hname⟩
  · exact ⟨⟨_, h⟩, .inr (hname ▸ h)⟩

theorem watchOtherSecret_writes {T : Set Field} {secretName : Option String} (cr : ZooKeeperService)
    (h : ∀ n ∈ secretName, Writes T .secret n) :
    Within (Touches T) (watchOtherSecret secretName cr) := by
  cases secretName with
  | none => exact within_pure none
  | some secretName =>
    exact ((watchSecret_touches cr (h secretName rfl)).map some).recover_if fun _ =>
      within_pure none

theorem watchOtherSecret_touches {secretName : Option String} (cr : ZooKeeperService)
    (h : ∀ n ∈ secretName, n ∈ F.secrets) :
    Within (Touches F.fields) (watchOtherSecret secretName cr) :=
  watchOtherSecret_writes cr fun n hn => ⟨h n hn, by simp⟩

/-- The Secret of another component has the name it was looked up with. -/
theorem watchOtherSecret_yields (secretName : Option String) (cr : ZooKeeperService) :
    Yields (fun secret => ∀ s ∈ secret, some s.metadata.name = secretName)
      (watchOtherSecret secretName cr) := by
  cases secretName with
  | none => exact yields_pure (by rintro _ ⟨⟩)
  | some secretName =>
    refine Yields.recover_if ?_ fun _ => yields_pure (by rintro _ ⟨⟩)
    exact (watchSecret_yields secretName cr).map (by rintro s rfl _ ⟨⟩; rfl)

/-- A test puts the Secrets on record and changes nothing else. -/
theorem testChanged_touches (hF : F.secrets.Nonempty) (c : Component) (digest : Digest)
    (secrets : List (Option Secret)) :
    Within (Touches F.fields) (testChanged c digest secrets) := by
  refine fun w => ⟨fun f hf => ?_, { Evolves.refl w with applied := ?_ }⟩
  · cases f with
    | tested => exact (hf hF).elim
    | storedAnnotations => exact ⟨rfl, .inl rfl⟩
    | conditions => exact ⟨⟨rfl, .inl rfl⟩, rfl⟩
    | _ => rfl
  · dsimp only [testChanged, Outcome.next_ok]
    split
    · exact List.subset_append_right _ _
    · exact List.Subset.refl _

/-- The answer of a test is what the memory and the Secrets say. -/
theorem testChanged_ok_inv {c : Component} {digest : Digest} {secrets : List (Option Secret)}
    {w w' : World} {answer : Bool} (h : testChanged c digest secrets w = .ok answer w') :
    answer = changed c digest secrets w := by
  cases h
  rfl

/-- Remembering touches only the entries of the Secrets at hand. -/
theorem lookup_rememberedVersions {secrets : List (Option Secret)}
    {versions : Finmap fun _ : String => ℕ} {n : String}
    (h : ∀ s, some s ∈ secrets → s.metadata.name ≠ n) :
    (rememberedVersions secrets versions).lookup n = versions.lookup n := by
  unfold rememberedVersions
  induction secrets generalizing versions with
  | nil => rfl
  | cons secret secrets ih =>
    rw [List.foldl_cons, ih fun s hs => h s (List.mem_cons_of_mem _ hs)]
    cases secret with
    | none => rfl
    | some s => exact Finmap.lookup_insert_of_ne _ (h s (List.mem_cons_self ..)).symm

/-- Remembering writes the hash of the component and the versions of its Secrets. -/
theorem remember_touches {c : Component} (digest : Digest) {secrets : List (Option Secret)}
    (hhash : hashName c ∈ F.hashes) (hsecrets : ∀ s, some s ∈ secrets → F.Owns s) :
    Within (Touches F.fields) (remember c digest secrets) := by
  refine fun w => ⟨fun f hf => ?_, { Evolves.refl w with }⟩
  cases f with
  | recordedVersion n =>
    refine lookup_rememberedVersions fun s hs hn => hf ?_
    exact hn ▸ (hsecrets s hs).name
  | recordedHash n =>
    refine Finmap.lookup_insert_of_ne _ ?_
    rintro rfl
    exact hf hhash
  | storedAnnotations => exact ⟨rfl, .inl rfl⟩
  | conditions => exact ⟨⟨rfl, .inl rfl⟩, rfl⟩
  | _ => rfl

end Steps

/-! ## The components -/

namespace ZooKeeperResourceProvider

variable (p : ZooKeeperResourceProvider) {F : Footprint}

/-- The footprint of ZooKeeper. -/
def footprint : Footprint where
  claims := Set.univ
  deployments := Set.range (serverName p.cr.name)
  secrets := {p.spec.secretName}
  hashes := {hashName .zooKeeper}

/-- The Deployment of a server has the server's name. -/
theorem name_newServerDeploymentForCR {i : ℕ} {d : Deployment}
    (h : p.newServerDeploymentForCR i = .ok d) : d.metadata.name = serverName p.cr.name i := by
  obtain ⟨global, -, h⟩ := except_bind_ok_inv h
  obtain ⟨affinity, -, h⟩ := except_bind_ok_inv h
  cases h
  rfl

theorem writePolicies_touches {T : Set Field} (hT : .vault ∈ T) (vault : VaultSecretManagement)
    (secret : Secret) : Within (Touches T) (p.writePolicies vault secret) :=
  (ensureVaultPolicy_touches hT _ _ _).bind fun _ =>
    (ensureVaultRole_touches hT _ _ _ _).bind fun _ => ensureVaultPolicy_touches hT _ _ _

/-- The steps of `processVaultSecrets` before the Secret is cleaned. -/
theorem processVaultSecrets_within {R : World → World → Prop} [IsTrans World R]
    {vault : VaultSecretManagement} {secret : Secret}
    (hR : ∀ w w', Touches {.secretVersions, .vault} w w' → R w w')
    (hclean : Within R (cleanSecret .zooKeeper secret)) :
    Within R (p.processVaultSecrets vault secret) := by
  have hT : Field.vault ∈ ({.secretVersions, .vault} : Set Field) := by simp
  have hstatus : Within (Touches {.secretVersions, .vault}) (update fun w : World => { w with
      status := { w.status with
        secretVersions := some (w.status.secretVersions.getD ∅) } } : Op Unit) :=
    fun w => touches_secretVersions w _ (by simp)
  refine (hstatus.mono hR).bind fun _ => ?_
  refine ((p.writePolicies_touches hT vault secret).whenever.mono hR).bind fun _ => ?_
  refine ((newPasswordGenerator_touches hT _ _).mono hR).bind fun generator => ?_
  refine ((processUserCredentials_touches hT _ _ _ _ _).mono hR).bind fun _ => ?_
  refine ((processUserCredentials_touches hT _ _ _ _ _).mono hR).bind fun _ => ?_
  exact ((processAdditionalUsersCredentials_touches hT _ _ _ _).mono hR).bind fun _ => hclean

/-- The Secret that comes back from Vault's part of a pass has the name it had. -/
theorem processVaultSecrets_yields (vault : VaultSecretManagement) (secret : Secret) :
    Yields (fun s => s.metadata.name = secret.metadata.name) (p.processVaultSecrets vault secret) :=
  yields_of_last fun _ => yields_of_last fun _ => yields_of_last fun _ => yields_of_last fun _ =>
    yields_of_last fun _ => yields_of_last fun _ => cleanSecret_yields _ _

/-- Vault's part of a pass cleans the Secret of the component, if there is one. -/
theorem applyVault_touches {secret : Secret} (h : F.Owns secret) :
    Within (Touches F.fields) (p.applyVault secret) := by
  unfold applyVault
  rcases p.cr.vault? with - | vault
  · exact within_pure _
  · refine p.processVaultSecrets_within (fun _ _ hw => hw.mono ?_)
      (cleanSecret_touches _ fun hne => ?_)
    · rintro _ (rfl | rfl)
      · exact h.nonempty
      · exact h.nonempty
    · exact ⟨h.name.resolve_left hne, h.name⟩

theorem applyVault_yields (secret : Secret) :
    Yields (fun s => s.metadata.name = secret.metadata.name) (p.applyVault secret) := by
  unfold applyVault
  rcases p.cr.vault? with - | vault
  · exact yields_pure rfl
  · exact p.processVaultSecrets_yields vault secret

theorem isPodRunning_touches {T : Set Field} (deploymentName : String) :
    Within (Touches T) (p.isPodRunning deploymentName) :=
  (build_touches _).bind fun _ => (listPods_touches _).bind fun _ => (listPods_touches _).bind
    fun _ => within_pure _

/-- Waiting for a server is reading only. -/
theorem awaitServer_touches {T : Set Field} (rolling : Bool) (serverId : ℕ) :
    Within (Touches T) (p.awaitServer rolling serverId) :=
  (poll_touches (p.isPodRunning_touches _) _).bind fun _ =>
    (sleep_touches.bind fun _ => poll_touches (isDeploymentReady_touches _) _).whenever

/-- One round of the loop over the servers. -/
theorem applyServer_touches (hF : F.claims = Set.univ) (rolling : Bool) {secret : Secret}
    (h : F.Owns secret) {serverId : ℕ}
    (hname : serverName p.cr.name serverId ∈ F.deployments) :
    Within (Touches F.fields) (p.applyServer rolling secret serverId) := by
  refine (applyService_touches _ _).bind fun _ => (build_touches _).bind fun claim => ?_
  refine (applyClaim_touches hF _).bind fun _ => ?_
  refine Within.bind (createServiceAccount_touches ⟨trivial, by simp⟩) fun _ => ?_
  refine (p.applyVault_touches h).bind fun secret => ?_
  refine (applyDeployment_touches _ _ fun d hd => ?_).bind fun _ => ?_
  · exact (p.name_newServerDeploymentForCR hd).symm ▸ hname
  · exact (p.awaitServer_touches _ _).bind fun _ => within_pure _

theorem applyServer_yields (rolling : Bool) (secret : Secret) (serverId : ℕ) :
    Yields (fun s => s.metadata.name = secret.metadata.name)
      (p.applyServer rolling secret serverId) :=
  yields_of_last fun _ => yields_of_last fun _ => yields_of_last fun _ => yields_of_last fun _ =>
    (p.applyVault_yields secret).bind fun _ hs => yields_of_last fun _ => yields_of_last fun _ =>
      yields_pure hs

/-- The servers in excess are scaled down to none, and not removed. -/
theorem scaleDown_touches (currentReplicas : ℕ)
    (hnames : ∀ i ∈ p.excessIds currentReplicas, serverName p.cr.name i ∈ F.deployments) :
    Within (Touches F.fields) (p.scaleDown currentReplicas) :=
  forEach_within fun i hi => scaleDeployment_touches 0 ⟨hnames i hi, fun _ => ⟨_, hnames i hi⟩⟩

theorem getCurrentDeploymentsCount_touches {T : Set Field} :
    Within (Touches T) p.getCurrentDeploymentsCount :=
  (listDeployments_touches _).bind fun _ => within_pure _

/-- The loop over the servers, with the downscale in front of it. -/
theorem applyServers_touches (hF : F.claims = Set.univ) {secret : Secret} (h : F.Owns secret)
    (hnames : ∀ i, serverName p.cr.name i ∈ F.deployments) :
    Within (Touches F.fields) (p.applyServers secret) := by
  refine (applySnapshotsClaim_touches hF _ _).whenever.bind fun _ => ?_
  refine (applyService_touches _ _).bind fun _ => (applyService_touches _ _).bind fun _ => ?_
  refine p.getCurrentDeploymentsCount_touches.bind fun currentReplicas => ?_
  refine (p.scaleDown_touches _ fun i _ => hnames i).bind fun _ => ?_
  refine foldEach_within_of (fun s hs i _ => ?_)
    (fun s hs i _ => p.applyServer_touches hF _ hs (hnames i)) h
  exact fun w s' w' hw => hs.of_name_eq (p.applyServer_yields _ _ _ w s' w' hw)

theorem applyServers_yields (secret : Secret) :
    Yields (fun s => s.metadata.name = secret.metadata.name) (p.applyServers secret) := by
  refine yields_of_last fun _ => yields_of_last fun _ => yields_of_last fun _ => ?_
  refine yields_of_last fun _ => yields_of_last fun _ => foldEach_yields (fun s hs i _ => ?_) rfl
  exact fun w s' w' hw => (p.applyServer_yields _ _ _ w s' w' hw).trans hs

theorem updateZooKeeperStatus_touches {T : Set Field} :
    Within (Touches T) p.updateZooKeeperStatus :=
  updatePodStatus_touches _ fun _ _ => ⟨rfl, rfl, rfl⟩

/-- The apply branch of ZooKeeper. -/
theorem apply_touches (hF : F.claims = Set.univ) {secret : Secret} (h : F.Owns secret)
    (hnames : ∀ i, serverName p.cr.name i ∈ F.deployments) :
    Within (Touches F.fields) (p.apply secret) := by
  refine Within.bind ?_ fun _ => p.updateZooKeeperStatus_touches.bind fun _ => within_pure _
  split
  · exact p.applyServers_touches hF h hnames
  · exact within_pure _

theorem apply_yields (secret : Secret) :
    Yields (fun s => s.metadata.name = secret.metadata.name) (p.apply secret) := by
  refine Yields.bind (Q := fun s => s.metadata.name = secret.metadata.name) ?_
    fun _ hs => yields_of_last fun _ => yields_pure hs
  split
  · exact p.applyServers_yields secret
  · exact yields_pure rfl

/-- Without a change the pass only puts marks on the Deployments of the servers. -/
theorem markRestarts_touches (secret : Secret)
    (hnames : ∀ i, serverName p.cr.name i ∈ F.deployments) :
    Within (Touches F.fields) (p.markRestarts secret) :=
  forEach_within fun i _ =>
    updateDeploymentSecretRestartAnnotations_touches _ ⟨hnames i, fun _ => ⟨_, hnames i⟩⟩

/-- The pass of ZooKeeper, whichever branch it takes. -/
theorem pass_touches (hF : F.claims = Set.univ)
    (hnames : ∀ i, serverName p.cr.name i ∈ F.deployments)
    (hsecret : p.spec.secretName ∈ F.secrets) : Within (Touches F.fields) p.pass := by
  refine (watchOwnSecret_touches p.cr hsecret).bind_yields (watchOwnSecret_owns p.cr hsecret)
    fun secret howns => ?_
  refine (testChanged_touches howns.nonempty _ _ _).bind fun isChanged => ?_
  refine Within.bind ?_ fun secret' => (p.markRestarts_touches _ hnames).bind fun _ => within_pure _
  split
  · exact p.apply_touches hF howns hnames
  · exact within_pure _

/-- The Secret that a pass ends with is one of its own. -/
theorem pass_owns (hsecret : p.spec.secretName ∈ F.secrets) : Yields F.Owns p.pass := by
  refine (watchOwnSecret_owns p.cr hsecret).bind fun secret howns =>
    yields_of_last fun isChanged => ?_
  refine Yields.bind (Q := F.Owns) ?_ fun secret' hs' => yields_of_last fun _ => yields_pure hs'
  split
  · exact fun w s' w' hw => howns.of_name_eq (p.apply_yields _ w s' w' hw)
  · exact yields_pure howns

/-- ZooKeeper keeps to its footprint. -/
theorem reconcile_touches : Within (Touches p.footprint.fields) p.reconcile := by
  refine (p.pass_touches (F := p.footprint) rfl (fun i => ⟨i, rfl⟩) rfl).bind_yields
    (p.pass_owns (F := p.footprint) rfl)
    fun secret hs => remember_touches _ rfl fun s hmem => ?_
  cases List.mem_singleton.mp hmem
  exact hs

end ZooKeeperResourceProvider

namespace MonitoringResourceProvider

variable (p : MonitoringResourceProvider)

/-- The footprint of Monitoring, which includes the Secret of the backup daemon. -/
def footprint : Footprint where
  claims := ∅
  deployments := {p.getServiceName}
  secrets := {n | n = p.spec.secretName ∨ n ∈ p.backupDaemonSecretName}
  hashes := {hashName .monitoring}

theorem name_newMonitoringDeployment {d : Deployment} (h : p.newMonitoringDeployment = .ok d) :
    d.metadata.name = p.getServiceName := by
  obtain ⟨global, -, h⟩ := except_bind_ok_inv h
  cases h
  rfl

theorem writePolicies_touches {T : Set Field} (hT : .vault ∈ T) (vault : VaultSecretManagement)
    (secret : Secret) : Within (Touches T) (p.writePolicies vault secret) :=
  (ensureVaultPolicy_touches hT _ _ _).bind fun _ => ensureVaultRole_touches hT _ _ _ _

theorem applyVault_touches {F : Footprint} {secret : Secret} (h : F.Owns secret) :
    Within (Touches F.fields) (p.applyVault secret) := by
  unfold applyVault
  rcases p.cr.vault? with - | vault
  · exact within_pure _
  · have hT : Field.vault ∈ F.fields := h.nonempty
    refine (p.writePolicies_touches hT vault secret).whenever.bind fun _ =>
      cleanSecret_touches _ fun hne => ?_
    exact ⟨h.name.resolve_left hne, h.name⟩

theorem applyVault_yields (secret : Secret) :
    Yields (fun s => s.metadata.name = secret.metadata.name) (p.applyVault secret) := by
  unfold applyVault
  rcases p.cr.vault? with - | vault
  · exact yields_pure rfl
  · exact yields_of_last fun _ => cleanSecret_yields _ _

theorem updateMonitoringStatus_touches {T : Set Field} :
    Within (Touches T) p.updateMonitoringStatus :=
  updatePodStatus_touches _ fun _ _ => ⟨rfl, rfl, rfl⟩

/-- The apply branch of Monitoring. -/
theorem apply_touches {secret : Secret} (h : p.footprint.Owns secret)
    (backupDaemonSecret : Option Secret) :
    Within (Touches p.footprint.fields) (p.apply secret backupDaemonSecret) := by
  refine (applyService_touches _ _).bind fun _ => ?_
  refine Within.bind (createServiceAccount_touches ⟨trivial, by simp⟩) fun _ => ?_
  refine (p.applyVault_touches h).bind fun secret => ?_
  refine (applyDeployment_touches (F := p.footprint) _ _ fun d hd =>
    p.name_newMonitoringDeployment hd).bind fun _ => ?_
  exact p.updateMonitoringStatus_touches.bind fun _ => within_pure _

theorem apply_yields (secret : Secret) (backupDaemonSecret : Option Secret) :
    Yields (fun s => s.metadata.name = secret.metadata.name) (p.apply secret backupDaemonSecret) :=
  yields_of_last fun _ => yields_of_last fun _ => (p.applyVault_yields secret).bind fun _ hs =>
    yields_of_last fun _ => yields_of_last fun _ => yields_pure hs

/-- Monitoring keeps to its footprint. -/
theorem reconcile_touches : Within (Touches p.footprint.fields) p.reconcile := by
  refine (watchOwnSecret_touches (F := p.footprint) p.cr (.inl rfl)).bind_yields
    (watchOwnSecret_owns (F := p.footprint) p.cr (.inl rfl)) fun secret howns => ?_
  refine (watchOtherSecret_touches (F := p.footprint) p.cr fun n hn => .inr hn).bind_yields
    (watchOtherSecret_yields _ _)
    fun other hother => ?_
  refine (testChanged_touches howns.nonempty _ _ _).bind fun isChanged => ?_
  refine Within.bind_yields (Q := p.footprint.Owns) ?_ ?_ fun secret' hs' => ?_
  · split
    · exact p.apply_touches howns other
    · exact within_pure _
  · split
    · exact fun w s' w' hw => howns.of_name_eq (p.apply_yields _ _ w s' w' hw)
    · exact yields_pure howns
  · refine Within.bind (updateDeploymentSecretRestartAnnotations_touches _
      ⟨rfl, fun _ => ⟨_, rfl⟩⟩) fun _ =>
      remember_touches _ rfl fun s hmem => ?_
    rcases List.mem_cons.mp hmem with h | h
    · cases h
      exact hs'
    · have hs : s ∈ other := (List.mem_singleton.mp h).symm
      exact ⟨howns.nonempty, .inr (.inr (hother s hs).symm)⟩

end MonitoringResourceProvider

namespace BackupDaemonResourceProvider

variable (p : BackupDaemonResourceProvider)

/-- The footprint of the backup daemon. -/
def footprint : Footprint where
  claims := Set.univ
  deployments := {p.getServiceName}
  secrets := {n | n = p.spec.secretName ∨ n ∈ p.s3SecretName ∨ n = p.getS3AliasesSecretName}
  hashes := {hashName .backupDaemon}

theorem name_newBackupDaemonDeployment {aliases : Bool} {d : Deployment}
    (h : p.newBackupDaemonDeployment aliases = .ok d) : d.metadata.name = p.getServiceName := by
  obtain ⟨global, -, h⟩ := except_bind_ok_inv h
  cases h
  rfl

theorem writePolicies_touches {T : Set Field} (hT : .vault ∈ T) (vault : VaultSecretManagement)
    (secret : Secret) : Within (Touches T) (p.writePolicies vault secret) :=
  (ensureVaultPolicy_touches hT _ _ _).bind fun _ => ensureVaultRole_touches hT _ _ _ _

theorem applyVault_touches {F : Footprint} {secret : Secret} (h : F.Owns secret) :
    Within (Touches F.fields) (p.applyVault secret) := by
  unfold applyVault
  rcases p.cr.vault? with - | vault
  · exact within_pure _
  · have hT : Field.vault ∈ F.fields := h.nonempty
    refine (p.writePolicies_touches hT vault secret).whenever.bind fun _ => ?_
    refine (newPasswordGenerator_touches hT _ _).bind fun _ => ?_
    refine (processUserCredentials_touches hT _ _ _ _ _).bind fun _ =>
      cleanSecret_touches _ fun hne => ?_
    exact ⟨h.name.resolve_left hne, h.name⟩

theorem applyVault_yields (secret : Secret) :
    Yields (fun s => s.metadata.name = secret.metadata.name) (p.applyVault secret) := by
  unfold applyVault
  rcases p.cr.vault? with - | vault
  · exact yields_pure rfl
  · exact yields_of_last fun _ => yields_of_last fun _ => yields_of_last fun _ =>
      cleanSecret_yields _ _

theorem updateBackupDaemonStatus_touches {T : Set Field} :
    Within (Touches T) p.updateBackupDaemonStatus :=
  updatePodStatus_touches _ fun _ _ => ⟨rfl, rfl, rfl⟩

/-- The apply branch of the backup daemon. -/
theorem apply_touches {secret : Secret} (h : p.footprint.Owns secret)
    (s3Secret s3AliasesSecret : Option Secret) :
    Within (Touches p.footprint.fields) (p.apply secret s3Secret s3AliasesSecret) := by
  refine (applySnapshotsClaim_touches rfl _ _).whenever.bind fun _ => ?_
  refine (applyService_touches _ _).bind fun _ => ?_
  refine Within.bind (createServiceAccount_touches ⟨trivial, by simp⟩) fun _ => ?_
  refine (p.applyVault_touches h).bind fun secret => ?_
  refine (applyDeployment_touches (F := p.footprint) _ _ fun d hd =>
    p.name_newBackupDaemonDeployment hd).bind fun _ => ?_
  exact p.updateBackupDaemonStatus_touches.bind fun _ => within_pure _

theorem apply_yields (secret : Secret) (s3Secret s3AliasesSecret : Option Secret) :
    Yields (fun s => s.metadata.name = secret.metadata.name)
      (p.apply secret s3Secret s3AliasesSecret) :=
  yields_of_last fun _ => yields_of_last fun _ => yields_of_last fun _ =>
    (p.applyVault_yields secret).bind fun _ hs => yields_of_last fun _ => yields_of_last fun _ =>
      yields_pure hs

theorem findS3Aliases_touches {T : Set Field} : Within (Touches T) p.findS3Aliases :=
  ((clientGet_touches _ _).map some).recover_unless fun _ => within_pure none

/-- The Secret with the aliases has the name that goes with the Secret of the stores. -/
theorem findS3Aliases_yields :
    Yields (fun secret => ∀ s ∈ secret, s.metadata.name = p.getS3AliasesSecretName)
      p.findS3Aliases := by
  refine Yields.recover ((clientGet_yields .secret _).map ?_) fun e k hk => ?_
  · rintro s hs _ ⟨⟩
    exact hs
  · split at hk <;> cases hk
    exact yields_pure (by rintro _ ⟨⟩)

/-- The backup daemon keeps to its footprint. -/
theorem reconcile_touches : Within (Touches p.footprint.fields) p.reconcile := by
  refine (watchOwnSecret_touches (F := p.footprint) p.cr (.inl rfl)).bind_yields
    (watchOwnSecret_owns (F := p.footprint) p.cr (.inl rfl)) fun secret howns => ?_
  refine (watchOtherSecret_touches (F := p.footprint) p.cr fun n hn => .inr (.inl hn)).bind_yields
    (watchOtherSecret_yields _ _) fun s3 hs3 => ?_
  refine p.findS3Aliases_touches.bind_yields p.findS3Aliases_yields fun aliases haliases => ?_
  refine (testChanged_touches howns.nonempty _ _ _).bind fun isChanged => ?_
  refine Within.bind_yields (Q := p.footprint.Owns) ?_ ?_ fun secret' hs' => ?_
  · split
    · exact p.apply_touches howns s3 aliases
    · exact within_pure _
  · split
    · exact fun w s' w' hw => howns.of_name_eq (p.apply_yields _ _ _ w s' w' hw)
    · exact yields_pure howns
  · refine Within.bind (updateDeploymentSecretRestartAnnotations_touches _
      ⟨rfl, fun _ => ⟨_, rfl⟩⟩) fun _ =>
      remember_touches _ rfl fun s hmem => ?_
    rcases List.mem_cons.mp hmem with h | h
    · cases h
      exact hs'
    · rcases List.mem_cons.mp h with h | h
      · exact ⟨howns.nonempty, .inr (.inr (.inl (hs3 s h.symm).symm))⟩
      · exact ⟨howns.nonempty, .inr (.inr (.inr (haliases s (List.mem_singleton.mp h).symm)))⟩

end BackupDaemonResourceProvider

/-! ## The controller -/

/-- The footprint of a component; the integration tests have none. -/
def Reconciler.footprint : Reconciler → Footprint
  | zooKeeper p => p.footprint
  | monitoring p => p.footprint
  | backupDaemon p => p.footprint
  | integrationTests _ => ⟨∅, ∅, ∅, ∅⟩

/-- **Every component keeps to its own footprint**, wherever its pass breaks off. -/
theorem Reconciler.reconcile_touches (r : Reconciler) :
    Within (Touches r.footprint.fields) r.reconcile := by
  cases r with
  | zooKeeper p => exact p.reconcile_touches
  | monitoring p => exact p.reconcile_touches
  | backupDaemon p => exact p.reconcile_touches
  | integrationTests tests => exact within_pure ()

section Controller

variable {T : Set Field}

/-- A failed step is reported in the status before its error is raised on. -/
theorem reporting_within {R : World → World → Prop} [Std.Refl R] [IsTrans World R]
    (hR : ∀ w w', Touches {.conditions} w w' → R w w') (describe : GoError → String) {m : Op Unit}
    (h : Within R m) : Within R (reporting describe m) :=
  h.recover_unless fun _ => ((writeFailedStatus_touches _ (Set.mem_singleton _)).mono hR).bind
    fun _ => within_raise _

theorem reporting_touches (hT : .conditions ∈ T) (describe : GoError → String) {m : Op Unit}
    (h : Within (Touches T) m) : Within (Touches T) (reporting describe m) :=
  reporting_within (fun _ _ hw => hw.mono (Set.singleton_subset_iff.mpr hT)) describe h

theorem noteTimedOut_touches (hT : .conditions ∈ T) (reason : String) :
    Within (Touches T) (noteTimedOut reason) := by
  refine fun w => ⟨fun f hf => ?_, { Evolves.refl w with }⟩
  cases f with
  | conditions => exact (hf hT).elim
  | storedAnnotations => exact ⟨rfl, .inl rfl⟩
  | _ => rfl

/-- A status check waits for its condition and reports the result. -/
theorem checkStatus_touches (hT : .conditions ∈ T) (reason inProgress failed ready : String)
    (timeoutSeconds : ℤ)
    {condition : Op Bool} (h : Within (Touches T) condition) :
    Within (Touches T) (checkStatus reason inProgress failed ready timeoutSeconds condition) := by
  refine (updateConditions_touches _ hT).bind fun _ => Within.bind ?_ fun _ =>
    (noteTimedOut_touches hT reason).whenever.bind fun _ => updateConditions_touches _ hT
  exact ((poll_touches h _).bind fun _ => within_pure true).recover_unless fun _ =>
    within_pure false

/-- Asking whether all Deployments are ready is reading only. -/
theorem allReady_touches (names : List String) : Within (Touches T) (allReady names) := by
  induction names with
  | nil => exact within_pure true
  | cons name names ih =>
    refine (isDeploymentReady_touches name).bind fun ready => ?_
    split
    · exact ih
    · exact within_pure false

/-- The status check of any component touches the conditions only. -/
theorem Reconciler.status_touches (hT : .conditions ∈ T) (global : Global) (r : Reconciler) :
    Within (Touches T) (r.status global) := by
  cases r with
  | zooKeeper p => exact checkStatus_touches hT _ _ _ _ _ (allReady_touches _)
  | monitoring p => exact checkStatus_touches hT _ _ _ _ _ (isDeploymentReady_touches _)
  | backupDaemon p => exact checkStatus_touches hT _ _ _ _ _ (isDeploymentReady_touches _)
  | integrationTests tests =>
    exact (checkStatus_touches hT _ _ _ _ _ (isDeploymentReady_touches _)).whenever

theorem startCycle_touches (hT : .conditions ∈ T) : Within (Touches T) startCycle :=
  Within.bind (fun w => touches_conditions w _ hT) fun _ => updateConditions_touches _ hT

/-- Before the components the call looks at the hash of the global section. -/
theorem prepare_touches (cr : ZooKeeperService) (h : .globalHash ∈ T) (hT : .conditions ∈ T) :
    Within (Touches T) (prepare cr) := by
  refine Within.bind (fun w => ⟨fun f hf => ?_, { Evolves.refl w with }⟩) fun _ => ?_
  · cases f with
    | globalHash => exact (hf h).elim
    | storedAnnotations => exact ⟨rfl, .inl rfl⟩
    | conditions => exact ⟨⟨rfl, .inl rfl⟩, rfl⟩
    | _ => rfl
  · refine (within_observe _).bind fun _ => (startCycle_touches hT).whenever.bind fun _ => ?_
    refine Within.bind ?_ fun _ => within_pure _
    rcases cr.vault? with - | vault
    · exact within_pure ()
    · exact reporting_touches hT _ (initVaultClient_touches vault)

/-- After the components the record of the annotations is written, and stored with the status. -/
theorem updateStatus_touches (cr : ZooKeeperService) (h : .pvcAnnotations ∈ T)
    (hstored : .storedAnnotations ∈ T) :
    Within (Touches T) (updateStatus cr) := by
  refine (build_touches _).bind fun global => (within_observe _).bind fun annotations => ?_
  refine Within.whenever (Within.bind (fun w => ?_) fun _ => statusUpdate_touches)
  refine touches_background w _ _ _ _ _ _ fun f hf hne => ?_
  rcases hf with rfl | rfl | rfl | rfl
  · exact absurd h hne
  · rfl
  · exact absurd hstored hne
  · exact ⟨⟨rfl, .inl rfl⟩, rfl⟩

/-- At the end the components are checked, and the conditions say how it went. -/
theorem finishCycle_touches (hT : .conditions ∈ T) (cr : ZooKeeperService) :
    Within (Touches T) (finishCycle cr) := by
  refine Within.bind ?_ fun _ => (within_observe _).bind fun _ => updateConditions_touches _ hT
  rcases cr.spec.global with - | global
  · exact within_pure ()
  · refine Within.whenever ((updateConditions_touches _ hT).bind fun _ =>
      sleep_touches.bind fun _ => ?_)
    exact forEach_within fun r _ => reporting_touches hT _ (r.status_touches hT global)

/-- Fetching the instance loads the stored status, and nothing else. -/
theorem getInstance_ok_inv {w w' : World} {cr : ZooKeeperService} (h : getInstance w = .ok cr w') :
    w.cr = some cr ∧
      ∃ faults, w' = { w with faults := faults, status := w.storedStatus.fetched } := by
  obtain ⟨faults, hw⟩ := request_ok_inv h
  dsimp only at hw
  rcases hcr : w.cr with - | cr' <;> rw [hcr] at hw <;> cases hw
  exact ⟨rfl, faults, rfl⟩

/-- Fetching an instance that exists: it is found, or the call ends with an error. -/
theorem reconcile_cases {w : World} {cr : ZooKeeperService} (hcr : w.cr = some cr) :
    (∃ w', getInstance w = .ok cr w' ∧ reconcile w = reconcileInstance cr w') ∨
      ∃ e w', getInstance w = .raised e w' ∧ reconcile w = .raised e w' := by
  have hraised : ∀ (why : Failure) w', getInstance w = .raised why.error w' →
      reconcile w = .raised why.error w' := by
    intro why w' h
    have hmap : (some <$> getInstance) w = .raised why.error w' := bind_raised h
    refine bind_raised (recover_unhandled hmap (if_neg ?_))
    rw [Failure.isNotFound_error]
    decide
  have hok : ∀ w', getInstance w = .ok cr w' → reconcile w = reconcileInstance cr w' := by
    intro w' h
    have hmap : (some <$> getInstance) w = .ok (some cr) w' := bind_ok h
    exact bind_ok (recover_ok hmap)
  -- the fetch is the first request of a call, so the first fault is its own
  rcases hf : w.faults with - | ⟨- | why | why | -, faults⟩
  · have h : getInstance w = .ok cr { w with status := w.storedStatus.fetched } := by
      simp only [getInstance, request, hf, hcr]
    exact .inl ⟨_, h, hok _ h⟩
  · have h : getInstance w =
      .ok cr { w with faults := faults, status := w.storedStatus.fetched } := by
      simp only [getInstance, request, hf, hcr]
    exact .inl ⟨_, h, hok _ h⟩
  · have h : getInstance w = .raised why.error { w with faults := faults } := by
      simp only [getInstance, request, hf]
    exact .inr ⟨_, _, h, hraised why _ h⟩
  · have h : getInstance w = .raised why.error
        { w with faults := faults, status := w.storedStatus.fetched } := by
      simp only [getInstance, request, hf, hcr, Outcome.next_ok]
    exact .inr ⟨_, _, h, hraised why _ h⟩
  · have h : getInstance w =
      .ok cr { w with faults := faults, status := w.storedStatus.fetched } := by
      simp only [getInstance, request, hf, hcr]
    exact .inl ⟨_, h, hok _ h⟩

/-- Whatever a call of `Reconcile` does, the world evolves. -/
theorem reconcile_touches : Within (Touches Set.univ) reconcile := by
  refine Within.bind ?_ fun found => ?_
  · exact ((getInstance_touches (Set.subset_univ _)).map some).recover_if fun _ => within_pure none
  · rcases found with - | cr
    · exact within_pure ()
    · refine (prepare_touches cr (Set.mem_univ _) (Set.mem_univ _)).bind fun isChanged => ?_
      refine Within.bind (forEach_within fun r _ => reporting_touches (Set.mem_univ _) _ ?_)
        fun _ => ?_
      · exact r.reconcile_touches.mono fun _ _ ht => ht.mono (Set.subset_univ _)
      · refine (updateStatus_touches cr (Set.mem_univ _) (Set.mem_univ _)).bind fun _ => ?_
        refine (finishCycle_touches (Set.mem_univ _) cr).whenever.bind fun _ w => ?_
        exact ⟨fun f hf => (hf (Set.mem_univ f)).elim, { Evolves.refl w with }⟩

end Controller

/-! ## A call -/

/-- The fields that a call touches outside of the passes. -/
def controllerFields : Set Field :=
  statusFields ∪ {.globalHash, .recordedHash "spec", .recordedHash globalHashName}

/-- What a call does outside of the passes does not concern the predicate. -/
def AboutPasses (P : World → Prop) : Prop := ∀ w w', P w → Touches controllerFields w w' → P w'

/-- Remembering a hash. -/
theorem touches_recordedHash {T : Set Field} (w : World) {name : String} (digest : Digest)
    (h : .recordedHash name ∈ T) :
    Touches T w { w with resourceHashes := w.resourceHashes.insert name digest } where
  same f hf := by
    cases f with
    | recordedHash n =>
      refine Finmap.lookup_insert_of_ne _ ?_
      rintro rfl
      exact hf h
    | storedAnnotations => exact ⟨rfl, .inl rfl⟩
    | conditions => exact ⟨⟨rfl, .inl rfl⟩, rfl⟩
    | _ => rfl
  evolves := { Evolves.refl w with }

/-- An error is reported before it is returned. -/
theorem reporting_triple_of_conditions {P E : World → Prop} {Q : Unit → World → Prop} {m : Op Unit}
    (hE : ∀ w w', E w → Touches {.conditions} w w' → E w') (describe : GoError → String)
    (h : Triple P m Q fun _ => E) : Triple P (reporting describe m) Q fun _ => E := by
  refine h.recover (fun e k hk => ?_) fun _ _ _ hw => hw
  split at hk <;> cases hk
  exact ((writeFailedStatus_touches _ (Set.mem_singleton _)).triple hE).bind fun _ =>
    triple_raise fun _ hw => hw

/-- The hash of the global section at hand is that of the custom resource. -/
def GlobalHashed (cr : ZooKeeperService) (w : World) : Prop :=
  w.globalSpecHash = some (.global cr.spec.global)

/-- The hash of the global section stays where it is not touched. -/
theorem GlobalHashed.of_touches {T : Set Field} {cr : ZooKeeperService} {w w' : World}
    (h : GlobalHashed cr w) (ht : Touches T w w') (hT : .globalHash ∉ T) : GlobalHashed cr w' :=
  Eq.trans (ht.same .globalHash hT) h

/-- After the preparation it is remembered. -/
theorem prepare_globalHashed (cr : ZooKeeperService) :
    Triple (fun _ => True) (prepare cr) (fun _ => GlobalHashed cr) fun _ _ => True := by
  have hquiet {α : Type} {m : Op α} (h : Within (Touches {.conditions}) m) :
      Triple (GlobalHashed cr) m (fun _ => GlobalHashed cr) fun _ _ => True :=
    (h.triple fun _ _ hw ht => hw.of_touches ht (by simp)).conseq (fun _ h => h) (fun _ _ h => h)
      fun _ _ _ => trivial
  refine Triple.bind (Q := fun _ => GlobalHashed cr) (triple_update fun _ _ => rfl)
    fun _ => hquiet ?_
  refine (within_observe _).bind fun _ => (startCycle_touches (Set.mem_singleton _)).whenever.bind
    fun _ => ?_
  refine Within.bind ?_ fun _ => within_pure _
  rcases cr.vault? with - | vault
  · exact within_pure ()
  · exact reporting_touches (Set.mem_singleton _) _ (initVaultClient_touches vault)

/-- The world at the end of a call that returns nil: the hashes are remembered. -/
def World.recordHashes (w : World) (cr : ZooKeeperService) : World :=
  { w with
    resourceHashes := (w.resourceHashes.insert "spec" (.spec cr.spec)).insert globalHashName
      (.global cr.spec.global) }

/-- The fields that a call touches before it is done with the passes, outside of them. -/
def preparationFields : Set Field := statusFields ∪ {.globalHash}

/-- **The rule for a call of `Reconcile`**, stage by stage: what holds after the instance has been
fetched, after so many passes, after the status has been written, and at the end. The passes know
the hash of the global section. -/
theorem reconcile_triple_staged {cr : ZooKeeperService} {I : List Reconciler → World → Prop}
    {P U E D Q : World → Prop} (hfetch : Triple P getInstance (fun _ => I []) fun _ => D)
    (hI : ∀ done w w', I done w → Touches {.globalHash, .conditions} w w' → I done w')
    (hE : ∀ w w', E w → Touches {.conditions} w w' → E w') (hIE : ∀ done w, I done w → E w)
    (hpass : ∀ done r rest, buildReconcilers cr = done ++ r :: rest →
      Triple (fun w => I done w ∧ GlobalHashed cr w) r.reconcile (fun _ => I (done ++ [r]))
        fun _ => E)
    (hstatus : Triple (I (buildReconcilers cr)) (updateStatus cr) (fun _ => U) fun _ => E)
    (hU : ∀ w w', U w → Touches {.conditions} w w' → U w') (hUE : ∀ w, U w → E w)
    (hED : ∀ w, E w → D w) (hlast : ∀ w, U w → Q (w.recordHashes cr)) :
    Triple (fun w => w.cr = some cr ∧ P w) reconcile (fun _ => Q) fun _ => D := by
  rintro w ⟨hcr, hw⟩
  rcases reconcile_cases hcr with ⟨w', hget, hrun⟩ | ⟨e, w', hget, hrun⟩ <;> rw [hrun]
  · have hprepare := (((prepare_touches cr (.inl rfl) (.inr rfl)).triple (hI [])).and
      (prepare_globalHashed cr)).conseq (fun _ h => ⟨h, trivial⟩) (fun _ _ h => h)
        fun _ w h => hIE [] w h.1
    refine (hprepare.bind fun isChanged => ?_).conseq (fun _ h => h) (fun _ _ h => h)
      (fun _ => hED) w' (hfetch.ok hw hget)
    refine Triple.bind (Q := fun _ => I (buildReconcilers cr)) ?_ fun _ => ?_
    · -- every pass keeps the hash of the global section, which it reads
      refine (forEach_triple (I := fun done w => I done w ∧ GlobalHashed cr w)
        fun done r rest hrest => reporting_triple_of_conditions hE _ ?_).conseq
        (fun _ h => h) (fun _ _ h => h.1) fun _ _ h => h
      have hkept := r.reconcile_touches.triple fun w w' (hw : GlobalHashed cr w) ht =>
        hw.of_touches ht id
      exact ((hpass done r rest hrest).and hkept).conseq (fun _ h => ⟨h, h.2⟩) (fun _ _ h => h)
        fun _ _ h => h.1
    refine hstatus.bind fun _ => ?_
    have hfinish := (finishCycle_touches (Set.mem_singleton _) cr).whenever (b := isChanged)
    exact ((hfinish.triple hU).conseq (fun _ h => h) (fun _ _ h => h) fun _ => hUE).bind fun _ =>
      triple_update hlast
  · exact hfetch.raised hw hget

/-- The rule for what the steps outside of the passes can change only at the end. -/
theorem reconcile_triple_recording {cr : ZooKeeperService} {I : List Reconciler → World → Prop}
    {E Q : World → Prop} (hI : ∀ done w w', I done w → Touches preparationFields w w' → I done w')
    (hE : ∀ w w', E w → Touches preparationFields w w' → E w') (hIE : ∀ done w, I done w → E w)
    (hpass : ∀ done r rest, buildReconcilers cr = done ++ r :: rest →
      Triple (fun w => I done w ∧ GlobalHashed cr w) r.reconcile (fun _ => I (done ++ [r]))
        fun _ => E)
    (hlast : ∀ w, I (buildReconcilers cr) w → Q (w.recordHashes cr)) :
    Triple (fun w => w.cr = some cr ∧ I [] w) reconcile (fun _ => Q) fun _ => E := by
  have hstatus : statusFields ⊆ preparationFields := Set.subset_union_left
  have hconditions : ({.conditions} : Set Field) ⊆ preparationFields :=
    Set.singleton_subset_iff.mpr (hstatus (by simp [statusFields]))
  have hglobal : ({.globalHash, .conditions} : Set Field) ⊆ preparationFields :=
    Set.insert_subset (.inr rfl) hconditions
  have hquiet {α : Type} {m : Op α} (done : List Reconciler)
      (h : Within (Touches preparationFields) m) : Triple (I done) m (fun _ => I done) fun _ => E :=
    (h.triple (hI done)).conseq (fun _ h => h) (fun _ _ h => h) fun _ => hIE done
  exact reconcile_triple_staged (hquiet [] (getInstance_touches hstatus))
    (fun done w w' hw ht => hI done w w' hw (ht.mono hglobal))
    (fun w w' hw ht => hE w w' hw (ht.mono hconditions)) hIE hpass
    (hquiet _ (updateStatus_touches cr (hstatus (by simp [statusFields]))
      (hstatus (by simp [statusFields]))))
    (fun w w' hw ht => hI _ w w' hw (ht.mono hconditions)) (hIE _) (fun _ h => h) hlast

theorem touches_recordHashes (w : World) (cr : ZooKeeperService) :
    Touches controllerFields w (w.recordHashes cr) :=
  trans_of (Touches controllerFields) (touches_recordedHash w _ (.inr (.inr (.inl rfl))))
    (touches_recordedHash _ _ (.inr (.inr (.inr rfl))))

/-- The rule for what only the passes can change. -/
theorem reconcile_triple {cr : ZooKeeperService} {I : List Reconciler → World → Prop}
    {E : World → Prop} (hI : ∀ done, AboutPasses (I done)) (hE : AboutPasses E)
    (hIE : ∀ done w, I done w → E w)
    (hpass : ∀ done r rest, buildReconcilers cr = done ++ r :: rest →
      Triple (I done) r.reconcile (fun _ => I (done ++ [r])) fun _ => E) :
    Triple (fun w => w.cr = some cr ∧ I [] w) reconcile (fun _ => I (buildReconcilers cr))
      fun _ => E := by
  have hfields : preparationFields ⊆ controllerFields :=
    Set.union_subset_union_right _ (Set.singleton_subset_iff.mpr (.inl rfl))
  refine reconcile_triple_recording (fun done w w' hw ht => hI done w w' hw (ht.mono hfields))
    (fun w w' hw ht => hE w w' hw (ht.mono hfields)) hIE (fun done r rest hlist => ?_)
    fun w hw => hI _ w _ hw (touches_recordHashes w cr)
  exact (hpass done r rest hlist).conseq (fun _ h => h.1) (fun _ _ h => h) fun _ _ h => h

end QubershipZookeeper.Operator
