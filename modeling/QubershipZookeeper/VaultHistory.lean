import QubershipZookeeper.Idempotence
import QubershipZookeeper.SafeCalls
import QubershipZookeeper.VaultAccess

/-!
# Calls, and what the pods find in Vault

Nothing that the operator does to Vault takes anything away from it, or puts something there that
does not belong to the path at hand (`Grows`). So whatever a pass submits a Deployment for stays in
Vault, and the Deployment with its references stays resolved (`Kept`). The servers bring
policies and secrets along which the other components need as well; a remembered hash of
their section stands for them.
-/

namespace QubershipZookeeper.Operator

open Proc

/-! ## Steps that keep everything -/

section Grows

variable {site : Site} {α : Type}

/-- Vault keeps what it has, and gets nothing that does not belong there; the Deployments and
the hash of the servers' section are as they were. -/
structure Site.Grows (site : Site) (w w' : World) : Prop where
  deployments : ∀ n, w'.get? .deployment n = w.get? .deployment n
  rollouts : w'.rollouts = w.rollouts
  servers : recordedHash w' = recordedHash w
  vault : site.Follows w.vault → site.Follows w'.vault ∧ ∀ i, site.Has w.vault i →
    site.Has w'.vault i

instance : Std.Refl site.Grows := ⟨fun _ => ⟨fun _ => rfl, rfl, rfl, fun h => ⟨h, fun _ h => h⟩⟩⟩

instance : IsTrans World site.Grows where
  trans _ _ _ h h' :=
    { deployments := fun n => (h'.deployments n).trans (h.deployments n)
      rollouts := h'.rollouts.trans h.rollouts
      servers := h'.servers.trans h.servers
      vault := fun hv => ⟨(h'.vault (h.vault hv).1).1, fun i hi =>
        (h'.vault (h.vault hv).1).2 i ((h.vault hv).2 i hi)⟩ }

/-- The fields that none of this is about. -/
def otherFields : Set Field :=
  {f | f ≠ .vault ∧ f ≠ .rollouts ∧ f ≠ .recordedHash (hashName .zooKeeper) ∧
    ∀ n, f ≠ .object .deployment n}

/-- Steps aside of Vault, the Deployments and the hash of the servers. -/
theorem grows_of_touches {w w' : World} (h : Touches otherFields w w') : site.Grows w w' where
  deployments n := h.get? fun hn => hn.2.2.2 n rfl
  rollouts := h.same .rollouts fun hf => hf.2.1 rfl
  servers := h.same (.recordedHash _) fun hf => hf.2.2.1 rfl
  vault hv := by
    have hvault : w'.vault = w.vault := h.same .vault fun hf => hf.1 rfl
    rw [hvault]
    exact ⟨hv, fun _ hi => hi⟩

theorem grows_of_aside {m : Op α} (h : Within (Touches otherFields) m) : Within site.Grows m :=
  h.mono fun _ _ => grows_of_touches

/-- Services and claims. -/
def objectsOnly : Footprint := ⟨Set.univ, ∅, ∅, ∅⟩

/-- Steps that write objects other than Deployments. -/
theorem grows_of_objects {m : Op α} (h : Within (Touches objectsOnly.fields) m) :
    Within site.Grows m := by
  refine grows_of_aside (h.mono fun _ _ ht => ht.mono fun f hf => ⟨?_, ?_, ?_, fun n => ?_⟩) <;>
    rintro rfl
  · exact Set.not_nonempty_empty hf
  · exact Set.not_nonempty_empty hf
  · exact hf
  · exact hf

theorem writes_secret (n : String) : Writes otherFields .secret n :=
  ⟨⟨nofun, nofun, nofun, nofun⟩, nofun⟩

/-- A write to Vault that keeps what Vault has. -/
theorem vaultRequest_grows {serve : Op α} (write : VaultWrite) (h : Within site.Grows serve) :
    Within site.Grows (vaultRequest write serve) :=
  (grows_of_aside (noteVaultWrite_touches write)).bind fun _ =>
    request_within (fun _ _ ht => grows_of_touches ht.of_empty) h

/-- A write to Vault that keeps what is there, in its place. -/
theorem vaultWrite_grows {write : VaultWrite} {f : Vault → Vault}
    (h : ∀ v, site.Follows v → site.Follows (f v) ∧ ∀ i, site.Has v i → site.Has (f v) i) :
    Within site.Grows (vaultWrite write f) :=
  vaultRequest_grows write fun w => ⟨fun _ => rfl, rfl, rfl, h w.vault⟩

/-- A read of Vault, and a write if something is missing. -/
theorem found_grows {β : Type} {f : World → β} {needed : β → Bool} {m : β → Op Unit}
    (h : ∀ b, Within site.Grows (m b)) :
    Within site.Grows (request (observe f) >>= fun b => whenever (needed b) (m b)) := by
  have hread : Within site.Grows (request (observe f)) :=
    request_within (fun _ _ ht => grows_of_touches ht.of_empty) (within_observe f)
  exact hread.bind fun b => (h b).whenever

end Grows

/-! ## Writes to Vault -/

section Writes

variable {site : Site} {vault : VaultSecretManagement} {secret : Secret}

theorem get_insert_self {m : StringMap} {n value : String} :
    StringMap.get (m.insert n value) n = value := by
  rw [StringMap.get, Finmap.lookup_insert]
  rfl

theorem get_insert_of_ne {m : StringMap} {n n' value : String} (h : n' ≠ n) :
    StringMap.get (m.insert n value) n' = m.get n' := by
  rw [StringMap.get, Finmap.lookup_insert_of_ne _ h, StringMap.get]

/-- A policy is written under the name and with the text that go with the site. -/
theorem ensureVaultPolicy_grows (k : PolicyKind) :
    Within site.Grows (ensureVaultPolicy (site.policyName k) (site.policyText k) secret) := by
  refine found_grows fun _ => vaultWrite_grows fun v hv =>
    ⟨{ hv with policies := fun k' => ?_ }, ?_⟩
  · by_cases hk : site.policyName k' = site.policyName k
    · obtain rfl := site.policyName_injective hk
      exact .inr get_insert_self
    · simp only [get_insert_of_ne hk]
      exact hv.policies k'
  · intro i hi
    cases i with
    | policy k' => exact get_insert_ne_empty (site.policyText_ne_empty k) (.inr hi)
    | _ => exact hi

/-- A role is written with the policies of its component. -/
theorem ensureVaultRole_grows (hproper : site.Proper) (c : Component) {role : VaultRole}
    (hrole : role.policies = site.rolePolicies c) :
    Within site.Grows (ensureVaultRole (site.roleName c) role vault secret) := by
  refine found_grows fun _ => vaultWrite_grows fun v hv =>
    ⟨{ hv with roles := fun c' method r hr => ?_ }, ?_⟩
  · by_cases hkey : method ++ "/" ++ site.roleName c' = vault.method ++ "/" ++ site.roleName c
    · obtain ⟨rfl, rfl⟩ := hproper.role_inj hkey
      rw [Finmap.lookup_insert] at hr
      cases hr
      exact hrole
    · rw [Finmap.lookup_insert_of_ne _ hkey] at hr
      exact hv.roles c' method r hr
  · intro i hi
    cases i with
    | role c' method =>
      by_cases hkey : method ++ "/" ++ site.roleName c' = vault.method ++ "/" ++ site.roleName c
      · obtain ⟨rfl, rfl⟩ := hproper.role_inj hkey
        simp only [Site.Has, Finmap.lookup_insert]
        exact nofun
      · simp only [Site.Has, Finmap.lookup_insert_of_ne _ hkey]
        exact hi
    | _ => exact hi

/-- A new version of a secret, with its keys. -/
theorem writeVaultSecret_grows {s : CredentialsKind} {path name : String} {values : StringMap}
    (hpath : vaultSecretPath path name = site.secretPath s) (hkeys : ∀ key ∈ s.keys, key ∈ values) :
    Within site.Grows (writeVaultSecret path name values) := by
  have hwrite (v : Vault) (n : ℕ) (hv : site.Follows v) :
      site.Follows (v.withSecret (site.secretPath s) values n) ∧
        ∀ i, site.Has v i → site.Has (v.withSecret (site.secretPath s) values n) i := by
    refine ⟨{ hv with secrets := fun s' found hfound => ?_ }, fun i hi => ?_⟩
    · by_cases hs : site.secretPath s' = site.secretPath s
      · obtain rfl := site.secretPath_injective hs
        rw [secretAt_withSecret_self] at hfound
        cases hfound
        exact hkeys
      · rw [secretAt_withSecret_of_ne hs] at hfound
        exact hv.secrets s' found hfound
    · cases i with
      | secret s' =>
        by_cases hs : site.secretPath s' = site.secretPath s
        · simp only [Site.Has, hs, secretAt_withSecret_self]
          exact nofun
        · simp only [Site.Has, secretAt_withSecret_of_ne hs]
          exact hi
      | _ => exact hi
  refine replied_within (vaultRequest_grows _ fun w => ⟨fun _ => rfl, rfl, rfl, fun hv => ?_⟩)
  rw [← hpath] at hwrite
  exact hwrite w.vault _ hv

theorem newPasswordGenerator_grows (cr : ZooKeeperService) :
    Within site.Grows (newPasswordGenerator cr vault) := by
  unfold newPasswordGenerator
  split
  · have hpolicy : Within site.Grows
        (writeVaultPasswordPolicy (cr.name ++ "." ++ cr.namespaceName ++ "-password-policy")
          buildVaultPasswordPolicy) := by
      refine Within.recover_unless (vaultWrite_grows fun v hv => ⟨{ hv with }, fun i hi => ?_⟩)
        fun _ => within_pure ()
      cases i <;> exact hi
    exact hpolicy.bind fun _ => within_pure _
  · exact within_pure _

/-- Credentials are written to their path, with the two keys that references ask for. -/
theorem processUserCredentials_grows {s : CredentialsKind} {name : String}
    (hpath : vaultSecretPath vault.path name = site.secretPath s)
    (hkeys : s.keys = ["username", "password"]) (key : String) (generator : PasswordGenerator) :
    Within site.Grows (processUserCredentials vault name key secret generator) := by
  refine (grows_of_aside (readVaultSecret_touches _ _)).bind fun found => Within.whenever ?_
  have hpassword : Within site.Grows (if secretOrVaultValue secret key found "username" = "" then
      pure "" else generator.generate) := by
    split
    · exact within_pure _
    · exact grows_of_aside (generate_touches _)
  refine hpassword.bind fun password => Within.bind (writeVaultSecret_grows hpath ?_) fun version =>
    grows_of_aside (recordSecretVersion_touches _ _)
  simp [hkeys, StringMap.ofList]

theorem processAdditionalUsersCredentials_grows {cr : ZooKeeperService}
    (generator : PasswordGenerator) :
    Within (cr.site vault).Grows (processAdditionalUsersCredentials cr vault secret generator) := by
  refine (grows_of_aside (readVaultSecret_touches _ _)).bind fun found => Within.whenever ?_
  refine Within.bind ((foldEach_within fun _ _ _ =>
    (grows_of_aside (generate_touches generator)).bind fun _ => within_pure _) _) fun users => ?_
  refine Within.bind (writeVaultSecret_grows (s := .additional) rfl ?_) fun version =>
    grows_of_aside (recordSecretVersion_touches _ _)
  simp [CredentialsKind.keys, StringMap.ofList]

end Writes

/-! ## What is there afterwards -/

section Presence

variable {site : Site} {vault : VaultSecretManagement} {secret : Secret} {α : Type}

/-- A fact about Vault in any environment, as a triple. -/
theorem triple_of_onVault {m : Op α} {V : Vault → Prop}
    (h : ∀ environment, Triple (OnVault environment fun _ => True) m
      (fun _ => OnVault environment V) fun _ _ => True) :
    Triple (fun _ => True) m (fun _ w => V w.vault) fun _ _ => True := fun w _ =>
  (h w.environment).conseq (fun _ h => h) (fun _ _ h => h.vault) (fun _ _ h => h) w ⟨rfl, trivial⟩

/-- After the step the policy is there, written or found. -/
theorem ensureVaultPolicy_has (k : PolicyKind) :
    Triple (fun _ => True) (ensureVaultPolicy (site.policyName k) (site.policyText k) secret)
      (fun _ w => site.Has w.vault (.policy k)) fun _ _ => True :=
  triple_of_onVault fun _ => ensureVaultPolicy_onVault (fun _ _ hfound => hfound)
    fun _ _ => get_insert_ne_empty (site.policyText_ne_empty k) (.inl rfl)

/-- After the step the role is there. -/
theorem ensureVaultRole_has (c : Component) (role : VaultRole) :
    Triple (fun _ => True) (ensureVaultRole (site.roleName c) role vault secret)
      (fun _ w => site.Has w.vault (.role c vault.method)) fun _ _ => True := by
  refine triple_of_onVault fun _ => ensureVaultRole_onVault (fun _ _ hfound => hfound) fun v _ => ?_
  rw [Finmap.lookup_insert]
  exact nofun

/-- After the step the secret is there. -/
theorem writeVaultSecret_has {s : CredentialsKind} {path name : String}
    (hpath : vaultSecretPath path name = site.secretPath s) (values : StringMap) :
    Triple (fun _ => True) (writeVaultSecret path name values)
      (fun _ w => site.Has w.vault (.secret s)) fun _ _ => True := by
  refine triple_of_onVault (V := fun v => site.Has v (.secret s)) fun _ =>
    writeVaultSecret_onVault fun v n _ => ?_
  rw [hpath, Site.Has, secretAt_withSecret_self]
  exact nofun

/-- A secret that is missing is written, whatever it takes to make it. -/
theorem credentials_has {s : CredentialsKind} {path name : String} {m : Option StringMap → Op Unit}
    (hpath : vaultSecretPath path name = site.secretPath s)
    (h : ∀ found, Triple (fun _ => True) (m found) (fun _ w => site.Has w.vault (.secret s))
      fun _ _ => True) :
    Triple (fun _ => True) (readVaultSecret path name >>= fun found =>
        whenever (found = none || needToRefreshCredentials secret) (m found))
      (fun _ w => site.Has w.vault (.secret s)) fun _ _ => True := by
  have hread : Triple (fun _ => True) (readVaultSecret path name)
      (fun found w => found = w.vault.secretAt (vaultSecretPath path name)) fun _ _ => True :=
    fun w _ => (readVaultSecret_onVault path name).conseq (fun _ h => h) (fun _ _ h => h.vault.2)
      (fun _ _ h => h) w (⟨rfl, trivial⟩ : OnVault w.environment (fun _ => True) w)
  rw [hpath] at hread
  refine hread.bind fun found => Triple.whenever (fun _ => ?_) fun hneed w hw => ?_
  · exact (h found).conseq (fun _ _ => trivial) (fun _ _ h => h) fun _ _ h => h
  · rw [Site.Has, ← hw]
    simp only [Bool.or_eq_false_iff, decide_eq_false_iff_not] at hneed
    exact hneed.1

/-- The end of making new credentials. -/
theorem stored_has {s : CredentialsKind} {path name : String}
    (hpath : vaultSecretPath path name = site.secretPath s) (values : StringMap) :
    Triple (fun _ => True) (writeVaultSecret path name values >>= recordSecretVersion name)
      (fun _ w => site.Has w.vault (.secret s)) fun _ _ => True := by
  refine (writeVaultSecret_has hpath values).bind fun version => ?_
  refine ((recordSecretVersion_touches (T := ∅) name version).triple fun w w' hw ht => ?_).conseq
    (fun _ h => h) (fun _ _ h => h) fun _ _ _ => trivial
  have hvault : w'.vault = w.vault := ht.same .vault (Set.notMem_empty _)
  rw [hvault]
  exact hw

theorem triple_trivial (m : Op α) : Triple (fun _ => True) m (fun _ _ => True) fun _ _ => True := by
  intro w _
  rcases m w with ⟨a, w'⟩ | ⟨e, w'⟩ <;> trivial

/-- After the step the credentials are there, written or found. -/
theorem processUserCredentials_has {s : CredentialsKind} {name : String}
    (hpath : vaultSecretPath vault.path name = site.secretPath s) (key : String)
    (generator : PasswordGenerator) :
    Triple (fun _ => True) (processUserCredentials vault name key secret generator)
      (fun _ w => site.Has w.vault (.secret s)) fun _ _ => True :=
  credentials_has hpath fun _ => (triple_trivial _).bind fun _ => stored_has hpath _

theorem processAdditionalUsersCredentials_has {cr : ZooKeeperService}
    (generator : PasswordGenerator) :
    Triple (fun _ => True) (processAdditionalUsersCredentials cr vault secret generator)
      (fun _ w => (cr.site vault).Has w.vault (.secret .additional)) fun _ _ => True :=
  credentials_has rfl fun _ => (triple_trivial _).bind fun _ => stored_has rfl _

end Presence

/-! ## The invariant -/

section Kept

variable {site : Site} {items items' : List Item} {w w' : World} {α : Type}

/-- What Vault has belongs there; all Deployments find there what they need; and when the hash of
a section with servers is remembered, the servers have brought their part. -/
structure Site.Kept (site : Site) (w : World) : Prop where
  follows : site.Follows w.vault
  stored : ∀ n d, w.get? .deployment n = some d → site.Served w.vault d
  rollouts : ∀ r ∈ w.rollouts, site.Served w.vault r.after
  servers : ∀ spec, recordedHash w = some (.zooKeeper spec) → 0 < spec.replicas →
    ∀ i ∈ serverItems, site.Has w.vault i

/-- The invariant, with some items in Vault. -/
structure Site.With (site : Site) (items : List Item) (w : World) : Prop where
  kept : site.Kept w
  has : ∀ i ∈ items, site.Has w.vault i

/-- A Deployment that is served stays so while Vault gains. -/
theorem Site.Served.mono {v v' : Vault} {d : Deployment} (h : site.Served v d)
    (hv : ∀ i, site.Has v i → site.Has v' i) : site.Served v' d := by
  obtain ⟨c, method, hsuits, hhas⟩ := h
  exact ⟨c, method, hsuits, fun i hi => hv i (hhas i hi)⟩

/-- **The invariant is kept by every step that keeps everything.** -/
theorem Site.Kept.grows (h : site.Kept w) (hw : site.Grows w w') : site.Kept w' where
  follows := (hw.vault h.follows).1
  stored n d hd := (h.stored n d (hw.deployments n ▸ hd)).mono (hw.vault h.follows).2
  rollouts r hr := (h.rollouts r (hw.rollouts ▸ hr)).mono (hw.vault h.follows).2
  servers spec hspec hreplicas i hi :=
    (hw.vault h.follows).2 i (h.servers spec (hw.servers ▸ hspec) hreplicas i hi)

/-- And so are the items that Vault has. -/
theorem Site.With.grows (h : site.With items w) (hw : site.Grows w w') : site.With items w' :=
  ⟨h.kept.grows hw, fun i hi => (hw.vault h.kept.follows).2 i (h.has i hi)⟩

theorem Site.With.mono (h : site.With items w) (hitems : items' ⊆ items) : site.With items' w :=
  ⟨h.kept, fun i hi => h.has i (hitems hi)⟩

/-- A step that keeps everything. -/
theorem grows_triple {m : Op α} (h : Within site.Grows m) :
    Triple (site.With items) m (fun _ => site.With items) fun _ => site.Kept :=
  (h.triple fun _ _ hw hg => Site.With.grows hw hg).conseq (fun _ h => h) (fun _ _ h => h)
    fun _ _ hw => hw.kept

/-- A step that keeps everything, and puts something into Vault. -/
theorem grows_triple_cons {m : Op α} {i : Item} (h : Within site.Grows m)
    (hi : Triple (fun _ => True) m (fun _ w => site.Has w.vault i) fun _ _ => True) :
    Triple (site.With items) m (fun _ => site.With (i :: items)) fun _ => site.Kept :=
  ((grows_triple h).and hi).conseq (fun _ hw => ⟨hw, trivial⟩)
    (fun _ _ hw => ⟨hw.1.kept, List.forall_mem_cons.mpr ⟨hw.2, hw.1.has⟩⟩) fun _ _ hw => hw.1

/-- Requests that come to nothing keep it. -/
theorem stable_with : Stable (site.With items) := fun _ _ ht hw =>
  hw.grows (grows_of_touches ht.of_empty)

/-- A Deployment is stored whose pods find what they need. -/
theorem Site.With.store {d : Deployment} (h : site.With items w) (hd : site.Served w.vault d) :
    site.With items (w.store .deployment d) where
  has := h.has
  kept :=
    { h.kept with
      stored := fun n d' hd' => by
        by_cases hn : n = d.metadata.name
        · subst hn
          rw [show d.metadata.name = Kind.name .deployment d from rfl, World.get?_store_self] at hd'
          cases hd'
          exact hd
        · rw [World.get?_store_of_ne w (.inr hn)] at hd'
          exact h.kept.stored n d' hd'
      rollouts := List.forall_mem_cons.mpr ⟨hd, h.kept.rollouts⟩ }

/-- Another version of a stored Deployment, with the same pods. -/
theorem Site.With.restore {n : String} {d d' : Deployment} (h : site.With items w)
    (hd : w.get? .deployment n = some d) (hpods : d'.podSpec = d.podSpec) :
    site.With items (w.store .deployment d') := by
  obtain ⟨c, method, hsuits, hhas⟩ := h.kept.stored n d hd
  exact h.store ⟨c, method, hpods ▸ hsuits, hhas⟩

/-- A Deployment that was served is still served with other replicas. -/
theorem scaleDeployment_with (name : String) (replicas : ℤ) :
    Triple (site.With items) (scaleDeployment name replicas) (fun _ => site.With items)
      fun _ => site.With items := by
  refine retryOnConflict_triple ?_ _
  refine (clientGet_triple stable_with .deployment name).bind fun found => ?_
  refine Triple.bind (Q := fun _ => site.With items) ?_ fun _ => triple_pure fun _ hw => hw
  refine clientUpdate_triple (fun w w' ht hw => ?_) (fun _ _ hw _ _ => hw.1)
    (fun w _ hw _ => hw.1.restore hw.2 rfl) (fun _ hw => hw.1) fun _ _ hw => hw
  exact ⟨stable_with w w' ht hw.1, (ht.get? (Set.notMem_empty _)).trans hw.2⟩

/-- Marks do not change what a Deployment refers to. -/
theorem updateDeploymentSecretRestartAnnotations_with (name : String)
    (secrets : List (Option Secret)) :
    Triple (site.With items) (updateDeploymentSecretRestartAnnotations name secrets)
      (fun _ => site.With items) fun _ => site.Kept :=
  (triple_of_keeps (updateDeploymentSecretRestartAnnotations_keeps stable_with
    fun _ _ hw hd => hw.restore hd rfl)).conseq (fun _ h => h) (fun _ _ h => h)
      fun _ _ hw => hw.kept

/-- **A Deployment is submitted** when Vault has what its pods need. -/
theorem applyDeployment_with {c : Component} {method : String} (cr : ZooKeeperService)
    {deployment : Except Panic Deployment} (secrets : List (Option Secret))
    (hsuits : ∀ d, deployment = .ok d →
      ∀ container ∈ d.podSpec.containers, site.Suits c method container.env)
    (hneeds : needs c method ⊆ items) :
    Triple (site.With items) (applyDeployment cr deployment secrets) (fun _ => site.With items)
      fun _ => site.Kept := by
  have hkeeps : Within (Keeps (site.With items)) (applyDeployment cr deployment secrets) := by
    refine (within_lift _).bind_yields (build_yields hsuits) fun d hd => ?_
    refine (within_lift _).bind fun m => createOrUpdateDeployment_within stable_with fun w hw => ?_
    exact hw.store ⟨c, method, hd, fun i hi => hw.has i (hneeds hi)⟩
  exact (triple_of_keeps hkeeps).conseq (fun _ h => h) (fun _ _ h => h) fun _ _ hw => hw.kept

end Kept

/-! ## Passes -/

section Steps

variable {site : Site} {items : List Item}

theorem cleanSecret_grows (c : Component) (secret : Secret) :
    Within site.Grows (cleanSecret c secret) :=
  grows_of_aside (cleanSecret_touches c fun _ =>
    ⟨(writes_secret _).1, ⟨nofun, nofun, nofun, nofun⟩⟩)

theorem watchOwnSecret_grows (n : String) (cr : ZooKeeperService) :
    Within site.Grows (watchOwnSecret n cr) :=
  grows_of_aside (watchOwnSecret_writes cr (writes_secret n))

theorem watchOtherSecret_grows (n : Option String) (cr : ZooKeeperService) :
    Within site.Grows (watchOtherSecret n cr) :=
  grows_of_aside (watchOtherSecret_writes cr fun n _ => writes_secret n)

theorem testChanged_grows (c : Component) (digest : Digest) (secrets : List (Option Secret)) :
    Within site.Grows (testChanged c digest secrets) :=
  fun _ => ⟨fun _ => rfl, rfl, rfl, fun hv => ⟨hv, fun _ hi => hi⟩⟩

theorem createServiceAccount_grows (account : ServiceAccount) :
    Within site.Grows (createServiceAccount account) :=
  grows_of_objects (createServiceAccount_touches ⟨trivial, nofun⟩)

/-- Remembering another section than that of the servers. -/
theorem remember_grows {c : Component} (hc : hashName c ≠ hashName .zooKeeper) (digest : Digest)
    (secrets : List (Option Secret)) : Within site.Grows (remember c digest secrets) :=
  fun _ => ⟨fun _ => rfl, rfl, Finmap.lookup_insert_of_ne _ hc.symm, fun hv => ⟨hv, fun _ hi => hi⟩⟩

end Steps

/-- Vault is on, with policies written by the operator, under names that belong to a path. -/
structure ZooKeeperService.UsesVault (cr : ZooKeeperService) (vault : VaultSecretManagement) :
    Prop where
  on : cr.vault? = some vault
  writePolicies : vault.writePolicies = true
  proper : (cr.site vault).Proper

namespace ZooKeeperResourceProvider

variable {p : ZooKeeperResourceProvider} {vault : VaultSecretManagement} {items : List Item}

/-- The policies and the role of ZooKeeper, in terms of the site. -/
theorem writePolicies_eq (p : ZooKeeperResourceProvider) (vault : VaultSecretManagement)
    (secret : Secret) :
    p.writePolicies vault secret = (do
      ensureVaultPolicy ((p.cr.site vault).policyName .admin) ((p.cr.site vault).policyText .admin)
        secret
      ensureVaultRole ((p.cr.site vault).roleName .zooKeeper)
        (buildVaultRole p.getServiceAccountName p.cr ((p.cr.site vault).rolePolicies .zooKeeper))
        vault secret
      ensureVaultPolicy ((p.cr.site vault).policyName .client)
        ((p.cr.site vault).policyText .client) secret) :=
  rfl

/-- They bring what the servers log in with. -/
theorem writePolicies_with (h : p.cr.UsesVault vault) (secret : Secret) :
    Triple ((p.cr.site vault).With items) (p.writePolicies vault secret)
      (fun _ => (p.cr.site vault).With
        (.policy .client :: .role .zooKeeper vault.method :: .policy .admin :: items))
      fun _ => (p.cr.site vault).Kept := by
  rw [writePolicies_eq]
  refine (grows_triple_cons (ensureVaultPolicy_grows .admin) (ensureVaultPolicy_has .admin)).bind
    fun _ => ?_
  refine (grows_triple_cons (ensureVaultRole_grows h.proper .zooKeeper rfl)
    (ensureVaultRole_has .zooKeeper _)).bind fun _ => ?_
  exact grows_triple_cons (ensureVaultPolicy_grows .client) (ensureVaultPolicy_has .client)

/-- The credentials step brings what the servers need, and what the others need of them. -/
theorem applyVault_with (h : p.cr.UsesVault vault) (secret : Secret) :
    Triple ((p.cr.site vault).With items) (p.applyVault secret)
      (fun _ => (p.cr.site vault).With (needs .zooKeeper vault.method ++ (serverItems ++ items)))
      fun _ => (p.cr.site vault).Kept := by
  have hstatus : Within (p.cr.site vault).Grows (update fun w : World => { w with
      status := { w.status with
        secretVersions := some (w.status.secretVersions.getD ∅) } } : Op Unit) :=
    fun _ => ⟨fun _ => rfl, rfl, rfl, fun hv => ⟨hv, fun _ hi => hi⟩⟩
  rw [applyVault, h.on, Option.elim_some, processVaultSecrets, h.writePolicies, whenever_true]
  refine (grows_triple hstatus).bind fun _ => ?_
  refine (writePolicies_with h secret).bind fun _ => ?_
  refine (grows_triple (newPasswordGenerator_grows p.cr)).bind fun generator => ?_
  refine (grows_triple_cons (processUserCredentials_grows (s := .admin) rfl rfl _ _)
    (processUserCredentials_has (s := .admin) rfl _ _)).bind fun _ => ?_
  refine (grows_triple_cons (processUserCredentials_grows (s := .client) rfl rfl _ _)
    (processUserCredentials_has (s := .client) rfl _ _)).bind fun _ => ?_
  refine (grows_triple_cons (processAdditionalUsersCredentials_grows generator)
    (processAdditionalUsersCredentials_has generator)).bind fun _ => ?_
  refine (grows_triple (cleanSecret_grows .zooKeeper secret)).conseq (fun _ hw => hw)
    (fun _ _ hw => hw.mono ?_) fun _ _ hw => hw
  intro i hi
  simp only [needs, serverItems, policiesOf, credentialsOf, List.map_cons, List.map_nil,
    List.mem_append, List.mem_cons, List.not_mem_nil] at hi ⊢
  tauto

/-- The environment of a server refers to what the site has for servers. -/
theorem suits_newServerDeploymentForCR (h : p.cr.UsesVault vault) (hmodest : p.Modest) {i : ℕ}
    {d : Deployment} (hd : p.newServerDeploymentForCR i = .ok d) :
    ∀ container ∈ d.podSpec.containers,
      (p.cr.site vault).Suits .zooKeeper vault.method container.env := by
  obtain ⟨global, -, hd⟩ := except_bind_ok_inv hd
  obtain ⟨affinity, -, hd⟩ := except_bind_ok_inv hd
  cases hd
  exact List.forall_mem_singleton.mpr (p.suits_serverContainer h.on h.proper hmodest global i)

/-- One round of the loop over the servers. -/
theorem applyServer_with (h : p.cr.UsesVault vault) (hmodest : p.Modest) (rolling : Bool)
    (secret : Secret) (i : ℕ) :
    Triple ((p.cr.site vault).With items) (p.applyServer rolling secret i)
      (fun _ => (p.cr.site vault).With (serverItems ++ items)) fun _ => (p.cr.site vault).Kept := by
  refine (grows_triple (grows_of_objects (applyService_touches _ _))).bind fun _ => ?_
  refine (grows_triple (grows_of_objects (build_touches _))).bind fun claim => ?_
  refine (grows_triple (grows_of_objects (applyClaim_touches rfl claim))).bind fun _ => ?_
  refine (grows_triple (createServiceAccount_grows _)).bind fun _ => ?_
  refine (applyVault_with h secret).bind fun secret => ?_
  refine (applyDeployment_with p.cr _ (fun d hd => suits_newServerDeploymentForCR h hmodest hd)
    (List.subset_append_left _ _)).bind fun _ => ?_
  exact (grows_triple (grows_of_objects (p.awaitServer_touches rolling i))).bind fun _ =>
    triple_pure fun _ hw => hw.mono (List.subset_append_right _ _)

/-- The downscale submits nothing that refers to more. -/
theorem scaleDown_with (currentReplicas : ℕ) :
    Triple ((p.cr.site vault).With items) (p.scaleDown currentReplicas)
      (fun _ => (p.cr.site vault).With items) fun _ => (p.cr.site vault).Kept :=
  (forEach_triple (I := fun _ => (p.cr.site vault).With items) fun _ _ _ _ =>
    scaleDeployment_with _ _).conseq (fun _ hw => hw) (fun _ _ hw => hw) fun _ _ hw => hw.kept

/-- The loop over the servers: from the first one on, Vault has the servers' part. -/
theorem applyServers_with (h : p.cr.UsesVault vault) (hmodest : p.Modest)
    (hreplicas : 0 < p.spec.replicas) (secret : Secret) :
    Triple ((p.cr.site vault).With items) (p.applyServers secret)
      (fun _ => (p.cr.site vault).With (serverItems ++ items)) fun _ => (p.cr.site vault).Kept := by
  have hclaim : Within (p.cr.site vault).Grows (whenever p.hasSnapshotsClaim
      (applySnapshotsClaim p.spec.snapshotStorage p.cr)) :=
    (grows_of_objects (applySnapshotsClaim_touches rfl _ _)).whenever
  refine (grows_triple hclaim).bind fun _ => ?_
  refine (grows_triple (grows_of_objects (applyService_touches _ _))).bind fun _ => ?_
  refine (grows_triple (grows_of_objects (applyService_touches _ _))).bind fun _ => ?_
  refine (grows_triple (grows_of_objects p.getCurrentDeploymentsCount_touches)).bind fun n => ?_
  refine (scaleDown_with n).bind fun _ => ?_
  refine (foldEach_triple (I := fun done _ => (p.cr.site vault).With
    (if done = [] then items else serverItems ++ items))
    (fun done i rest secret _ => ?_) secret).conseq
    (fun _ hw => hw) (fun _ _ hw => ?_) fun _ _ hw => hw
  · have hitems : items ⊆ if done = [] then items else serverItems ++ items := by
      split
      · exact List.Subset.refl _
      · exact List.subset_append_right _ _
    refine (applyServer_with h hmodest _ secret i).conseq (fun _ hw => hw.mono hitems)
      (fun _ _ hw => ?_) fun _ _ hw => hw
    simpa using hw
  · rwa [if_neg (serverIds_ne_nil hreplicas)] at hw

/-- What a pass over the servers leaves in Vault. -/
def readyItems (p : ZooKeeperResourceProvider) : List Item :=
  if 0 < p.spec.replicas then serverItems else []

/-- The apply branch of ZooKeeper brings what the servers need, and what the others need of them. -/
theorem apply_with (h : p.cr.UsesVault vault) (hmodest : p.Modest) (secret : Secret) :
    Triple ((p.cr.site vault).With items) (p.apply secret)
      (fun _ => (p.cr.site vault).With (p.readyItems ++ items)) fun _ =>
        (p.cr.site vault).Kept := by
  refine Triple.bind (Q := fun _ => (p.cr.site vault).With (p.readyItems ++ items)) ?_ fun secret =>
    (grows_triple (grows_of_objects p.updateZooKeeperStatus_touches)).bind fun _ =>
      triple_pure fun _ hw => hw
  by_cases hreplicas : 0 < p.spec.replicas
  · rw [if_pos hreplicas, readyItems, if_pos hreplicas]
    exact applyServers_with h hmodest hreplicas secret
  · rw [if_neg hreplicas, readyItems, if_neg hreplicas]
    exact triple_pure fun _ hw => hw

/-- **The pass over the servers.** When nothing has changed, the remembered hash stands for what
is in Vault. -/
theorem reconcile_with (h : p.cr.UsesVault vault) (hmodest : p.Modest) :
    Triple ((p.cr.site vault).With items) p.reconcile
      (fun _ => (p.cr.site vault).With (p.readyItems ++ items))
      fun _ => (p.cr.site vault).Kept := by
  refine Triple.bind (Q := fun _ => (p.cr.site vault).With (p.readyItems ++ items)) ?_
    fun secret => ?_
  · refine (grows_triple (watchOwnSecret_grows _ _)).bind fun secret => ?_
    have htest : Triple ((p.cr.site vault).With items)
        (testChanged .zooKeeper (.zooKeeper p.spec) [some secret])
        (fun isChanged w => (p.cr.site vault).With items w ∧
          (isChanged = false → recordedHash w = some (.zooKeeper p.spec)))
        fun _ => (p.cr.site vault).Kept := fun w hw =>
      ⟨hw.grows (testChanged_grows _ _ _ w), fun hfalse => p.recordedHash_of_not_changed hfalse⟩
    refine htest.bind fun isChanged => ?_
    refine Triple.bind (Q := fun _ => (p.cr.site vault).With (p.readyItems ++ items)) ?_
      fun secret => ?_
    · cases isChanged with
      | true =>
        exact (apply_with h hmodest secret).conseq (fun _ hw => hw.1) (fun _ _ hw => hw)
          fun _ _ hw => hw
      | false =>
        refine triple_pure fun w hw => ⟨hw.1.kept, ?_⟩
        by_cases hreplicas : 0 < p.spec.replicas
        · rw [readyItems, if_pos hreplicas]
          exact List.forall_mem_append.mpr
            ⟨hw.1.kept.servers p.spec (hw.2 rfl) hreplicas, hw.1.has⟩
        · rw [readyItems, if_neg hreplicas]
          exact hw.1.has
    · refine Triple.bind (Q := fun _ => (p.cr.site vault).With (p.readyItems ++ items)) ?_ fun _ =>
        triple_pure fun _ hw => hw
      refine (forEach_triple (I := fun _ => (p.cr.site vault).With (p.readyItems ++ items))
        (E := fun _ => (p.cr.site vault).Kept) fun _ _ _ _ => ?_)
      exact updateDeploymentSecretRestartAnnotations_with _ _
  · -- from now on the hash stands for what is in Vault
    refine triple_update fun w hw =>
      ⟨{ hw.kept with servers := fun spec hspec hreplicas => ?_ }, hw.has⟩
    have hspec : some (Digest.zooKeeper p.spec) = some (.zooKeeper spec) :=
      (Finmap.lookup_insert _).symm.trans hspec
    cases hspec
    have hhas := (List.forall_mem_append.mp hw.has).1
    rwa [readyItems, if_pos hreplicas] at hhas

end ZooKeeperResourceProvider

namespace MonitoringResourceProvider

variable {p : MonitoringResourceProvider} {vault : VaultSecretManagement}

theorem writePolicies_eq (p : MonitoringResourceProvider) (vault : VaultSecretManagement)
    (secret : Secret) :
    p.writePolicies vault secret = (do
      ensureVaultPolicy ((p.cr.site vault).policyName .monitoring)
        ((p.cr.site vault).policyText .monitoring) secret
      ensureVaultRole ((p.cr.site vault).roleName .monitoring)
        (buildVaultRole p.getServiceAccountName p.cr ((p.cr.site vault).rolePolicies .monitoring))
        vault secret) :=
  rfl

/-- The credentials step brings the role; the secret and its policy are the servers'. -/
theorem applyVault_with (h : p.cr.UsesVault vault) (secret : Secret) :
    Triple ((p.cr.site vault).With serverItems) (p.applyVault secret)
      (fun _ => (p.cr.site vault).With (.role .monitoring vault.method :: serverItems))
      fun _ => (p.cr.site vault).Kept := by
  rw [applyVault, h.on, Option.elim_some, processVaultSecrets, h.writePolicies, whenever_true,
    writePolicies_eq]
  refine Triple.bind ?_ fun _ => grows_triple (cleanSecret_grows .monitoring secret)
  refine (grows_triple (ensureVaultPolicy_grows .monitoring)).bind fun _ => ?_
  exact grows_triple_cons (ensureVaultRole_grows h.proper .monitoring rfl)
    (ensureVaultRole_has .monitoring _)

/-- The environment of the agent refers to the client's credentials. -/
theorem suits_newMonitoringDeployment (h : p.cr.UsesVault vault) {d : Deployment}
    (hd : p.newMonitoringDeployment = .ok d) : ∀ container ∈ d.podSpec.containers,
      (p.cr.site vault).Suits .monitoring vault.method container.env := by
  obtain ⟨global, -, hd⟩ := except_bind_ok_inv hd
  cases hd
  exact List.forall_mem_singleton.mpr (p.suits_container h.on h.proper global)

/-- The apply branch of Monitoring needs the part of the servers in Vault. -/
theorem apply_with (h : p.cr.UsesVault vault) (secret : Secret)
    (backupDaemonSecret : Option Secret) :
    Triple ((p.cr.site vault).With serverItems) (p.apply secret backupDaemonSecret)
      (fun _ => (p.cr.site vault).With serverItems) fun _ => (p.cr.site vault).Kept := by
  refine (grows_triple (grows_of_objects (applyService_touches _ _))).bind fun _ => ?_
  refine (grows_triple (createServiceAccount_grows _)).bind fun _ => ?_
  refine (applyVault_with h secret).bind fun secret => ?_
  refine (applyDeployment_with p.cr _ (fun d hd => suits_newMonitoringDeployment h hd) ?_).bind
    fun _ => ?_
  · simp [needs, serverItems, policiesOf, credentialsOf]
  · exact (grows_triple (grows_of_objects p.updateMonitoringStatus_touches)).bind fun _ =>
      triple_pure fun _ hw => hw.mono (List.subset_cons_self _ _)

/-- **The pass of the agent** needs the servers' part. -/
theorem reconcile_with (h : p.cr.UsesVault vault) :
    Triple ((p.cr.site vault).With serverItems) p.reconcile
      (fun _ => (p.cr.site vault).With serverItems) fun _ => (p.cr.site vault).Kept := by
  refine (grows_triple (watchOwnSecret_grows _ _)).bind fun secret => ?_
  refine (grows_triple (watchOtherSecret_grows _ _)).bind fun backupDaemonSecret => ?_
  refine (grows_triple (testChanged_grows _ _ _)).bind fun isChanged => ?_
  refine Triple.bind (Q := fun _ => (p.cr.site vault).With serverItems) ?_ fun secret =>
    (updateDeploymentSecretRestartAnnotations_with _ _).bind fun _ =>
      grows_triple (remember_grows (by decide) _ _)
  cases isChanged with
  | true => exact apply_with h secret backupDaemonSecret
  | false => exact triple_pure fun _ hw => hw

end MonitoringResourceProvider

namespace BackupDaemonResourceProvider

variable {p : BackupDaemonResourceProvider} {vault : VaultSecretManagement}

theorem writePolicies_eq (p : BackupDaemonResourceProvider) (vault : VaultSecretManagement)
    (secret : Secret) :
    p.writePolicies vault secret = (do
      ensureVaultPolicy ((p.cr.site vault).policyName .backupDaemon)
        ((p.cr.site vault).policyText .backupDaemon) secret
      ensureVaultRole ((p.cr.site vault).roleName .backupDaemon)
        (buildVaultRole p.getServiceAccountName p.cr ((p.cr.site vault).rolePolicies .backupDaemon))
        vault secret) :=
  rfl

/-- The credentials step brings the daemon's own part; the administrator's is the servers'. -/
theorem applyVault_with (h : p.cr.UsesVault vault) (secret : Secret) :
    Triple ((p.cr.site vault).With serverItems) (p.applyVault secret)
      (fun _ => (p.cr.site vault).With (.secret .daemon :: .role .backupDaemon vault.method ::
        .policy .backupDaemon :: serverItems))
      fun _ => (p.cr.site vault).Kept := by
  rw [applyVault, h.on, Option.elim_some, processVaultSecrets, h.writePolicies, whenever_true,
    writePolicies_eq]
  refine Triple.bind (Triple.bind
    (grows_triple_cons (ensureVaultPolicy_grows .backupDaemon)
    (ensureVaultPolicy_has .backupDaemon))
    fun _ => grows_triple_cons (ensureVaultRole_grows h.proper .backupDaemon rfl)
      (ensureVaultRole_has .backupDaemon _)) fun _ => ?_
  refine (grows_triple (newPasswordGenerator_grows p.cr)).bind fun generator => ?_
  refine (grows_triple_cons (processUserCredentials_grows (s := .daemon) rfl rfl _ _)
    (processUserCredentials_has (s := .daemon) rfl _ _)).bind fun _ => ?_
  exact grows_triple (cleanSecret_grows .backupDaemon secret)

/-- The environment of the daemon refers to its own credentials and to the administrator's. -/
theorem suits_newBackupDaemonDeployment (h : p.cr.UsesVault vault) {aliases : Bool} {d : Deployment}
    (hd : p.newBackupDaemonDeployment aliases = .ok d) : ∀ container ∈ d.podSpec.containers,
      (p.cr.site vault).Suits .backupDaemon vault.method container.env := by
  obtain ⟨global, -, hd⟩ := except_bind_ok_inv hd
  cases hd
  exact List.forall_mem_singleton.mpr (p.suits_container h.on h.proper global aliases)

/-- The apply branch of the daemon needs the part of the servers as well. -/
theorem apply_with (h : p.cr.UsesVault vault) (secret : Secret)
    (s3Secret s3AliasesSecret : Option Secret) :
    Triple ((p.cr.site vault).With serverItems) (p.apply secret s3Secret s3AliasesSecret)
      (fun _ => (p.cr.site vault).With serverItems) fun _ => (p.cr.site vault).Kept := by
  have hclaim : Within (p.cr.site vault).Grows
      (whenever (p.spec.backupStorage.persistentVolumeType ≠ "")
        (applySnapshotsClaim p.spec.backupStorage p.cr)) :=
    (grows_of_objects (applySnapshotsClaim_touches rfl _ _)).whenever
  refine (grows_triple hclaim).bind fun _ => ?_
  refine (grows_triple (grows_of_objects (applyService_touches _ _))).bind fun _ => ?_
  refine (grows_triple (createServiceAccount_grows _)).bind fun _ => ?_
  refine (applyVault_with h secret).bind fun secret => ?_
  refine (applyDeployment_with p.cr _ (fun d hd => suits_newBackupDaemonDeployment h hd) ?_).bind
    fun _ => ?_
  · simp [needs, serverItems, policiesOf, credentialsOf]
  · refine (grows_triple (grows_of_objects p.updateBackupDaemonStatus_touches)).bind fun _ =>
      triple_pure fun _ hw => hw.mono ?_
    exact List.subset_cons_of_subset _ (List.subset_cons_of_subset _ (List.subset_cons_self _ _))

/-- **The pass of the daemon** needs the servers' part. -/
theorem reconcile_with (h : p.cr.UsesVault vault) :
    Triple ((p.cr.site vault).With serverItems) p.reconcile
      (fun _ => (p.cr.site vault).With serverItems) fun _ => (p.cr.site vault).Kept := by
  refine (grows_triple (watchOwnSecret_grows _ _)).bind fun secret => ?_
  refine (grows_triple (watchOtherSecret_grows _ _)).bind fun s3Secret => ?_
  refine (grows_triple (grows_of_aside p.findS3Aliases_touches)).bind fun s3AliasesSecret => ?_
  refine (grows_triple (testChanged_grows _ _ _)).bind fun isChanged => ?_
  refine Triple.bind (Q := fun _ => (p.cr.site vault).With serverItems) ?_ fun secret =>
    (updateDeploymentSecretRestartAnnotations_with _ _).bind fun _ =>
      grows_triple (remember_grows (by decide) _ _)
  cases isChanged with
  | true => exact apply_with h secret s3Secret s3AliasesSecret
  | false => exact triple_pure fun _ hw => hw

end BackupDaemonResourceProvider

/-! ## Calls -/

section Call

variable {cr : ZooKeeperService} {vault : VaultSecretManagement}

/-- Whoever needs the servers' part of Vault finds it there, or there are servers to bring it. -/
def ZooKeeperService.Attended (cr : ZooKeeperService) (vault : VaultSecretManagement) (w : World) :
    Prop :=
  cr.spec.monitoring = none ∧ cr.spec.backupDaemon = none ∨
    (∃ spec, cr.spec.zooKeeper = some spec ∧ 0 < spec.replicas) ∨
      ∀ i ∈ serverItems, (cr.site vault).Has w.vault i

/-- What holds in a call after some of the passes: the servers' part is in Vault if it was there
from the beginning, or if the servers have had their pass. -/
def Site.Passed (site : Site) (ready : Prop) (done : List Reconciler) (w : World) : Prop :=
  site.Kept w ∧ ((ready ∨ ∃ p, Reconciler.zooKeeper p ∈ done ∧ 0 < p.spec.replicas) →
    ∀ i ∈ serverItems, site.Has w.vault i)

/-- What such steps keep is about the passes only: the rest of the call keeps it too. -/
theorem aboutPasses_of_grows {site : Site} {P : World → Prop}
    (hP : ∀ w w', P w → site.Grows w w' → P w') : AboutPasses P := by
  refine fun w w' hw ht => hP w w' hw (grows_of_touches (ht.mono fun f hf => ?_))
  rcases hf with (rfl | rfl | rfl | rfl) | rfl | rfl | rfl
  all_goals refine ⟨nofun, nofun, ?_, nofun⟩
  all_goals decide

/-- Once the pass of the servers is over, their part is in Vault. -/
theorem Site.Passed.with {site : Site} {ready : Prop} {done : List Reconciler} {w : World}
    (h : site.Passed ready done w)
    (hdone : ready ∨ ∃ p, Reconciler.zooKeeper p ∈ done ∧ 0 < p.spec.replicas) :
    site.With serverItems w :=
  ⟨h.1, h.2 hdone⟩

/-- A custom resource has one reconciler of servers. -/
theorem zooKeeper_unique {p q : ZooKeeperResourceProvider}
    (h : Reconciler.zooKeeper q ∈ buildReconcilers p.cr) : q = p := by
  rcases mem_buildReconcilers h with ⟨q', hcr, hq⟩ | ⟨_, -, hq⟩ | ⟨_, -, hq⟩ | ⟨_, hq⟩ <;> cases hq
  exact Option.some.inj ((zooKeeperProvider?_eq q).symm.trans ((congrArg _ hcr).trans
    (zooKeeperProvider?_eq p)))

/-- The pass of a component, as part of a call. -/
theorem Reconciler.reconcile_passed {done rest : List Reconciler} {r : Reconciler} {ready : Prop}
    (h : cr.UsesVault vault) (hmodest : ∀ p : ZooKeeperResourceProvider, p.cr = cr → p.Modest)
    (hattended : cr.spec.monitoring = none ∧ cr.spec.backupDaemon = none ∨
      (∃ spec, cr.spec.zooKeeper = some spec ∧ 0 < spec.replicas) ∨ ready)
    (hlist : buildReconcilers cr = done ++ r :: rest) :
    Triple ((cr.site vault).Passed ready done) r.reconcile
      (fun _ => (cr.site vault).Passed ready (done ++ [r])) fun _ => (cr.site vault).Kept := by
  have hothers (hne : ∀ p : ZooKeeperResourceProvider, r ≠ .zooKeeper p)
      (hneeds : ¬ (cr.spec.monitoring = none ∧ cr.spec.backupDaemon = none)) :
      ready ∨ ∃ p, Reconciler.zooKeeper p ∈ done ∧ 0 < p.spec.replicas := by
    rcases hattended.resolve_left hneeds with ⟨spec, hspec, hreplicas⟩ | hready
    · -- the pass over the servers comes first
      have hfirst := buildReconcilers_eq ⟨cr, spec, hspec⟩
      rw [hlist] at hfirst
      cases done with
      | nil => exact absurd (List.cons.inj hfirst).1 (hne _)
      | cons first done =>
        obtain rfl := (List.cons.inj hfirst).1
        exact .inr ⟨_, List.mem_cons_self, hreplicas⟩
    · exact .inl hready
  rcases mem_buildReconcilers (hlist ▸ List.mem_append_cons_self) with
    ⟨p, rfl, rfl⟩ | ⟨p, rfl, rfl⟩ | ⟨p, rfl, rfl⟩ | ⟨tests, rfl⟩
  · by_cases hready : ready
    · refine (p.reconcile_with h (hmodest p rfl)).conseq (fun _ hw => hw.with (.inl hready))
        (fun _ _ hw => ⟨hw.kept, fun _ => (List.forall_mem_append.mp hw.has).2⟩) fun _ _ hw => hw
    · refine (p.reconcile_with h (hmodest p rfl)).conseq
        (fun _ hw => (⟨hw.1, nofun⟩ : Site.With _ [] _))
        (fun _ _ hw => ⟨hw.kept, fun hdone => ?_⟩) fun _ _ hw => hw
      obtain ⟨q, hq, hreplicas⟩ := hdone.resolve_left hready
      have hmem : Reconciler.zooKeeper q ∈ buildReconcilers p.cr := by
        rw [hlist, List.append_cons]
        exact List.mem_append_left _ hq
      obtain rfl := zooKeeper_unique hmem
      have hhas := hw.has
      rwa [ZooKeeperResourceProvider.readyItems, if_pos hreplicas, List.append_nil] at hhas
  · have hready := hothers (by simp) fun hnone => nomatch hnone.1.symm.trans p.spec_eq
    exact (p.reconcile_with h).conseq (fun _ hw => hw.with hready)
      (fun _ _ hw => ⟨hw.kept, fun _ => hw.has⟩)
      fun _ _ hw => hw
  · have hready := hothers (by simp) fun hnone => nomatch hnone.2.symm.trans p.spec_eq
    exact (p.reconcile_with h).conseq (fun _ hw => hw.with hready)
      (fun _ _ hw => ⟨hw.kept, fun _ => hw.has⟩)
      fun _ _ hw => hw
  · refine triple_pure fun w hw => ⟨hw.1, fun hdone => hw.2 (hdone.imp_right ?_)⟩
    rintro ⟨p, hp, hreplicas⟩
    exact ⟨p, by simpa using hp, hreplicas⟩

/-- **A call keeps the invariant**, whatever fails. -/
theorem reconcile_kept (h : cr.UsesVault vault)
    (hmodest : ∀ p : ZooKeeperResourceProvider, p.cr = cr → p.Modest) :
    Triple (fun w => w.cr = some cr ∧ (cr.site vault).Kept w ∧ cr.Attended vault w) reconcile
      (fun _ => (cr.site vault).Kept) fun _ => (cr.site vault).Kept := by
  rintro w ⟨hcr, hkept, hattended⟩
  have hgrows (done : List Reconciler) :
      ∀ w' w'', (cr.site vault).Passed (∀ i ∈ serverItems, (cr.site vault).Has w.vault i) done w' →
        (cr.site vault).Grows w' w'' →
        (cr.site vault).Passed (∀ i ∈ serverItems, (cr.site vault).Has w.vault i) done w'' :=
    fun w' w'' hw hg => ⟨hw.1.grows hg, fun hdone i hi =>
      (hg.vault hw.1.follows).2 i (hw.2 hdone i hi)⟩
  have hrule := reconcile_triple (fun done => aboutPasses_of_grows (hgrows done))
    (aboutPasses_of_grows fun _ _ hw hg => Site.Kept.grows hw hg) (fun _ _ hw => hw.1)
    fun done r rest hlist => Reconciler.reconcile_passed h hmodest hattended hlist
  refine hrule.conseq (fun _ hw => hw) (fun _ _ hw => hw.1) (fun _ _ hw => hw) w
    ⟨hcr, hkept, fun hready => hready.elim id ?_⟩
  rintro ⟨p, hp, -⟩
  cases hp

end Call

/-! ## Runs -/

namespace VaultHistory

/-- What happens between the calls of `Reconcile`. -/
inductive Deed where
  /-- somebody edits the custom resource -/
  | edit (spec : ZooKeeperServiceSpec)
  /-- somebody writes a Secret -/
  | write (secret : Secret)
  /-- the operator is started again, and remembers nothing -/
  | restart

/-- What users do, restarts of the operator, and calls of `Reconcile`. -/
def interplay : Interplay World Deed Call where
  others w
    | .edit spec => { w with cr := w.cr.map fun cr => { cr with spec := spec } }
    | .write secret => w.store .secret secret
    | .restart => { w with resourceVersions := ∅, resourceHashes := ∅, globalSpecHash := none }
  call w call := (reconcile (call.start w)).next

/-- Nothing has happened yet: no Deployments, nothing remembered, and Vault is empty. -/
structure Fresh (w : World) : Prop where
  deployments : ∀ n, w.get? .deployment n = none
  rollouts : w.rollouts = []
  hashes : w.resourceHashes = ∅
  vault : w.vault = {}

/-- The pods of all Deployments that the call has submitted can resolve their references, and the
role of the agent does not read the credentials of the administrator. -/
def Resolved (cr : ZooKeeperService) (vault : VaultSecretManagement) (w : World) : Prop :=
  (∀ r ∈ w.rollouts, r.after.Resolved w.vault) ∧
    ¬ w.vault.Readable
      (vault.method ++ "/" ++ (cr.name ++ "-monitoring" ++ "." ++ cr.namespaceName ++ "-role"))
      (vaultSecretPath vault.path (vaultSecretName cr.name cr.namespaceName "admin-credentials"))

/-- After every call that returns nil, with Vault on and policies written by the operator, all
references resolve. -/
def AlwaysResolved : World → List (Turn Deed Call) → Prop :=
  interplay.EveryCall fun w call => ∀ cr vault t, w.cr = some cr → cr.vault? = some vault →
    vault.writePolicies = true → reconcile (call.start w) = .ok () t → Resolved cr vault t

/-- A call that goes well: Vault is on, with policies written by the operator, under the same names
as ever; the servers' additional variables leave Vault alone; and whoever needs the servers' part
of Vault finds it there, or there are servers to bring it. -/
structure Ready (site : Site) (cr : ZooKeeperService) (w : World) : Prop where
  vault : ∃ vault, cr.vault? = some vault ∧ vault.writePolicies = true ∧ cr.site vault = site ∧
    cr.Attended vault w
  modest : ∀ p : ZooKeeperResourceProvider, p.cr = cr → p.Modest

/-- Every call of a run goes well. -/
def Careful (site : Site) : World → List (Turn Deed Call) → Prop :=
  interplay.EveryCall fun w _ => ∀ cr, w.cr = some cr → Ready site cr w

section Runs

variable {site : Site} {w : World}

/-- The invariant holds at the beginning. -/
theorem Fresh.kept (h : Fresh w) : site.Kept w where
  follows := by
    rw [h.vault]
    exact ⟨fun k => .inl rfl, nofun, nofun⟩
  stored n d hd := by
    rw [h.deployments n] at hd
    cases hd
  rollouts r hr := by
    rw [h.rollouts] at hr
    cases hr
  servers spec hspec := by
    rw [recordedHash, h.hashes] at hspec
    cases hspec

/-- Without a custom resource there is nothing to do. -/
theorem grows_of_absent (hcr : w.cr = none) : site.Grows w (reconcile w).next := by
  refine grows_of_touches ((reconcile_absent hcr).mono fun f hf => ?_)
  rcases hf with ((rfl | rfl | rfl | rfl) | rfl) | rfl | rfl | rfl | rfl
  all_goals refine ⟨nofun, nofun, ?_, nofun⟩
  all_goals decide

/-- A call that is ready keeps the invariant. -/
theorem Ready.kept {cr : ZooKeeperService} (h : Ready site cr w) (hproper : site.Proper)
    (hkept : site.Kept w) (hcr : w.cr = some cr) : site.Kept (reconcile w).next := by
  obtain ⟨vault, hon, hwrite, rfl, hattended⟩ := h.vault
  have hcall := reconcile_kept ⟨hon, hwrite, hproper⟩ h.modest
  rcases hrun : reconcile w with ⟨_, t⟩ | ⟨e, t⟩
  · exact hcall.ok ⟨hcr, hkept, hattended⟩ hrun
  · exact hcall.raised ⟨hcr, hkept, hattended⟩ hrun

/-- A new call starts with nothing submitted. -/
theorem kept_start (h : site.Kept w) (call : Call) : site.Kept (call.start w) :=
  { h with rollouts := fun _ hr => absurd hr List.not_mem_nil }

/-- What others do keeps the invariant. -/
theorem kept_others (h : site.Kept w) : ∀ deed, site.Kept (interplay.others w deed)
  | .edit _ => { h with }
  | .write _ => h.grows
    ⟨fun _ => w.get?_store_of_ne (.inl nofun), rfl, rfl, fun hv => ⟨hv, fun _ hi => hi⟩⟩
  | .restart =>
    { h with servers := fun _ hspec => nomatch (Finmap.lookup_empty _).symm.trans hspec }

/-- A call keeps it, however it ends. -/
theorem kept_call (hproper : site.Proper) (h : site.Kept w) (call : Call)
    (hready : ∀ cr, w.cr = some cr → Ready site cr w) : site.Kept (interplay.call w call) := by
  have hstart := kept_start h call
  rcases hcr : w.cr with - | cr
  · exact hstart.grows (grows_of_absent hcr)
  · have hready := hready cr hcr
    exact Ready.kept ⟨hready.vault, hready.modest⟩ hproper hstart hcr

/-- The invariant of the runs. -/
theorem invariant_kept (hproper : site.Proper) :
    interplay.Invariant (fun w _ => ∀ cr, w.cr = some cr → Ready site cr w) site.Kept where
  others _ deed h := kept_others h deed
  call _ call h hready := kept_call hproper h call hready

/-- In a world that keeps the invariant all references resolve. -/
theorem resolved_of_kept {cr : ZooKeeperService} {vault : VaultSecretManagement}
    (hproper : (cr.site vault).Proper) (h : (cr.site vault).Kept w) : Resolved cr vault w :=
  ⟨fun r hr => (h.rollouts r hr).resolved hproper h.follows,
    h.follows.not_readable_admin hproper vault.method⟩

end Runs

/-! ### A run with references that resolve, and runs with references that do not -/

section Sample

/-- The specification of a custom resource with all components, for a path in Vault and an image of
the agent. -/
def sampleSpec (path image : String) : ZooKeeperServiceSpec where
  global := some {}
  zooKeeper := some (HashGate.sampleZooKeeper "zookeeper:1")
  monitoring := some { Passages.sampleMonitoring with dockerImage := image }
  backupDaemon := (Passages.sampleResource none).spec.backupDaemon
  vaultSecretManagement := some
    { dockerImage := "vault-env:1", enabled := true, path := path, url := "https://vault",
      role := "operator", method := "kubernetes", writePolicies := true }

/-- A cluster with a custom resource and nothing else. -/
def sampleWorld (spec : ZooKeeperServiceSpec) : World where
  cr := some { name := "zookeeper", namespaceName := "zk", spec := spec }
  environment := HashGate.calm

/-- The names for a path. -/
def sampleSite (path : String) : Site := ⟨"zookeeper", "zk", path⟩

theorem fresh_sampleWorld (spec : ZooKeeperServiceSpec) : Fresh (sampleWorld spec) :=
  ⟨fun _ => rfl, rfl, rfl, rfl⟩

theorem proper_sampleSite : (sampleSite "secret").Proper := ⟨by decide, by decide, by decide⟩

/-- The sample is ready at any time. -/
theorem ready_sample {w : World} (path image : String) :
    Ready (sampleSite path)
      { name := "zookeeper", namespaceName := "zk", spec := sampleSpec path image }
      w where
  vault := ⟨_, rfl, rfl, rfl, .inr (.inl ⟨_, rfl, by decide⟩)⟩
  modest := by
    rintro ⟨cr, spec, hspec⟩ rfl
    cases hspec
    exact plain_nil

/-- A call fails midway, another one follows; then the image of the agent is edited. -/
def editedRun : List (Turn Deed Call) :=
  [.call ⟨HashGate.failsMidway, HashGate.calm⟩, .call ⟨[], HashGate.calm⟩,
   .others (.edit (sampleSpec "secret" "monitoring:2")), .others .restart,
   .call ⟨[], HashGate.calm⟩]

/-- Then the path is edited as well. -/
def movedRun : List (Turn Deed Call) :=
  [.call ⟨[], HashGate.calm⟩, .others (.edit (sampleSpec "other" "monitoring:2")),
   .call ⟨[], HashGate.calm⟩]

/-- Only an edit changes the custom resource. -/
theorem cr_edit (w : World) (spec : ZooKeeperServiceSpec) :
    (interplay.others w (.edit spec)).cr = w.cr.map fun cr => { cr with spec := spec } :=
  rfl

theorem cr_restart (w : World) : (interplay.others w .restart).cr = w.cr := rfl

theorem cr_call (w : World) (call : Call) : (interplay.call w call).cr = w.cr :=
  (reconcile_touches (call.start w)).evolves.cr

/-- The sample run stays on its path in Vault, and there are servers in every call. -/
theorem careful_editedRun :
    Careful (sampleSite "secret") (sampleWorld (sampleSpec "secret" "monitoring:1")) editedRun := by
  refine ⟨fun cr hcr => ?_, fun cr hcr => ?_, fun cr hcr => ?_, trivial⟩
  · cases hcr
    exact ready_sample _ _
  · rw [cr_call] at hcr
    cases hcr
    exact ready_sample _ _
  · rw [cr_restart, cr_edit, cr_call, cr_call] at hcr
    cases hcr
    exact ready_sample _ _

/-- A submitted reference to a secret that is missing. -/
def dangling (w : World) : Bool :=
  w.rollouts.any fun r => r.after.podSpec.containers.any fun c => c.env.any fun e =>
    decide (e.name ∈ credentialsVariables) &&
      (reference e.value).any fun source => (w.vault.secretAt source.1).isNone

/-- A reference to a missing secret does not resolve. -/
theorem not_resolved_of_dangling {cr : ZooKeeperService} {vault : VaultSecretManagement} {w : World}
    (h : dangling w = true) : ¬ Resolved cr vault w := by
  simp only [dangling, List.any_eq_true, Bool.and_eq_true, decide_eq_true_eq,
    Option.any_eq_true] at h
  obtain ⟨r, hr, c, hc, e, he, hname, ⟨path, key⟩, href, hmissing⟩ := h
  intro hresolved
  obtain ⟨secret, hsecret, -⟩ := (hresolved.1 r hr c hc e he hname path key href).stored
  rw [hsecret] at hmissing
  cases hmissing

/-- A call that returns nil and leaves such a reference behind. -/
theorem not_alwaysResolved_of_dangling {w : World} {cr : ZooKeeperService}
    {vault : VaultSecretManagement} (hcr : w.cr = some cr) (hvault : cr.vault? = some vault)
    (hpolicies : vault.writePolicies = true)
    {call : Call} (hreturns : (reconcile (call.start w)).returned = true)
    (hdangling : dangling (reconcile (call.start w)).next = true) (turns : List (Turn Deed Call)) :
    ¬ AlwaysResolved w (.call call :: turns) := by
  rintro ⟨hresolved, -⟩
  obtain ⟨_, t, hrun⟩ := Outcome.returned_iff.mp hreturns
  rw [hrun] at hdangling
  exact not_resolved_of_dangling hdangling (hresolved cr vault t hcr hvault hpolicies hrun)

/-- A custom resource with nothing but the agent. -/
def agentOnly : ZooKeeperServiceSpec :=
  { sampleSpec "secret" "monitoring:1" with zooKeeper := none, backupDaemon := none }

end Sample

end VaultHistory

end QubershipZookeeper.Operator
