import QubershipZookeeper.Footprints

/-!
# The Secrets in hand

A pass of a component reads its Secrets once, at the beginning, and works with what it has
read: the versions in its hand are the ones it tests, and the ones it remembers at the end. This
module shows that what is in its hand is also what is stored, all along the pass, with the own
Secret replaced by the cleaned one when the credentials step has cleaned it.
-/

namespace QubershipZookeeper.Operator

open Proc

/-! ## Watching -/

/-- An update says truly that there is no such object. -/
theorem clientUpdate_notFound {k : Kind} {o : k.Object} {w w' : World} {e : GoError}
    (h : clientUpdate k o w = .raised e w') (he : e.isNotFound = true) :
    w'.get? k (k.name o) = none := by
  rcases request_raised_inv h with ⟨v, hv⟩ | ⟨why, rfl⟩
  · rcases hn : v.get? k (k.name o) with - | found <;> simp only [hn] at hv
    · cases hv
      exact hn
    · split at hv <;> cases hv
  · rw [Failure.isNotFound_error] at he
    cases he

/-- A foreign owner is not mistaken for a missing Secret. -/
theorem setControllerReference_error {cr : ZooKeeperService} {m : ObjectMeta} {e : GoError}
    (h : setControllerReference cr m = .error e) : e.isNotFound = false := by
  unfold setControllerReference at h
  split at h
  · split at h <;> cases h
    rfl
  · cases h

/-- What is got is stored, and stays so. -/
theorem clientGet_finds {k : Kind} {n : String} {o : k.Object} {w w' : World}
    (h : clientGet k n w = .ok o w') : w'.get? k n = some o :=
  ((clientGet_triple (P := fun _ => True) (fun _ _ _ _ => trivial) k n).ok trivial h).2

/-- When no request fails, an error means that the object is missing. -/
theorem clientGet_raised_of_calm {k : Kind} {n : String} {e : GoError} {w w' : World}
    (hw : w.faults = []) (h : clientGet k n w = .raised e w') : w'.get? k n = none := by
  simp only [clientGet, request, hw] at h
  rcases hn : w.get? k n with - | o <;> rw [hn] at h <;> cases h
  exact hn

/-- An owner does not change the annotations. -/
theorem annotations_setControllerReference {cr : ZooKeeperService} {m m' : ObjectMeta}
    (h : setControllerReference cr m = .ok m') : m'.annotations = m.annotations := by
  unfold setControllerReference at h
  split at h
  · split at h <;> cases h
    rfl
  · cases h
    rfl

/-- A Secret that is watched is the stored one; if it is missing, there is none. -/
theorem watchSecret_holds (secretName : String) (cr : ZooKeeperService) :
    Triple (fun _ => True) (watchSecret secretName cr)
      (fun secret w => w.get? .secret secretName = some secret)
      fun e w => e.isNotFound = true → w.get? .secret secretName = none := by
  have hfetch (n : String) : Triple (fun _ => True) (clientGet .secret n)
      (fun secret _ => Kind.name .secret secret = n)
      fun e w => e.isNotFound = true → w.get? .secret n = none := by
    intro w _
    rcases hrun : clientGet .secret n w with ⟨s, t⟩ | ⟨e, t⟩
    · exact clientGet_yields .secret n w s t hrun
    · exact clientGet_notFound hrun
  refine (hfetch secretName).bind fun secret => ?_
  refine Triple.bind (Q := fun m _ => m.name = secretName)
    (triple_lift (fun m w hm hname => (name_setControllerReference hm).trans hname)
      fun e w he _ hnot => ?_) fun m w hname => ?_
  · rw [setControllerReference_error he] at hnot
    cases hnot
  · subst hname
    refine Triple.bind (P := fun _ => True) (Q := fun _ _ => True) ?_ (fun _ w _ => ?_) w trivial
    · exact (hfetch m.name).conseq (fun _ h => h) (fun _ _ _ => trivial) fun _ _ h => h
    · have hstores := clientUpdate_stores .secret { secret with metadata := m } w trivial
      rcases hrun : clientUpdate .secret { secret with metadata := m } w with ⟨s, t⟩ | ⟨e, t⟩
      · rw [hrun] at hstores
        exact hstores.1
      · exact clientUpdate_notFound hrun

/-- Watching stores the Secret with another owner, and with nothing else changed. -/
theorem watchSecret_keeps {P : World → Prop} {n : String} {cr : ZooKeeperService} (hP : Stable P)
    (hstore : ∀ w (s : Secret) m, P w → w.get? .secret n = some s → m.name = n →
      m.annotations = s.metadata.annotations →
      P (w.store .secret { s with metadata := m })) :
    Triple P (watchSecret n cr) (fun _ => P) fun _ => P := by
  have hfound (secret : Secret) : Stable fun w => P w ∧ w.get? .secret n = some secret :=
    fun w w' ht hw => ⟨hP w w' ht hw.1, (ht.get? (Set.notMem_empty _)).trans hw.2⟩
  refine (clientGet_triple hP .secret n).bind fun secret => ?_
  refine Triple.bind (Q := fun m w => (m.name = n ∧ m.annotations = secret.metadata.annotations) ∧
    P w ∧ w.get? .secret n = some secret) ?_ fun m w hw => ?_
  · refine triple_lift (fun m w hm hw => ⟨⟨?_, ?_⟩, hw⟩) fun _ _ _ hw => hw.1
    · exact (name_setControllerReference hm).trans (Store.name_of_get? hw.2)
    · have hsame := annotations_setControllerReference hm
      exact hsame
  · obtain ⟨⟨hname, hannotations⟩, hw⟩ := hw
    refine Triple.bind (P := fun w => P w ∧ w.get? .secret n = some secret)
      (Q := fun _ w => P w ∧ w.get? .secret n = some secret) ?_ (fun _ => ?_) w hw
    · exact (clientGet_triple (hfound secret) .secret _).conseq (fun _ h => h) (fun _ _ h => h.1)
        fun _ _ h => h.1
    · exact clientUpdate_triple (hfound secret) (fun w _ hw _ _ => hw.1)
        (fun w _ hw _ => hstore w secret m hw.1 hw.2 hname hannotations) (fun _ hw => hw.1)
        fun _ _ hw => hw

/-- The own Secret of a component is in its hand as it is stored; when it is missing, the empty
one takes its place. -/
def HoldsOwn (secretName : String) (secret : Secret) (w : World) : Prop :=
  w.get? .secret secretName = some secret ∨ secret = {} ∧ w.get? .secret secretName = none

/-- After it was watched, the component's own Secret at hand is the stored one. -/
theorem watchOwnSecret_holds (secretName : String) (cr : ZooKeeperService) :
    Triple (fun _ => True) (watchOwnSecret secretName cr) (HoldsOwn secretName)
      fun _ _ => True := by
  refine ((watchSecret_holds secretName cr).conseq (fun _ h => h) (fun _ _ h => .inl h)
    fun _ _ h => h).recover (fun e k hk => ?_) fun _ _ _ _ => trivial
  split at hk <;> cases hk
  next he =>
    rw [Bool.and_eq_true] at he
    exact triple_pure fun w hw => .inr ⟨rfl, hw he.2⟩

/-- A further Secret is in hand as it is stored, if there is one to watch. -/
def HoldsOther (secretName : Option String) (secret : Option Secret) (w : World) : Prop :=
  secret = secretName.bind (w.get? .secret)

/-- And so is the Secret of another component, if it is there. -/
theorem watchOtherSecret_holds (secretName : Option String) (cr : ZooKeeperService) :
    Triple (fun _ => True) (watchOtherSecret secretName cr) (HoldsOther secretName)
      fun _ _ => True := by
  cases secretName with
  | none => exact triple_pure fun _ _ => rfl
  | some n =>
    refine Triple.recover (E := fun e w => e.isNotFound = true → w.get? .secret n = none)
      (Triple.bind (watchSecret_holds n cr) fun s => triple_pure fun w hw => hw.symm)
      (fun e k hk => ?_) fun _ _ _ _ => trivial
    split at hk <;> cases hk
    next he => exact triple_pure fun w hw => (hw he).symm

/-- This is kept while the Secret is not written. -/
theorem HoldsOwn.of_get?_eq {n : String} {secret : Secret} {w w' : World} (h : HoldsOwn n secret w)
    (hget : w'.get? .secret n = w.get? .secret n) : HoldsOwn n secret w' := by
  unfold HoldsOwn
  rw [hget]
  exact h

/-- The Secret in hand has the name, unless it is missing. -/
theorem HoldsOwn.name_eq {n : String} {secret : Secret} {w : World} (h : HoldsOwn n secret w)
    (hname : secret.metadata.name ≠ "") : secret.metadata.name = n ∧
      w.get? .secret n = some secret := by
  rcases h with h | ⟨rfl, -⟩
  · exact ⟨Store.name_of_get? h, h⟩
  · exact absurd rfl hname

/-- If there is a Secret, it is the one at hand. -/
theorem HoldsOwn.eq_of_get? {n : String} {secret s : Secret} {w : World}
    (h : HoldsOwn n secret w) (hs : w.get? .secret n = some s) : secret = s := by
  rcases h with h | ⟨-, h⟩
  · exact Option.some.inj (h.symm.trans hs)
  · cases h.symm.trans hs

/-- The Secret at hand has the name, or there is none. -/
theorem HoldsOwn.name_or {n : String} {secret : Secret} {w : World} (h : HoldsOwn n secret w) :
    secret.metadata.name = "" ∨ secret.metadata.name = n := by
  rcases h with h | ⟨rfl, -⟩
  · exact .inr (Store.name_of_get? h)
  · exact .inl rfl

/-! ## Cleaning -/

/-- A cleaned Secret is at hand in its new version. -/
theorem cleanSecret_holds (n : String) (c : Component) (secret : Secret) :
    Triple (HoldsOwn n secret) (cleanSecret c secret) (HoldsOwn n) fun _ _ => True := by
  refine Triple.bind (Q := fun _ => HoldsOwn n secret) (triple_update fun _ h => h) fun _ => ?_
  by_cases hneed : needToCleanSecret secret = true
  · rw [if_pos hneed]
    refine Triple.bind (Q := fun cleaned _ => Kind.name .secret cleaned = n)
      (triple_build (fun cleaned w hcleaned hw => ?_) fun _ _ _ => trivial)
        fun cleaned w hname => ?_
    · rw [show Kind.name .secret cleaned = secret.metadata.name from name_cleanedSecret hcleaned]
      exact (hw.name_eq (name_ne_of_needToCleanSecret hneed)).1
    · subst hname
      refine Triple.bind (P := fun _ => True) (clientUpdate_stores .secret cleaned)
        (fun stored => ?_) w trivial
      exact Triple.bind (Q := fun _ w => w.get? .secret (Kind.name .secret cleaned) = some stored)
        (triple_update fun _ h => h.1) fun _ => triple_pure fun _ h => .inl h
  · rw [if_neg hneed]
    exact triple_pure fun _ h => h

/-! ## The apply branches

What the apply branch of a component does to its Secret, it does in the credentials step. The
other steps leave Secrets, their remembered versions and Vault alone. -/

/-- Anything but Secrets and hashes. -/
def withoutSecrets : Footprint := ⟨Set.univ, Set.univ, ∅, ∅⟩

section Apply

variable {P : World → Prop} {E : World → Prop} {B D : Secret → World → Prop}

/-- The predicate speaks about nothing but Secrets, hashes and Vault. -/
def AboutSecrets (P : World → Prop) : Prop :=
  ∀ w w', P w → Touches withoutSecrets.fields w w' → P w'

/-- The rule for all steps of a pass that leave the Secrets alone. -/
theorem AboutSecrets.triple {α : Type} {m : Op α} (hP : AboutSecrets P) (hE : ∀ w, P w → E w)
    (h : Within (Touches withoutSecrets.fields) m) : Triple P m (fun _ => P) fun _ => E :=
  (h.triple hP).conseq (fun _ h => h) (fun _ _ h => h) fun _ => hE

theorem aboutSecrets_holdsOwn (n : String) (secret : Secret) :
    AboutSecrets (HoldsOwn n secret) :=
  fun _ _ h ht => h.of_get?_eq (ht.get? fun h => h)

/-- The apply branch of ZooKeeper, from a rule for Vault's part of it: the condition `B` before that
part, `D` after it. -/
theorem ZooKeeperResourceProvider.apply_triple (p : ZooKeeperResourceProvider)
    (hB : ∀ s, AboutSecrets (B s)) (hD : ∀ s, AboutSecrets (D s)) (hDB : ∀ s w, D s w → B s w)
    (hE : ∀ s w, B s w → E w)
    (hvault : ∀ s, Triple (B s) (p.applyVault s) (fun s' => D s') fun _ => E) (secret : Secret) :
    Triple (B secret) (p.apply secret)
      (fun s' w => B s' w ∧ (0 < p.spec.replicas → D s' w)) fun _ => E := by
  -- after the first round the credentials step has been taken
  have hround (rolling : Bool) (s : Secret) (i : ℕ) :
      Triple (B s) (p.applyServer rolling s i) (fun s' => D s') fun _ => E := by
    have hquiet {α : Type} {m : Op α} (h : Within (Touches withoutSecrets.fields) m) :=
      (hB s).triple (hE s) h
    have hquiet' {α : Type} {m : Op α} (s' : Secret)
        (h : Within (Touches withoutSecrets.fields) m) :=
      (hD s').triple (fun w hw => hE s' w (hDB s' w hw)) h
    refine (hquiet (applyService_touches _ _)).bind fun _ => ?_
    refine (hquiet (build_touches _)).bind fun claim => ?_
    refine (hquiet (applyClaim_touches rfl _)).bind fun _ => ?_
    refine (hquiet (createServiceAccount_touches ⟨trivial, by simp⟩)).bind fun _ => ?_
    refine (hvault s).bind fun s' => ?_
    refine (hquiet' s' (applyDeployment_touches _ _ fun _ _ => trivial)).bind fun _ => ?_
    exact (hquiet' s' (p.awaitServer_touches _ _)).bind fun _ => triple_pure fun _ h => h
  have hquiet {α : Type} {m : Op α} (h : Within (Touches withoutSecrets.fields) m) :=
    (hB secret).triple (hE secret) h
  have hresult (s : Secret) : AboutSecrets fun w => B s w ∧ (0 < p.spec.replicas → D s w) :=
    fun w w' h ht => ⟨hB s w w' h.1 ht, fun hpos => hD s w w' (h.2 hpos) ht⟩
  unfold ZooKeeperResourceProvider.apply
  refine Triple.bind (Q := fun s' w => B s' w ∧ (0 < p.spec.replicas → D s' w)) ?_ fun s' =>
    ((hresult s').triple (fun w hw => hE s' w hw.1) p.updateZooKeeperStatus_touches).bind
      fun _ => triple_pure fun _ h => h
  split
  next hpos =>
    refine (hquiet (applySnapshotsClaim_touches rfl _ _).whenever).bind fun _ => ?_
    refine (hquiet (applyService_touches _ _)).bind fun _ => ?_
    refine (hquiet (applyService_touches _ _)).bind fun _ => ?_
    refine (hquiet p.getCurrentDeploymentsCount_touches).bind fun n => ?_
    refine (hquiet (p.scaleDown_touches n fun _ _ => trivial)).bind fun _ => ?_
    refine (foldEach_triple (I := fun done s w => B s w ∧ (done ≠ [] → D s w))
      (fun done i rest s _ => ?_) secret).conseq (fun _ h => ⟨h, fun hne => absurd rfl hne⟩)
      (fun s' w h => ⟨h.1, fun _ => h.2 ?_⟩) fun _ _ h => h
    · exact (hround _ s i).conseq (fun _ h => h.1) (fun s' w h => ⟨hDB s' w h, fun _ => h⟩)
        fun _ _ h => h
    · have hnat : p.spec.replicas.toNat ≠ 0 := by omega
      simpa [ZooKeeperResourceProvider.serverIds] using hnat
  next hpos => exact triple_pure fun w h => ⟨h, fun h' => absurd h' hpos⟩

/-- The same for Monitoring. -/
theorem MonitoringResourceProvider.apply_triple (p : MonitoringResourceProvider)
    (hB : ∀ s, AboutSecrets (B s)) (hD : ∀ s, AboutSecrets (D s)) (hE : ∀ s w, B s w → E w)
    (hE' : ∀ s w, D s w → E w)
    (hvault : ∀ s, Triple (B s) (p.applyVault s) (fun s' => D s') fun _ => E) (secret : Secret)
    (backupDaemonSecret : Option Secret) :
    Triple (B secret) (p.apply secret backupDaemonSecret) (fun s' => D s') fun _ => E := by
  have hquiet {α : Type} {m : Op α} (h : Within (Touches withoutSecrets.fields) m) :=
    (hB secret).triple (hE secret) h
  have hquiet' {α : Type} {m : Op α} (s' : Secret) (h : Within (Touches withoutSecrets.fields) m) :=
    (hD s').triple (hE' s') h
  refine (hquiet (applyService_touches _ _)).bind fun _ => ?_
  refine (hquiet (createServiceAccount_touches ⟨trivial, by simp⟩)).bind fun _ => ?_
  refine (hvault secret).bind fun s' => ?_
  refine (hquiet' s' (applyDeployment_touches _ _ fun _ _ => trivial)).bind fun _ => ?_
  exact (hquiet' s' p.updateMonitoringStatus_touches).bind fun _ => triple_pure fun _ h => h

/-- The same for the backup daemon. -/
theorem BackupDaemonResourceProvider.apply_triple (p : BackupDaemonResourceProvider)
    (hB : ∀ s, AboutSecrets (B s)) (hD : ∀ s, AboutSecrets (D s)) (hE : ∀ s w, B s w → E w)
    (hE' : ∀ s w, D s w → E w)
    (hvault : ∀ s, Triple (B s) (p.applyVault s) (fun s' => D s') fun _ => E) (secret : Secret)
    (s3Secret s3AliasesSecret : Option Secret) :
    Triple (B secret) (p.apply secret s3Secret s3AliasesSecret) (fun s' => D s') fun _ => E := by
  have hquiet {α : Type} {m : Op α} (h : Within (Touches withoutSecrets.fields) m) :=
    (hB secret).triple (hE secret) h
  have hquiet' {α : Type} {m : Op α} (s' : Secret) (h : Within (Touches withoutSecrets.fields) m) :=
    (hD s').triple (hE' s') h
  refine (hquiet (applySnapshotsClaim_touches rfl _ _).whenever).bind fun _ => ?_
  refine (hquiet (applyService_touches _ _)).bind fun _ => ?_
  refine (hquiet (createServiceAccount_touches ⟨trivial, by simp⟩)).bind fun _ => ?_
  refine (hvault secret).bind fun s' => ?_
  refine (hquiet' s' (applyDeployment_touches _ _ fun _ _ => trivial)).bind fun _ => ?_
  exact (hquiet' s' p.updateBackupDaemonStatus_touches).bind fun _ => triple_pure fun _ h => h

end Apply

/-! ## The credentials step -/

/-- The fields that the credentials step touches before it cleans the Secret. -/
def credentialsFields : Set Field := {.secretVersions, .vault}

theorem vault_mem_credentialsFields : Field.vault ∈ credentialsFields := .inr rfl

/-- Vault's part of the branch leads to the cleaning of the Secret, and touches only credentials on
the way. -/
theorem ZooKeeperResourceProvider.processVaultSecrets_leadsTo (p : ZooKeeperResourceProvider)
    (vault : VaultSecretManagement) (secret : Secret) :
    LeadsTo (Touches credentialsFields) (p.processVaultSecrets vault secret)
      (cleanSecret .zooKeeper secret) := by
  have hT := vault_mem_credentialsFields
  refine Within.leadsTo (fun w => touches_secretVersions w _ (.inl rfl)) fun _ => ?_
  refine (p.writePolicies_touches hT vault secret).whenever.leadsTo fun _ => ?_
  refine (newPasswordGenerator_touches hT _ _).leadsTo fun generator => ?_
  refine (processUserCredentials_touches hT _ _ _ _ _).leadsTo fun _ => ?_
  refine (processUserCredentials_touches hT _ _ _ _ _).leadsTo fun _ => ?_
  exact (processAdditionalUsersCredentials_touches hT _ _ _ _).leadsTo fun _ => leadsTo_refl _

theorem MonitoringResourceProvider.processVaultSecrets_leadsTo (p : MonitoringResourceProvider)
    (vault : VaultSecretManagement) (secret : Secret) :
    LeadsTo (Touches credentialsFields) (p.processVaultSecrets vault secret)
      (cleanSecret .monitoring secret) :=
  (p.writePolicies_touches vault_mem_credentialsFields vault secret).whenever.leadsTo fun _ =>
    leadsTo_refl _

theorem BackupDaemonResourceProvider.processVaultSecrets_leadsTo (p : BackupDaemonResourceProvider)
    (vault : VaultSecretManagement) (secret : Secret) :
    LeadsTo (Touches credentialsFields) (p.processVaultSecrets vault secret)
      (cleanSecret .backupDaemon secret) := by
  have hT := vault_mem_credentialsFields
  refine (p.writePolicies_touches hT vault secret).whenever.leadsTo fun _ => ?_
  refine (newPasswordGenerator_touches hT _ _).leadsTo fun generator => ?_
  exact (processUserCredentials_touches hT _ _ _ _ _).leadsTo fun _ => leadsTo_refl _

/-- The credentials step, by what its last part does. -/
theorem applyVault_triple {P : World → Prop} {Q : Secret → World → Prop} {E : World → Prop}
    {c : Component} {secret : Secret} {vault? : Option VaultSecretManagement}
    {process : VaultSecretManagement → Op Secret}
    (hprocess : ∀ vault, LeadsTo (Touches credentialsFields) (process vault) (cleanSecret c secret))
    (hP : ∀ w w', P w → Touches credentialsFields w w' → P w') (hE : ∀ w, P w → E w)
    (hoff : vault? = none → ∀ w, P w → Q secret w)
    (hclean : vault?.isSome → Triple P (cleanSecret c secret) Q fun _ => E) :
    Triple P (vault?.elim (pure secret) process) Q fun _ => E := by
  rcases vault? with - | vault
  · exact triple_pure (hoff rfl)
  · exact (hprocess vault).triple hP (fun _ => hE) (hclean rfl)

/-! ## Remembering -/

/-- The remembered version of a Secret is that of the stored one. -/
def Remembers (n : String) (w : World) : Prop :=
  ∀ s, w.get? .secret n = some s → w.resourceVersions.lookup n = some s.metadata.resourceVersion

/-- The version that is remembered for a Secret is that of the last one with its name. -/
theorem lookup_rememberedVersions_of_mem {secrets : List (Option Secret)}
    {versions : Finmap fun _ : String => ℕ} {s : Secret} (hs : some s ∈ secrets)
    (hunique : ∀ s', some s' ∈ secrets → s'.metadata.name = s.metadata.name → s' = s) :
    (rememberedVersions secrets versions).lookup s.metadata.name =
      some s.metadata.resourceVersion := by
  induction secrets generalizing versions with
  | nil => cases hs
  | cons secret secrets ih =>
    have hrest : ∀ s', some s' ∈ secrets → s'.metadata.name = s.metadata.name → s' = s :=
      fun s' hs' => hunique s' (List.mem_cons_of_mem _ hs')
    by_cases htail : some s ∈ secrets
    · exact ih htail hrest
    · obtain rfl : some s = secret := (List.mem_cons.mp hs).resolve_right htail
      have hothers : ∀ s', some s' ∈ secrets → s'.metadata.name ≠ s.metadata.name :=
        fun s' hs' hname => htail (hrest s' hs' hname ▸ hs')
      exact (lookup_rememberedVersions hothers).trans (Finmap.lookup_insert _)

/-- Remembering what is in hand remembers what is stored. -/
theorem remembers_of_remember {c : Component} {digest : Digest} {secrets : List (Option Secret)}
    {n : String} {hand : Option Secret} {w w' : World} (hhand : w.get? .secret n = hand)
    (hmem : ∀ s ∈ hand, some s ∈ secrets)
    (hunique : ∀ s', some s' ∈ secrets → s'.metadata.name = n → hand = some s')
    (h : remember c digest secrets w = .ok () w') : Remembers n w' := by
  obtain rfl := update_ok_inv h
  intro s hs
  obtain rfl : hand = some s := hhand.symm.trans hs
  obtain rfl : s.metadata.name = n := Store.name_of_get? hs
  exact lookup_rememberedVersions_of_mem (hmem s rfl) fun s' hs' hname =>
    (Option.some.inj (hunique s' hs' hname)).symm

/-- A Secret at hand is remembered in its stored version. -/
theorem HoldsOwn.remembers {c : Component} {digest : Digest} {secrets : List (Option Secret)}
    {n : String} {secret : Secret} {w w' : World} (h : HoldsOwn n secret w)
    (hmem : some secret ∈ secrets)
    (hunique : ∀ s', some s' ∈ secrets → s'.metadata.name = n → s' = secret)
    (hremember : remember c digest secrets w = .ok () w') : Remembers n w' := by
  rcases h with h | ⟨-, h⟩
  · refine remembers_of_remember h (fun s hs => ?_) (fun s' hs' hname => ?_) hremember
    · rw [← Option.some.inj hs]
      exact hmem
    · rw [hunique s' hs' hname]
  · obtain rfl := update_ok_inv hremember
    intro s hs
    cases h.symm.trans hs

theorem HoldsOther.remembers {c : Component} {digest : Digest} {secrets : List (Option Secret)}
    {n : String} {hand : Option Secret} {w w' : World} (h : HoldsOther (some n) hand w)
    (hmem : hand ∈ secrets)
    (hunique : ∀ s', some s' ∈ secrets → s'.metadata.name = n → some s' = hand)
    (hremember : remember c digest secrets w = .ok () w') : Remembers n w' := by
  refine remembers_of_remember (Eq.symm h) (fun s hs => ?_)
    (fun s' hs' hname => (hunique s' hs' hname).symm) hremember
  rw [← show hand = some s from hs]
  exact hmem

/-- A Secret that is in hand has the name it was watched under. -/
theorem HoldsOther.name_eq {secretName : Option String} {s : Secret} {w : World}
    (h : HoldsOther secretName (some s) w) : secretName = some s.metadata.name := by
  obtain ⟨n, rfl, hn⟩ := Option.bind_eq_some_iff.mp h.symm
  exact congrArg some (Store.name_of_get? hn).symm

/-- The fields of a single Secret, with what the credentials step does for it. -/
def ownFields (secretName : String) : Set Field := Footprint.fields ⟨∅, ∅, {secretName}, ∅⟩

theorem credentialsFields_subset (secretName : String) :
    credentialsFields ⊆ ownFields secretName := by
  rintro _ (rfl | rfl)
  · exact ⟨secretName, rfl⟩
  · exact ⟨secretName, rfl⟩

/-- The credentials step keeps the Secret in hand the stored one, and leaves other Secrets
alone. -/
theorem applyVault_holds {n : String} {c : Component} {secret : Secret}
    {vault? : Option VaultSecretManagement} {process : VaultSecretManagement → Op Secret}
    {P : World → Prop}
    (hprocess : ∀ vault, LeadsTo (Touches credentialsFields) (process vault) (cleanSecret c secret))
    (hP : ∀ w w', P w → Touches (ownFields n) w w' → P w') :
    Triple (fun w => HoldsOwn n secret w ∧ P w) (vault?.elim (pure secret) process)
      (fun s' w => HoldsOwn n s' w ∧ P w) fun _ _ => True := by
  refine applyVault_triple hprocess (fun w w' h ht => ⟨h.1.of_get?_eq (ht.get? ?_), ?_⟩)
    (fun _ _ => trivial) (fun _ _ h => h) fun _ w hw => ?_
  · simp [credentialsFields]
  · exact hP w w' h.2 (ht.mono (credentialsFields_subset n))
  · have htouch :=
      cleanSecret_touches (T := ownFields n) c fun hne : secret.metadata.name ≠ "" => by
      rw [(hw.1.name_eq hne).1]
      exact ⟨rfl, .inr rfl⟩
    have hholds := cleanSecret_holds n c secret w hw.1
    rcases hrun : cleanSecret c secret w with ⟨s', w'⟩ | ⟨e, w'⟩
    · rw [hrun] at hholds
      exact ⟨hholds, hP w w' hw.2 (htouch.ok hrun)⟩
    · trivial

/-- A Secret of another component stays at hand while it is not written. -/
theorem HoldsOther.of_touches {T : Set Field} {secretName : Option String} {hand : Option Secret}
    {w w' : World} (h : HoldsOther secretName hand w) (ht : Touches T w w')
    (hT : ∀ n ∈ secretName, .object .secret n ∉ T) : HoldsOther secretName hand w' := by
  unfold HoldsOther at h ⊢
  cases secretName with
  | none => exact h
  | some n =>
    rw [h, Option.bind_some, Option.bind_some, ht.get? (hT n rfl)]

/-! ## The passes

The rules for a pass: what holds of the Secrets when they have been watched (`W`), in the apply
branch before and after the credentials step (`B` and `D`), when the Deployments have been marked
for restarts (`M`), and when the versions are remembered. -/

section Passes

variable {I E : World → Prop} {Q : Unit → World → Prop}

namespace ZooKeeperResourceProvider

variable (p : ZooKeeperResourceProvider)

/-- **The pass of ZooKeeper as a rule**: conditions after watching (`W`), after the test that finds
a change (`B`), after Vault's part (`D`), and in the other branch with its marks (`C`, `M`). -/
theorem reconcile_triple_marking {W B D C M : Secret → World → Prop} (hB : ∀ s, AboutSecrets (B s))
    (hD : ∀ s, AboutSecrets (D s)) (hDB : ∀ s w, D s w → B s w) (hBE : ∀ s w, B s w → E w)
    (hown : Triple I (watchOwnSecret p.spec.secretName p.cr) W fun _ => E)
    (htest : ∀ s, Triple (W s) (testChanged .zooKeeper (.zooKeeper p.spec) [some s])
      (fun isChanged w => if isChanged then B s w else C s w) fun _ => E)
    (hvault : ∀ s, Triple (B s) (p.applyVault s) (fun s' => D s') fun _ => E)
    (happlied : ∀ s w, B s w → (0 < p.spec.replicas → D s w) → C s w)
    (hmark : ∀ s, Triple (C s) (p.markRestarts s) (fun _ => M s) fun _ => E)
    (hremember : ∀ s,
      Triple (M s) (remember .zooKeeper (.zooKeeper p.spec) [some s]) Q fun _ => E) :
    Triple I p.reconcile Q fun _ => E := by
  refine Triple.bind (Q := M) ?_ hremember
  refine hown.bind fun secret => (htest secret).bind fun isChanged => ?_
  refine Triple.bind (Q := C) ?_ fun s' => (hmark s').bind fun _ => triple_pure fun _ h => h
  cases isChanged with
  | true =>
    exact (p.apply_triple hB hD hDB hBE hvault secret).conseq (fun _ h => h)
      (fun s' w h => happlied s' w h.1 h.2) fun _ _ h => h
  | false => exact triple_pure fun _ h => h

/-- The same where the marks leave the conditions alone. -/
theorem reconcile_triple {W B D C : Secret → World → Prop} (hB : ∀ s, AboutSecrets (B s))
    (hD : ∀ s, AboutSecrets (D s)) (hC : ∀ s, AboutSecrets (C s)) (hDB : ∀ s w, D s w → B s w)
    (hBE : ∀ s w, B s w → E w) (hCE : ∀ s w, C s w → E w)
    (hown : Triple I (watchOwnSecret p.spec.secretName p.cr) W fun _ => E)
    (htest : ∀ s, Triple (W s) (testChanged .zooKeeper (.zooKeeper p.spec) [some s])
      (fun isChanged w => if isChanged then B s w else C s w) fun _ => E)
    (hvault : ∀ s, Triple (B s) (p.applyVault s) (fun s' => D s') fun _ => E)
    (happlied : ∀ s w, B s w → (0 < p.spec.replicas → D s w) → C s w)
    (hremember : ∀ s,
      Triple (C s) (remember .zooKeeper (.zooKeeper p.spec) [some s]) Q fun _ => E) :
    Triple I p.reconcile Q fun _ => E :=
  p.reconcile_triple_marking hB hD hDB hBE hown htest hvault happlied
    (fun s => (hC s).triple (hCE s) (p.markRestarts_touches _ fun _ => trivial)) hremember

end ZooKeeperResourceProvider

namespace MonitoringResourceProvider

variable (p : MonitoringResourceProvider) {W : Secret → World → Prop}
  {V B D M : Option Secret → Secret → World → Prop}

/-- The pass of Monitoring as a rule, with the Secret of the backup daemon as the other one. -/
theorem reconcile_triple_marking (hB : ∀ o s, AboutSecrets (B o s))
    (hD : ∀ o s, AboutSecrets (D o s)) (hBE : ∀ o s w, B o s w → E w)
    (hDE : ∀ o s w, D o s w → E w)
    (hown : Triple I (watchOwnSecret p.spec.secretName p.cr) W fun _ => E)
    (hother : ∀ s, Triple (W s) (watchOtherSecret p.backupDaemonSecretName p.cr)
      (fun o => V o s) fun _ => E)
    (htest : ∀ s o, Triple (V o s) (testChanged .monitoring (.monitoring p.spec) [some s, o])
      (fun isChanged w => if isChanged then B o s w else D o s w) fun _ => E)
    (hvault : ∀ o s, Triple (B o s) (p.applyVault s) (fun s' => D o s') fun _ => E)
    (hmark : ∀ s o, Triple (D o s)
      (updateDeploymentSecretRestartAnnotations p.getServiceName [some s, o]) (fun _ => M o s)
      fun _ => E)
    (hremember : ∀ s o, Triple (M o s) (remember .monitoring (.monitoring p.spec) [some s, o]) Q
      fun _ => E) :
    Triple I p.reconcile Q fun _ => E := by
  refine hown.bind fun secret => (hother secret).bind fun other => ?_
  refine (htest secret other).bind fun isChanged => ?_
  refine Triple.bind (Q := D other) ?_ fun s' => (hmark s' other).bind fun _ => hremember s' other
  cases isChanged with
  | true => exact p.apply_triple (hB other) (hD other) (hBE other) (hDE other) (hvault other) _ _
  | false => exact triple_pure fun _ h => h

theorem reconcile_triple (hB : ∀ o s, AboutSecrets (B o s)) (hD : ∀ o s, AboutSecrets (D o s))
    (hBE : ∀ o s w, B o s w → E w) (hDE : ∀ o s w, D o s w → E w)
    (hown : Triple I (watchOwnSecret p.spec.secretName p.cr) W fun _ => E)
    (hother : ∀ s, Triple (W s) (watchOtherSecret p.backupDaemonSecretName p.cr)
      (fun o => V o s) fun _ => E)
    (htest : ∀ s o, Triple (V o s) (testChanged .monitoring (.monitoring p.spec) [some s, o])
      (fun isChanged w => if isChanged then B o s w else D o s w) fun _ => E)
    (hvault : ∀ o s, Triple (B o s) (p.applyVault s) (fun s' => D o s') fun _ => E)
    (hremember : ∀ s o, Triple (D o s) (remember .monitoring (.monitoring p.spec) [some s, o]) Q
      fun _ => E) :
    Triple I p.reconcile Q fun _ => E :=
  p.reconcile_triple_marking hB hD hBE hDE hown hother htest hvault
    (fun s o => (hD o s).triple (hDE o s) (updateDeploymentSecretRestartAnnotations_touches _
      ⟨trivial, fun _ => ⟨p.getServiceName, trivial⟩⟩)) hremember

end MonitoringResourceProvider

namespace BackupDaemonResourceProvider

variable (p : BackupDaemonResourceProvider) {W : Secret → World → Prop}
  {V : Option Secret → Secret → World → Prop}
  {U B D M : Option Secret → Option Secret → Secret → World → Prop}

/-- The pass of the backup daemon as a rule, with the Secrets of the S3 store and of its aliases. -/
theorem reconcile_triple_marking (hB : ∀ o a s, AboutSecrets (B o a s))
    (hD : ∀ o a s, AboutSecrets (D o a s)) (hBE : ∀ o a s w, B o a s w → E w)
    (hDE : ∀ o a s w, D o a s w → E w)
    (hown : Triple I (watchOwnSecret p.spec.secretName p.cr) W fun _ => E)
    (hother : ∀ s, Triple (W s) (watchOtherSecret p.s3SecretName p.cr) (fun o => V o s)
      fun _ => E)
    (haliases : ∀ s o, Triple (V o s) p.findS3Aliases (fun a => U o a s) fun _ => E)
    (htest : ∀ s o a, Triple (U o a s)
      (testChanged .backupDaemon (.backupDaemon p.spec) [some s, o, a])
      (fun isChanged w => if isChanged then B o a s w else D o a s w) fun _ => E)
    (hvault : ∀ o a s, Triple (B o a s) (p.applyVault s) (fun s' => D o a s') fun _ => E)
    (hmark : ∀ s o a, Triple (D o a s)
      (updateDeploymentSecretRestartAnnotations p.getServiceName [some s, o, a])
      (fun _ => M o a s) fun _ => E)
    (hremember : ∀ s o a, Triple (M o a s)
      (remember .backupDaemon (.backupDaemon p.spec) [some s, o, a]) Q fun _ => E) :
    Triple I p.reconcile Q fun _ => E := by
  refine hown.bind fun secret => (hother secret).bind fun s3 => (haliases secret s3).bind
    fun aliases => (htest secret s3 aliases).bind fun isChanged => ?_
  refine Triple.bind (Q := D s3 aliases) ?_ fun s' => (hmark s' s3 aliases).bind fun _ =>
    hremember s' s3 aliases
  cases isChanged with
  | true =>
    exact p.apply_triple (hB s3 aliases) (hD s3 aliases) (hBE s3 aliases) (hDE s3 aliases)
      (hvault s3 aliases) _ _ _
  | false => exact triple_pure fun _ h => h

theorem reconcile_triple (hB : ∀ o a s, AboutSecrets (B o a s))
    (hD : ∀ o a s, AboutSecrets (D o a s)) (hBE : ∀ o a s w, B o a s w → E w)
    (hDE : ∀ o a s w, D o a s w → E w)
    (hown : Triple I (watchOwnSecret p.spec.secretName p.cr) W fun _ => E)
    (hother : ∀ s, Triple (W s) (watchOtherSecret p.s3SecretName p.cr) (fun o => V o s)
      fun _ => E)
    (haliases : ∀ s o, Triple (V o s) p.findS3Aliases (fun a => U o a s) fun _ => E)
    (htest : ∀ s o a, Triple (U o a s)
      (testChanged .backupDaemon (.backupDaemon p.spec) [some s, o, a])
      (fun isChanged w => if isChanged then B o a s w else D o a s w) fun _ => E)
    (hvault : ∀ o a s, Triple (B o a s) (p.applyVault s) (fun s' => D o a s') fun _ => E)
    (hremember : ∀ s o a, Triple (D o a s)
      (remember .backupDaemon (.backupDaemon p.spec) [some s, o, a]) Q fun _ => E) :
    Triple I p.reconcile Q fun _ => E :=
  p.reconcile_triple_marking hB hD hBE hDE hown hother haliases htest hvault
    (fun s o a => (hD o a s).triple (hDE o a s) (updateDeploymentSecretRestartAnnotations_touches _
      ⟨trivial, fun _ => ⟨p.getServiceName, trivial⟩⟩)) hremember

end BackupDaemonResourceProvider

end Passes

/-- The change test leaves alone what does not speak about it. -/
theorem testChanged_triple {c : Component} {digest : Digest} {secrets : List (Option Secret)}
    {P E : World → Prop} {T F : World → Prop}
    (htrue : ∀ w, P w → changed c digest secrets w = true →
      T { w with tested := passagesOf c secrets ++ w.tested
                 applied := passagesOf c secrets ++ w.applied })
    (hfalse : ∀ w, P w → changed c digest secrets w = false →
      F { w with tested := passagesOf c secrets ++ w.tested }) :
    Triple P (testChanged c digest secrets) (fun isChanged w => if isChanged then T w else F w)
      fun _ => E := by
  intro w hw
  rcases hchanged : changed c digest secrets w with - | -
  · simp only [testChanged, hchanged, Bool.false_eq_true, if_false]
    exact hfalse w hw hchanged
  · simp only [testChanged, hchanged, if_true]
    exact htrue w hw hchanged

/-! ## Every pass remembers the Secrets it has watched -/

/-- A pass of ZooKeeper that returns has remembered the version of its Secret. -/
theorem ZooKeeperResourceProvider.reconcile_remembersSecrets (p : ZooKeeperResourceProvider) :
    Triple (fun _ => True) p.reconcile (fun _ => Remembers p.spec.secretName) fun _ _ => True := by
  have habout := aboutSecrets_holdsOwn p.spec.secretName
  refine p.reconcile_triple habout habout habout (fun _ _ h => h) (fun _ _ _ => trivial)
    (fun _ _ _ => trivial) (watchOwnSecret_holds _ p.cr)
    (fun s => testChanged_triple (fun _ h _ => h) fun _ h _ => h) (fun s => ?_)
    (fun _ _ h _ => h) fun s w hw => ?_
  · exact (applyVault_holds (P := fun _ => True)
      (fun vault => p.processVaultSecrets_leadsTo vault s)
      fun _ _ h _ => h).conseq (fun _ h => ⟨h, trivial⟩) (fun _ _ h => h.1) fun _ _ h => h
  · exact hw.remembers (List.mem_singleton_self _)
      (fun s' hs' _ => Option.some.inj (List.mem_singleton.mp hs')) rfl

namespace MonitoringResourceProvider

variable (p : MonitoringResourceProvider)

/-- No name stands for two of the Secrets of Monitoring. -/
def DistinctSecrets : Prop := ∀ n ∈ p.backupDaemonSecretName, n ≠ p.spec.secretName

theorem ne_empty_of_mem {n : String} (h : n ∈ p.backupDaemonSecretName) : n ≠ "" := by
  obtain ⟨backupDaemon, -, h⟩ := Option.bind_eq_some_iff.mp h
  split at h <;> cases h
  assumption

/-- The Secrets in hand are as they are stored. -/
structure Holds (other : Option Secret) (secret : Secret) (w : World) : Prop where
  own : HoldsOwn p.spec.secretName secret w
  other : HoldsOther p.backupDaemonSecretName other w

theorem aboutSecrets_holds (other : Option Secret) (secret : Secret) :
    AboutSecrets (p.Holds other secret) :=
  fun w w' h ht =>
    ⟨aboutSecrets_holdsOwn _ secret w w' h.own ht, h.other.of_touches ht fun _ _ h => h⟩

variable {p} in
/-- Watching the other Secret leaves the own one alone. -/
theorem watchOtherSecret_holds (h : p.DistinctSecrets) (secret : Secret) :
    Triple (HoldsOwn p.spec.secretName secret) (watchOtherSecret p.backupDaemonSecretName p.cr)
      (fun other => p.Holds other secret) fun _ _ => True := by
  have htouch := watchOtherSecret_touches (F := ⟨∅, ∅, {n | n ∈ p.backupDaemonSecretName}, ∅⟩)
    p.cr fun n hn => hn
  refine ((htouch.triple fun w w' (hw : HoldsOwn p.spec.secretName secret w) ht =>
    hw.of_get?_eq (ht.get? fun hmem => h _ hmem rfl)).and
    (Operator.watchOtherSecret_holds _ p.cr)).conseq (fun _ h => ⟨h, trivial⟩)
    (fun _ _ h => ⟨h.1, h.2⟩) fun _ _ _ => trivial

variable {p} in
/-- Vault's part of Monitoring's pass keeps its Secrets at hand. -/
theorem applyVault_holds (h : p.DistinctSecrets) (other : Option Secret) (secret : Secret) :
    Triple (p.Holds other secret) (p.applyVault secret) (p.Holds other) fun _ _ => True := by
  refine (Operator.applyVault_holds (P := HoldsOther p.backupDaemonSecretName other)
    (fun vault => p.processVaultSecrets_leadsTo vault secret) fun w w' hw ht =>
      hw.of_touches ht fun n hn hmem => h n hn hmem).conseq (fun _ hw => ⟨hw.own, hw.other⟩)
    (fun _ _ hw => ⟨hw.1, hw.2⟩) fun _ _ h => h

variable {p} in
/-- A pass of Monitoring that returns has remembered the versions of its Secrets. -/
theorem reconcile_remembersSecrets (h : p.DistinctSecrets) :
    Triple (fun _ => True) p.reconcile (fun _ w => Remembers p.spec.secretName w ∧
      ∀ n ∈ p.backupDaemonSecretName, Remembers n w) fun _ _ => True := by
  refine p.reconcile_triple p.aboutSecrets_holds p.aboutSecrets_holds (fun _ _ _ _ => trivial)
    (fun _ _ _ _ => trivial) (watchOwnSecret_holds _ p.cr) (watchOtherSecret_holds h)
    (fun s o => testChanged_triple (fun _ h _ => ⟨h.own, h.other⟩) fun _ h _ => ⟨h.own, h.other⟩)
    (applyVault_holds h) fun s other w hw => ?_
  refine ⟨hw.own.remembers (by simp) (fun s' hs' hname => ?_) rfl, fun n hn => ?_⟩
  · rcases List.mem_cons.mp hs' with hs' | hs'
    · exact Option.some.inj hs'
    · obtain rfl := List.mem_singleton.mp hs'
      exact absurd hname (h _ hw.other.name_eq)
  · have hholds : HoldsOther (some n) other w := by
      rw [← show p.backupDaemonSecretName = some n from hn]
      exact hw.other
    refine hholds.remembers (by simp) (fun s' hs' hname => ?_) rfl
    rcases List.mem_cons.mp hs' with hs' | hs'
    · obtain rfl := Option.some.inj hs'
      rcases hw.own.name_or with hempty | hown
      · exact absurd (hname.symm.trans hempty) (p.ne_empty_of_mem hn)
      · exact absurd (hname.symm.trans hown) (h n hn)
    · exact List.mem_singleton.mp hs'

end MonitoringResourceProvider

namespace BackupDaemonResourceProvider

variable (p : BackupDaemonResourceProvider)

/-- No name stands for two of the Secrets of the backup daemon. -/
structure DistinctSecrets : Prop where
  s3 : ∀ n ∈ p.s3SecretName, n ≠ p.spec.secretName ∧ n ≠ p.getS3AliasesSecretName
  aliases : p.getS3AliasesSecretName ≠ p.spec.secretName

theorem ne_empty_of_mem {n : String} (h : n ∈ p.s3SecretName) : n ≠ "" := by
  obtain ⟨s3, -, h⟩ := Option.bind_eq_some_iff.mp h
  split at h <;> cases h
  assumption

theorem getS3AliasesSecretName_ne_empty : p.getS3AliasesSecretName ≠ "" := by
  intro h
  have hlength := congrArg String.length h
  simp only [getS3AliasesSecretName, s3AliasesSecretName, String.length_append] at hlength
  exact absurd (Nat.eq_zero_of_add_eq_zero_left hlength) (by decide)

/-- The lookup of the aliases cannot fail, or there is nothing to be found. -/
def AliasesSeen (w : World) : Prop :=
  w.faults = [] ∨ w.get? .secret p.getS3AliasesSecretName = none

instance (w : World) : Decidable (p.AliasesSeen w) := inferInstanceAs (Decidable (_ ∨ _))

variable {p} in
/-- The Secret with the aliases stays in sight while it is not written. -/
theorem AliasesSeen.of_touches {T : Set Field} {w w' : World} (h : p.AliasesSeen w)
    (ht : Touches T w w') (hT : .object .secret p.getS3AliasesSecretName ∉ T) :
    p.AliasesSeen w' := by
  rcases h with h | h
  · exact .inl (List.suffix_nil.mp (h ▸ ht.evolves.faults))
  · exact .inr ((ht.get? hT).trans h)

/-- The Secrets in hand are as they are stored. The lookup of the aliases may have failed, unless
it is `sure` that it has not. -/
structure Holds (sure : Prop) (s3 aliases : Option Secret) (secret : Secret) (w : World) :
    Prop where
  own : HoldsOwn p.spec.secretName secret w
  s3 : HoldsOther p.s3SecretName s3 w
  found : aliases = none ∨ HoldsOther (some p.getS3AliasesSecretName) aliases w
  answered : sure → HoldsOther (some p.getS3AliasesSecretName) aliases w

variable {p} {sure : Prop}

theorem Holds.of_touches {T : Set Field} {s3 aliases : Option Secret}
    {secret : Secret} {w w' : World}
    (h : p.Holds sure s3 aliases secret w) (ht : Touches T w w')
    (hT : ∀ n, .object .secret n ∉ T) : p.Holds sure s3 aliases secret w' where
  own := h.own.of_get?_eq (ht.get? (hT _))
  s3 := h.s3.of_touches ht fun n _ => hT n
  found := h.found.imp_right fun h => h.of_touches ht fun n _ => hT n
  answered hsure := (h.answered hsure).of_touches ht fun n _ => hT n

theorem aboutSecrets_holds (s3 aliases : Option Secret) (secret : Secret) :
    AboutSecrets (p.Holds sure s3 aliases secret) :=
  fun _ _ h ht => h.of_touches ht fun _ h => h

variable (sure) in
/-- Watching the daemon's own Secret does not touch the aliases. -/
theorem watchOwnSecret_holds (h : p.DistinctSecrets) :
    Triple (fun w => sure → p.AliasesSeen w) (watchOwnSecret p.spec.secretName p.cr)
      (fun secret w => HoldsOwn p.spec.secretName secret w ∧ (sure → p.AliasesSeen w))
      fun _ _ => True := by
  have htouch := watchOwnSecret_writes (T := {.object .secret p.spec.secretName}) p.cr
    ⟨rfl, by simp⟩
  refine ((Operator.watchOwnSecret_holds _ p.cr).and (htouch.triple fun w w'
    (hw : sure → p.AliasesSeen w) ht hsure => (hw hsure).of_touches ht ?_)).conseq
    (fun _ h => ⟨trivial, h⟩) (fun _ _ h => h) fun _ _ _ => trivial
  simpa using h.aliases

variable (sure) in
/-- Watching the Secret of the S3 store leaves the others alone. -/
theorem watchOtherSecret_holds (h : p.DistinctSecrets) (secret : Secret) :
    Triple (fun w => HoldsOwn p.spec.secretName secret w ∧ (sure → p.AliasesSeen w))
      (watchOtherSecret p.s3SecretName p.cr)
      (fun s3 w => (HoldsOwn p.spec.secretName secret w ∧ HoldsOther p.s3SecretName s3 w) ∧
        (sure → p.AliasesSeen w)) fun _ _ => True := by
  have htouch := watchOtherSecret_touches (F := ⟨∅, ∅, {n | n ∈ p.s3SecretName}, ∅⟩) p.cr
    fun n hn => hn
  refine ((htouch.triple fun w w' (hw : HoldsOwn p.spec.secretName secret w ∧
    (sure → p.AliasesSeen w)) ht => ?_).and (Operator.watchOtherSecret_holds _ p.cr)).conseq
    (fun _ h => ⟨h, trivial⟩) (fun _ _ h => ⟨⟨h.1.1, h.2⟩, h.1.2⟩) fun _ _ _ => trivial
  exact ⟨hw.1.of_get?_eq (ht.get? fun hmem => (h.s3 _ hmem).1 rfl), fun hsure =>
    (hw.2 hsure).of_touches ht fun hmem => (h.s3 _ hmem).2 rfl⟩

/-- The aliases that were found are the stored ones. -/
theorem findS3Aliases_holds (s3 : Option Secret) (secret : Secret) :
    Triple (fun w => (HoldsOwn p.spec.secretName secret w ∧ HoldsOther p.s3SecretName s3 w) ∧
        (sure → p.AliasesSeen w)) p.findS3Aliases
      (fun aliases => p.Holds sure s3 aliases secret) fun _ _ => True := by
  intro w hw
  have hlook : Within (Touches ∅) (clientGet .secret p.getS3AliasesSecretName) :=
    clientGet_touches _ _
  rcases hrun : clientGet .secret p.getS3AliasesSecretName w with ⟨s, t⟩ | ⟨e, t⟩
  · have hmap : (some <$> clientGet .secret p.getS3AliasesSecretName) w = .ok (some s) t :=
      bind_ok hrun
    have hfound : HoldsOther (some p.getS3AliasesSecretName) (some s) t :=
      (clientGet_finds hrun).symm
    rw [findS3Aliases, recover_ok hmap]
    exact ⟨hw.1.1.of_get?_eq ((hlook.ok hrun).get? (Set.notMem_empty _)),
      hw.1.2.of_touches (hlook.ok hrun) fun _ _ => Set.notMem_empty _, .inr hfound, fun _ => hfound⟩
  · have hmap : (some <$> clientGet .secret p.getS3AliasesSecretName) w = .raised e t :=
      bind_raised hrun
    have hkept := hlook.raised hrun
    by_cases he : e.isPanic = true
    · rw [findS3Aliases, recover_unhandled hmap (if_pos he)]
      trivial
    · rw [findS3Aliases, recover_handled hmap (if_neg he)]
      refine ⟨hw.1.1.of_get?_eq (hkept.get? (Set.notMem_empty _)),
        hw.1.2.of_touches hkept fun _ _ => Set.notMem_empty _, .inl rfl, fun hsure => ?_⟩
      rcases hw.2 hsure with hcalm | hnone
      · exact (clientGet_raised_of_calm hcalm hrun).symm
      · exact ((hkept.get? (Set.notMem_empty _)).trans hnone).symm

/-- Vault's part of the daemon's pass keeps its Secrets at hand. -/
theorem applyVault_holds (h : p.DistinctSecrets) (s3 aliases : Option Secret) (secret : Secret) :
    Triple (p.Holds sure s3 aliases secret) (p.applyVault secret) (p.Holds sure s3 aliases)
      fun _ _ => True := by
  refine (Operator.applyVault_holds (P := fun w => HoldsOther p.s3SecretName s3 w ∧
    (aliases = none ∨ HoldsOther (some p.getS3AliasesSecretName) aliases w) ∧
    (sure → HoldsOther (some p.getS3AliasesSecretName) aliases w))
    (fun vault => p.processVaultSecrets_leadsTo vault secret) fun w w' hw ht => ?_).conseq
    (fun _ hw => ⟨hw.own, hw.s3, hw.found, hw.answered⟩)
    (fun _ _ hw => ⟨hw.1, hw.2.1, hw.2.2.1, hw.2.2.2⟩) fun _ _ h => h
  have haliases : ∀ n ∈ some p.getS3AliasesSecretName,
      Field.object .secret n ∉ ownFields p.spec.secretName := by
    rintro n ⟨⟩ hmem
    exact h.aliases hmem
  exact ⟨hw.1.of_touches ht fun n hn hmem => (h.s3 n hn).1 hmem,
    hw.2.1.imp_right fun hw => hw.of_touches ht haliases,
    fun hsure => (hw.2.2 hsure).of_touches ht haliases⟩

/-- Whichever of the Secrets in hand has a name, it is the one that was looked for. -/
theorem Holds.unique (h : p.DistinctSecrets) {s3 aliases : Option Secret} {secret s : Secret}
    {w : World} (hw : p.Holds sure s3 aliases secret w) (hs : some s ∈ [some secret, s3, aliases]) :
    (s.metadata.name = p.spec.secretName → s = secret) ∧
      (∀ n ∈ p.s3SecretName, s.metadata.name = n → some s = s3) ∧
      (s.metadata.name = p.getS3AliasesSecretName → some s = aliases) := by
  have hempty := p.getS3AliasesSecretName_ne_empty
  simp only [List.mem_cons, List.not_mem_nil, or_false] at hs
  rcases hs with hs | hs | hs
  · obtain rfl := Option.some.inj hs
    refine ⟨fun _ => rfl, fun n hn hname => ?_, fun hname => ?_⟩ <;>
      rcases hw.own.name_or with h' | h' <;> rw [hname] at h'
    · exact absurd h' (p.ne_empty_of_mem hn)
    · exact absurd h' (h.s3 n hn).1
    · exact absurd h' hempty
    · exact absurd h' h.aliases
  · subst hs
    have hmem := hw.s3.name_eq
    exact ⟨fun hname => absurd hname (h.s3 _ hmem).1, fun _ _ _ => rfl,
      fun hname => absurd hname (h.s3 _ hmem).2⟩
  · subst hs
    have hname' := Option.some.inj (hw.found.resolve_left (Option.some_ne_none _)).name_eq
    refine ⟨fun hname => absurd (hname'.trans hname) h.aliases, fun n hn hname => ?_, fun _ => rfl⟩
    exact absurd (hname.symm.trans hname'.symm) (h.s3 n hn).2

/-- A pass of the backup daemon that returns has remembered the versions of its Secrets; for the
aliases this takes that their lookup does not fail. -/
theorem reconcile_remembersSecrets (h : p.DistinctSecrets) :
    Triple (fun w => sure → p.AliasesSeen w) p.reconcile
      (fun _ w => Remembers p.spec.secretName w ∧ (∀ n ∈ p.s3SecretName, Remembers n w) ∧
        (sure → Remembers p.getS3AliasesSecretName w)) fun _ _ => True := by
  refine p.reconcile_triple aboutSecrets_holds aboutSecrets_holds (fun _ _ _ _ _ => trivial)
    (fun _ _ _ _ _ => trivial) (watchOwnSecret_holds sure h) (watchOtherSecret_holds sure h)
    (fun s o => findS3Aliases_holds o s)
    (fun s o a => testChanged_triple (fun _ h _ => ⟨h.own, h.s3, h.found, h.answered⟩)
      fun _ h _ => ⟨h.own, h.s3, h.found, h.answered⟩)
    (applyVault_holds h) fun s s3 aliases w hw => ?_
  refine ⟨hw.own.remembers (by simp) (fun s' hs' => (hw.unique h hs').1) rfl, fun n hn => ?_,
    fun hsure => ?_⟩
  · have hholds : HoldsOther (some n) s3 w := by
      rw [← show p.s3SecretName = some n from hn]
      exact hw.s3
    exact hholds.remembers (by simp) (fun s' hs' => (hw.unique h hs').2.1 n hn) rfl
  · exact (hw.answered hsure).remembers (by simp) (fun s' hs' => (hw.unique h hs').2.2) rfl

end BackupDaemonResourceProvider

/-! ## The names of the Secrets -/

namespace Reconciler

/-- The names of the Secrets in the change test of a component. -/
def secretNames : Reconciler → List String
  | zooKeeper p => [p.spec.secretName]
  | monitoring p => p.spec.secretName :: p.backupDaemonSecretName.toList
  | backupDaemon p => p.spec.secretName :: (p.s3SecretName.toList ++ [p.getS3AliasesSecretName])
  | integrationTests _ => []

/-- The Secret that is looked up without minding why the lookup fails. -/
def aliasesName : Reconciler → Option String
  | backupDaemon p => some p.getS3AliasesSecretName
  | _ => none

/-- The lookup of the aliases cannot fail, or there is nothing to be found. -/
def AliasesSeen (w : World) : Reconciler → Prop
  | backupDaemon p => p.AliasesSeen w
  | _ => True

instance (w : World) : (r : Reconciler) → Decidable (r.AliasesSeen w)
  | backupDaemon p => inferInstanceAs (Decidable (p.AliasesSeen w))
  | zooKeeper _ | monitoring _ | integrationTests _ => .isTrue trivial

/-- No name stands for two Secrets. A Secret without a name is none. -/
def DistinctSecrets (r : Reconciler) : Prop := (r.secretNames.filter (· ≠ "")).Nodup

/-- The footprint of a component has the Secrets of its change test in it. -/
theorem mem_footprint_secrets (r : Reconciler) (n : String) :
    n ∈ r.footprint.secrets ↔ n ∈ r.secretNames := by
  cases r with
  | zooKeeper p => simp [footprint, secretNames, ZooKeeperResourceProvider.footprint]
  | monitoring p => simp [footprint, secretNames, MonitoringResourceProvider.footprint]
  | backupDaemon p => simp [footprint, secretNames, BackupDaemonResourceProvider.footprint]
  | integrationTests tests => simp [footprint, secretNames]

theorem DistinctSecrets.monitoring {p : MonitoringResourceProvider}
    (h : (Reconciler.monitoring p).DistinctSecrets) : p.DistinctSecrets := by
  intro n hn heq
  have hne := p.ne_empty_of_mem hn
  rw [DistinctSecrets, secretNames, show p.backupDaemonSecretName = some n from hn, ← heq] at h
  simp [hne] at h

theorem DistinctSecrets.backupDaemon {p : BackupDaemonResourceProvider}
    (h : (Reconciler.backupDaemon p).DistinctSecrets) : p.DistinctSecrets := by
  have haliases := p.getS3AliasesSecretName_ne_empty
  refine ⟨fun n hn => ?_, fun heq => ?_⟩
  · have hne := p.ne_empty_of_mem hn
    rw [DistinctSecrets, secretNames, show p.s3SecretName = some n from hn] at h
    refine ⟨fun heq => ?_, fun heq => ?_⟩
    · simp [← heq, hne] at h
    · simp only [List.filter_cons, ← heq, Option.toList_some, List.cons_append,
        List.nil_append] at h
      split at h <;> simp [hne] at h
  · simp [DistinctSecrets, secretNames, ← heq, haliases] at h

/-- **A pass that returns has remembered every Secret it has watched.** -/
theorem reconcile_remembersSecrets (r : Reconciler) (sure : Prop) (h : r.DistinctSecrets) :
    Triple (fun w => sure → r.AliasesSeen w) r.reconcile
      (fun _ w => ∀ n ∈ r.secretNames, (n ∈ r.aliasesName → sure) → Remembers n w)
      fun _ _ => True := by
  cases r with
  | zooKeeper p =>
    refine p.reconcile_remembersSecrets.conseq (fun _ _ => trivial) (fun _ w hw n hn _ => ?_)
      fun _ _ h => h
    rw [List.mem_singleton.mp hn]
    exact hw
  | monitoring p =>
    refine (MonitoringResourceProvider.reconcile_remembersSecrets h.monitoring).conseq
      (fun _ _ => trivial) (fun _ w hw n hn _ => ?_) fun _ _ h => h
    rcases List.mem_cons.mp hn with rfl | hn
    · exact hw.1
    · exact hw.2 n (Option.mem_toList.mp hn)
  | backupDaemon p =>
    refine (BackupDaemonResourceProvider.reconcile_remembersSecrets h.backupDaemon).conseq
      (fun _ h => h) (fun _ w hw n hn hsure => ?_) fun _ _ h => h
    simp only [secretNames, List.mem_cons, List.mem_append, Option.mem_toList, List.not_mem_nil,
      or_false] at hn
    rcases hn with rfl | hn | rfl
    · exact hw.1
    · exact hw.2.1 n hn
    · exact hw.2.2 (hsure rfl)
  | integrationTests tests => exact triple_pure fun _ _ n hn => absurd hn List.not_mem_nil

end Reconciler

end QubershipZookeeper.Operator
