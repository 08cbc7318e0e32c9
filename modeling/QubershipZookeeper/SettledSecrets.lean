import QubershipZookeeper.WatchedSecrets
import QubershipZookeeper.Restarts

/-!
# Secrets at rest

What a pass that returns leaves behind: the Secrets of the component have the custom resource as
their owner, so that watching them again changes nothing, and the Deployments have the marks of
their versions. Then what the passes of the other components do to a Secret they share.
-/

namespace QubershipZookeeper.Operator

open Proc

/-! ## Owners -/

section Owners

variable {cr : ZooKeeperService}

/-- The owners that `watchSecret` starts from: with another controller, none. -/
def watchedOwners (cr : ZooKeeperService) (owners : List OwnerReference) : List OwnerReference :=
  match getControllerOf owners with
  | some existing =>
    if referSameObject existing.name existing.apiVersion existing.kind cr.name cr.apiVersion cr.kind
    then owners else []
  | none => owners

/-- The metadata that `watchSecret` stores. -/
def watchedMetadata (cr : ZooKeeperService) (m : ObjectMeta) : Except GoError ObjectMeta :=
  setControllerReference cr { m with ownerReferences := watchedOwners cr m.ownerReferences }

/-- Watching is getting the Secret, giving it its owner, and storing it. -/
theorem watchSecret_eq (n : String) (cr : ZooKeeperService) : watchSecret n cr = (do
    let secret ← clientGet .secret n
    let m ← lift (watchedMetadata cr secret.metadata)
    updateSecret { secret with metadata := m }) := rfl

/-- The custom resource carries the group and the kind that its references have. -/
def ZooKeeperService.Identified (cr : ZooKeeperService) : Prop :=
  referSameObject cr.name "netcracker.com/v1" "ZooKeeperService" cr.name
    cr.apiVersion cr.kind = true

instance (cr : ZooKeeperService) : Decidable cr.Identified := inferInstanceAs (Decidable (_ = _))

/-- With these owners, watching a Secret has nothing to do. -/
structure OwnedBy (cr : ZooKeeperService) (owners : List OwnerReference) : Prop where
  kept : watchedOwners cr owners = owners
  allowed : ∀ e, getControllerOf owners = some e → e.same (controllerReference cr) = true
  listed : upsertOwnerRef (controllerReference cr) owners = owners

/-- An owner is set unless there is another controller. -/
theorem setControllerReference_of_allowed {m : ObjectMeta}
    (h : ∀ e, getControllerOf m.ownerReferences = some e → e.same (controllerReference cr) = true) :
    setControllerReference cr m = .ok { m with
      ownerReferences := upsertOwnerRef (controllerReference cr) m.ownerReferences } := by
  unfold setControllerReference
  dsimp only
  split
  next e he => rw [if_pos (h e he)]
  next => rfl

/-- If the owner could be set, it is among the owners now, and no other controller was. -/
theorem setControllerReference_ok_inv {m m' : ObjectMeta}
    (h : setControllerReference cr m = .ok m') :
    m'.ownerReferences = upsertOwnerRef (controllerReference cr) m.ownerReferences ∧
      ∀ e, getControllerOf m.ownerReferences = some e → e.same (controllerReference cr) = true := by
  unfold setControllerReference at h
  dsimp only at h
  split at h
  next e he =>
    split at h <;> cases h
    next hsame =>
      refine ⟨rfl, fun e' he' => ?_⟩
      obtain rfl := Option.some.inj (he.symm.trans he')
      exact hsame
  next hnone =>
    cases h
    exact ⟨rfl, fun e he => by cases hnone.symm.trans he⟩

/-- A Secret that has its owner is stored as it is. -/
theorem OwnedBy.watchedMetadata {m : ObjectMeta} (h : OwnedBy cr m.ownerReferences) :
    watchedMetadata cr m = .ok m := by
  rw [Operator.watchedMetadata, h.kept, setControllerReference_of_allowed h.allowed, h.listed]

theorem same_controllerReference (cr : ZooKeeperService) :
    (controllerReference cr).same (controllerReference cr) = true := by
  have hgroup : parseGroup "netcracker.com/v1" = some "netcracker.com" := by decide
  simp [OwnerReference.same, controllerReference, referSameObject, hgroup]

/-- Setting an owner twice is setting it once. -/
theorem upsertOwnerRef_upsertOwnerRef (cr : ZooKeeperService) (owners : List OwnerReference) :
    upsertOwnerRef (controllerReference cr) (upsertOwnerRef (controllerReference cr) owners) =
      upsertOwnerRef (controllerReference cr) owners := by
  induction owners with
  | nil => exact if_pos (same_controllerReference cr)
  | cons owner owners ih =>
    by_cases hsame : (controllerReference cr).same owner = true
    · rw [upsertOwnerRef, if_pos hsame, upsertOwnerRef, if_pos (same_controllerReference cr)]
    · rw [upsertOwnerRef, if_neg hsame, upsertOwnerRef, if_neg hsame, ih]

/-- The controller afterwards: the custom resource, or whoever it was before. -/
theorem getControllerOf_upsertOwnerRef (cr : ZooKeeperService) (owners : List OwnerReference) :
    ∃ e, getControllerOf (upsertOwnerRef (controllerReference cr) owners) = some e ∧
      (e = controllerReference cr ∨ getControllerOf owners = some e) := by
  induction owners with
  | nil => exact ⟨_, rfl, .inl rfl⟩
  | cons owner owners ih =>
    by_cases hsame : (controllerReference cr).same owner = true
    · rw [upsertOwnerRef, if_pos hsame]
      exact ⟨_, rfl, .inl rfl⟩
    · rw [upsertOwnerRef, if_neg hsame]
      by_cases hcontroller : owner.controller = true
      · exact ⟨owner, List.find?_cons_of_pos hcontroller, .inr (List.find?_cons_of_pos hcontroller)⟩
      · obtain ⟨e, he, hcases⟩ := ih
        refine ⟨e, (List.find?_cons_of_neg hcontroller).trans he, hcases.imp_right fun h => ?_⟩
        exact (List.find?_cons_of_neg hcontroller).trans h

/-- A Secret that has been watched need not be watched again. -/
theorem ownedBy_of_watchedMetadata (hcr : cr.Identified) {m m' : ObjectMeta}
    (h : watchedMetadata cr m = .ok m') : OwnedBy cr m'.ownerReferences := by
  obtain ⟨howners, hallowed⟩ := setControllerReference_ok_inv h
  dsimp only at howners hallowed
  obtain ⟨e, he, hcases⟩ := getControllerOf_upsertOwnerRef cr (watchedOwners cr m.ownerReferences)
  rw [← howners] at he
  -- the controller passes the check of `watchSecret`, either way
  have hsame : e.same (controllerReference cr) = true ∧
      referSameObject e.name e.apiVersion e.kind cr.name cr.apiVersion cr.kind = true := by
    rcases hcases with rfl | hbefore
    · exact ⟨same_controllerReference cr, hcr⟩
    · refine ⟨hallowed e hbefore, ?_⟩
      unfold watchedOwners at hbefore
      split at hbefore
      next existing hexisting =>
        split at hbefore
        next hcheck =>
          obtain rfl := Option.some.inj (hexisting.symm.trans hbefore)
          exact hcheck
        next => cases hbefore
      next hnone => cases hnone.symm.trans hbefore
  refine ⟨?_, fun e' he' => ?_, ?_⟩
  · rw [watchedOwners, he]
    exact if_pos hsame.2
  · obtain rfl := Option.some.inj (he.symm.trans he')
    exact hsame.1
  · rw [howners]
    exact upsertOwnerRef_upsertOwnerRef cr _

end Owners

/-! ## Watching again -/

/-- Watching the Secret with a name has nothing to do. -/
def Watched (cr : ZooKeeperService) (n : String) (w : World) : Prop :=
  ∀ s, w.get? .secret n = some s → OwnedBy cr s.metadata.ownerReferences

section Watching

variable {cr : ZooKeeperService} {P : World → Prop}

/-- A Secret that has its owner keeps it while it is not written. -/
theorem Watched.of_touches {T : Set Field} {n : String} {w w' : World} (h : Watched cr n w)
    (ht : Touches T w w') (hT : .object .secret n ∉ T) : Watched cr n w' := by
  intro s hs
  rw [ht.get? hT] at hs
  exact h s hs

/-- Storing what is stored changes nothing. -/
theorem clientUpdate_idle (hP : Stable P) {s : Secret}
    (h : ∀ w, P w → w.get? .secret s.metadata.name = some s) :
    Triple P (clientUpdate .secret s) (fun _ => P) fun _ => P := by
  refine request_triple hP (fun w hw => ?_) (fun _ hw => hw) fun _ _ hw => hw
  rw [show w.get? .secret (Kind.name .secret s) = some s from h w hw]
  dsimp only
  rw [if_pos (show Kind.accept .secret (Kind.metadata .secret s).resourceVersion s = s from rfl)]
  exact hw

/-- Watching such a Secret writes nothing: an update without a change keeps the version. -/
theorem watchSecret_idle (hP : Stable P) {n : String} (h : ∀ w, P w → Watched cr n w) :
    Triple P (watchSecret n cr) (fun _ => P) fun _ => P := by
  have hfound (secret : Secret) : Stable fun w => P w ∧ w.get? .secret n = some secret :=
    fun w w' ht hw => ⟨hP w w' ht hw.1, (ht.get? (Set.notMem_empty _)).trans hw.2⟩
  rw [watchSecret_eq]
  refine (clientGet_triple hP .secret n).bind fun secret w hw => ?_
  have hname : secret.metadata.name = n := Store.name_of_get? hw.2
  have hmetadata := (h w hw.1 secret hw.2).watchedMetadata
  rw [hmetadata, lift_ok, pure_bind]
  refine Triple.bind (P := fun w => P w ∧ w.get? .secret n = some secret)
    (Q := fun _ w => P w ∧ w.get? .secret n = some secret) ?_ (fun _ => ?_) w hw
  · exact (clientGet_triple (hfound secret) .secret _).conseq (fun _ h => h) (fun _ _ h => h.1)
      fun _ _ h => h.1
  · exact (clientUpdate_idle (hfound secret) fun w hw => hname ▸ hw.2).conseq (fun _ h => h)
      (fun _ _ h => h.1) fun _ _ h => h.1

theorem watchOwnSecret_idle (hP : Stable P) {n : String} (h : ∀ w, P w → Watched cr n w) :
    Triple P (watchOwnSecret n cr) (fun _ => P) fun _ => P := by
  refine (watchSecret_idle hP h).recover (fun e k hk => ?_) fun _ _ _ hw => hw
  split at hk <;> cases hk
  exact triple_pure fun _ hw => hw

theorem watchOtherSecret_idle (hP : Stable P) {secretName : Option String}
    (h : ∀ w, P w → ∀ n ∈ secretName, Watched cr n w) :
    Triple P (watchOtherSecret secretName cr) (fun _ => P) fun _ => P := by
  cases secretName with
  | none => exact triple_pure fun _ hw => hw
  | some n =>
    refine Triple.recover (E := fun _ => P)
      (Triple.bind (watchSecret_idle hP fun w hw => h w hw n rfl)
      fun s => triple_pure fun w hw => hw) (fun e k hk => ?_) fun _ _ _ hw => hw
    split at hk <;> cases hk
    exact triple_pure fun _ hw => hw

/-! ## What a pass leaves behind -/

/-- A Secret in hand has the custom resource as its owner, if it is there at all. -/
def InOrder (cr : ZooKeeperService) (s : Secret) : Prop :=
  s.metadata.name ≠ "" → OwnedBy cr s.metadata.ownerReferences

/-- A Secret that was watched has its owner. -/
theorem watchSecret_inOrder (hcr : cr.Identified) (n : String) :
    Yields (InOrder cr) (watchSecret n cr) := by
  rw [watchSecret_eq]
  refine yields_of_last fun secret => ?_
  refine (yields_lift fun m hm => ownedBy_of_watchedMetadata hcr hm).bind fun m hm => ?_
  refine yields_of_last fun _ w stored w' hrun _ => ?_
  obtain ⟨-, v, rfl⟩ := (clientUpdate_stores .secret { secret with metadata := m }).ok trivial hrun
  exact hm

theorem watchOwnSecret_inOrder (hcr : cr.Identified) (n : String) :
    Yields (InOrder cr) (watchOwnSecret n cr) :=
  (watchSecret_inOrder hcr n).recover_if fun _ => yields_pure fun hne => absurd rfl hne

theorem watchOtherSecret_inOrder (hcr : cr.Identified) (secretName : Option String) :
    Yields (fun o => ∀ s ∈ o, InOrder cr s) (watchOtherSecret secretName cr) := by
  cases secretName with
  | none => exact yields_pure (by rintro _ ⟨⟩)
  | some n =>
    refine Yields.recover_if ((watchSecret_inOrder hcr n).map ?_) fun _ =>
      yields_pure (by rintro _ ⟨⟩)
    rintro s hs _ ⟨⟩
    exact hs

theorem ownerReferences_cleanedSecret {s cleaned : Secret} (h : cleanedSecret s = .ok cleaned) :
    cleaned.metadata.ownerReferences = s.metadata.ownerReferences := by
  obtain ⟨-, rfl⟩ := cleanedSecret_ok_iff.mp h
  rfl

/-- Cleaning a Secret leaves its name and its owners alone. -/
theorem cleanSecret_inOrder (c : Component) {s : Secret} (hs : InOrder cr s) :
    Yields (InOrder cr) (cleanSecret c s) := by
  refine yields_of_last fun _ => ?_
  split
  next hneed =>
    refine (build_yields fun cleaned hcleaned => ownerReferences_cleanedSecret hcleaned).bind
      fun cleaned howners => ?_
    have hstores : Yields (fun stored => stored.metadata.ownerReferences =
        cleaned.metadata.ownerReferences) (clientUpdate .secret cleaned) := by
      intro w stored w' hrun
      obtain ⟨-, v, rfl⟩ := (clientUpdate_stores .secret cleaned).ok trivial hrun
      rfl
    refine hstores.bind fun stored hstored => yields_of_last fun _ => yields_pure fun _ => ?_
    rw [hstored, howners]
    exact hs (name_ne_of_needToCleanSecret hneed)
  next => exact yields_pure hs

/-- It has it still after Vault's part of a pass. -/
theorem applyVault_inOrder {c : Component} {secret : Secret} {vault? : Option VaultSecretManagement}
    {process : VaultSecretManagement → Op Secret}
    (hprocess : ∀ vault, LeadsTo (Touches credentialsFields) (process vault)
      (cleanSecret c secret)) :
    Triple (fun _ => InOrder cr secret) (vault?.elim (pure secret) process)
      (fun s' _ => InOrder cr s') fun _ _ => True := by
  refine applyVault_triple (E := fun _ => True) hprocess (fun _ _ h _ => h) (fun _ _ => trivial)
    (fun _ _ h => h) fun _ w hs => ?_
  rcases hrun : cleanSecret c secret w with ⟨s', w'⟩ | ⟨e, w'⟩
  · exact cleanSecret_inOrder c hs w s' w' hrun
  · trivial

/-- What is at hand with its owner is stored with its owner. -/
theorem HoldsOwn.watched {n : String} {s : Secret} {w : World} (h : HoldsOwn n s w) (hn : n ≠ "")
    (hs : InOrder cr s) : Watched cr n w := by
  intro s' hs'
  obtain rfl := h.eq_of_get? hs'
  exact hs fun hname => hn ((Store.name_of_get? hs').symm.trans hname)

theorem HoldsOther.watched {n : String} {o : Option Secret} {w : World}
    (h : HoldsOther (some n) o w) (hn : n ≠ "") (ho : ∀ s ∈ o, InOrder cr s) : Watched cr n w := by
  intro s hs
  refine ho s (h.trans hs) fun hname => hn ?_
  exact (Store.name_of_get? hs).symm.trans hname

end Watching

/-! ## The components -/

/-- The stored Deployment has the mark of the stored Secret, if both are there. -/
def Marks (name n : String) (w : World) : Prop :=
  ∀ d, w.get? .deployment name = some d → ∀ s, w.get? .secret n = some s →
    Marked d.templateAnnotations s

/-- Marks stay while neither the Deployment nor the Secret is written. -/
theorem Marks.of_touches {T : Set Field} {name n : String} {w w' : World} (h : Marks name n w)
    (ht : Touches T w w') (hdeployment : .object .deployment name ∉ T)
    (hsecret : .object .secret n ∉ T) : Marks name n w' := by
  intro d hd s hs
  rw [ht.get? hdeployment] at hd
  rw [ht.get? hsecret] at hs
  exact h d hd s hs

/-- Marking a Deployment keeps what is known about the Secrets. -/
theorem updateDeploymentSecretRestartAnnotations_marks_about {P : World → Prop}
    (hP : AboutSecrets P) {name : String} {secrets : List (Option Secret)}
    (hdistinct : ∀ w, P w → DistinctNames secrets) :
    Triple P (updateDeploymentSecretRestartAnnotations name secrets)
      (fun _ w => P w ∧ MarkedAt name secrets w) fun _ _ => True := by
  refine Triple.of_fact hdistinct fun hnames => ?_
  have hquiet : Triple P (updateDeploymentSecretRestartAnnotations name secrets)
      (fun _ => P) fun _ _ => True :=
    hP.triple (fun _ _ => trivial)
      (updateDeploymentSecretRestartAnnotations_touches _ ⟨trivial, fun _ => ⟨name, trivial⟩⟩)
  exact (hquiet.and (updateDeploymentSecretRestartAnnotations_marks name hnames)).conseq
    (fun _ hw => ⟨hw, trivial⟩) (fun _ _ hw => hw) fun _ _ _ => trivial

namespace ZooKeeperResourceProvider

variable {p : ZooKeeperResourceProvider}

/-- What a pass of ZooKeeper that returns leaves behind. -/
theorem reconcile_settles (hcr : p.cr.Identified) (hown : p.spec.secretName ≠ "") :
    Triple (fun _ => True) p.reconcile (fun _ w => Watched p.cr p.spec.secretName w ∧
      ∀ i ∈ p.serverIds, Marks (serverName p.cr.name i) p.spec.secretName w) fun _ _ => True := by
  let Held (s : Secret) (w : World) : Prop := HoldsOwn p.spec.secretName s w ∧ InOrder p.cr s
  have habout (s : Secret) : AboutSecrets (Held s) :=
    fun w w' h ht => ⟨aboutSecrets_holdsOwn _ s w w' h.1 ht, h.2⟩
  -- from the watch to the end of the pass the Secret at hand is the stored one, and has its owner
  refine p.reconcile_triple_marking (W := Held) (B := Held) (D := Held) (C := Held)
    (M := fun s w => Held s w ∧ ∀ i ∈ p.serverIds, MarkedAt (serverName p.cr.name i) [some s] w)
    habout habout (fun _ _ h => h) (fun _ _ _ => trivial)
    ((watchOwnSecret_holds _ p.cr).and_yields (watchOwnSecret_inOrder hcr _))
    (fun s => testChanged_triple (fun _ h _ => h) fun _ h _ => h) (fun s => ?_) (fun _ _ h _ => h)
    (fun s => ?_) fun s => triple_update fun w hw => ?_
  · have hholds : Triple (fun w => HoldsOwn p.spec.secretName s w ∧ True) (p.applyVault s)
        (fun s' w => HoldsOwn p.spec.secretName s' w ∧ True) fun _ _ => True :=
      applyVault_holds (fun vault => p.processVaultSecrets_leadsTo vault s) fun _ _ h _ => h
    exact (hholds.and (applyVault_inOrder fun vault =>
      p.processVaultSecrets_leadsTo vault s)).conseq (fun _ h => ⟨⟨h.1, trivial⟩, h.2⟩)
      (fun _ _ h => ⟨h.1.1, h.2⟩) fun _ _ _ => trivial
  · exact (((habout s).triple (fun _ _ => trivial) (p.markRestarts_touches s fun _ => trivial)).and
      (p.markRestarts_marks s)).conseq (fun _ h => ⟨h, trivial⟩) (fun _ _ h => h)
        fun _ _ _ => trivial
  · refine ⟨hw.1.1.watched hown hw.1.2, fun i hi d hd s' hs' => ?_⟩
    obtain rfl := hw.1.1.eq_of_get? hs'
    exact hw.2 i hi d hd s (List.mem_singleton_self _)

end ZooKeeperResourceProvider

namespace MonitoringResourceProvider

variable {p : MonitoringResourceProvider}

/-- The Secrets at hand have different names, so their marks do not get in each other's way. -/
theorem Holds.distinctNames (h : p.DistinctSecrets) {s : Secret} {o : Option Secret} {w : World}
    (hw : p.Holds o s w) : DistinctNames [some s, o] := by
  refine List.pairwise_pair.mpr ?_
  rintro _ ⟨⟩ s' hs' hasks hname
  obtain rfl : o = some s' := hs'
  have hmem := hw.other.name_eq
  rcases hw.own.name_or with hempty | hown
  · exact p.ne_empty_of_mem hmem (hname.symm.trans hempty)
  · exact h _ hmem (hname.symm.trans hown)

/-- What a pass of Monitoring that returns leaves behind. -/
theorem reconcile_settles (hcr : p.cr.Identified) (h : p.DistinctSecrets) :
    Triple (fun _ => True) p.reconcile (fun _ w => ∀ n ∈ (Reconciler.monitoring p).secretNames,
      n ≠ "" → Watched p.cr n w ∧ Marks p.getServiceName n w) fun _ _ => True := by
  let Held (o : Option Secret) (s : Secret) (w : World) : Prop :=
    p.Holds o s w ∧ InOrder p.cr s ∧ ∀ s' ∈ o, InOrder p.cr s'
  have habout (o : Option Secret) (s : Secret) : AboutSecrets (Held o s) :=
    fun w w' h ht => ⟨p.aboutSecrets_holds o s w w' h.1 ht, h.2⟩
  refine p.reconcile_triple_marking
    (W := fun s w => HoldsOwn p.spec.secretName s w ∧ InOrder p.cr s) (V := Held) (B := Held)
    (D := Held) (M := fun o s w => Held o s w ∧ MarkedAt p.getServiceName [some s, o] w)
    habout habout (fun _ _ _ _ => trivial) (fun _ _ _ _ => trivial)
    ((watchOwnSecret_holds _ p.cr).and_yields (watchOwnSecret_inOrder hcr _)) (fun s => ?_)
    (fun s o => testChanged_triple (fun _ hw _ => ⟨⟨hw.1.own, hw.1.other⟩, hw.2⟩)
      fun _ hw _ => ⟨⟨hw.1.own, hw.1.other⟩, hw.2⟩)
    (fun o s => ?_) (fun s o => ?_) fun s o => triple_update fun w hw n hn hne => ?_
  · exact ((watchOtherSecret_holds h s).and_yields (watchOtherSecret_inOrder hcr _)).carry.conseq
      (fun _ hw => hw) (fun _ _ hw => ⟨hw.1.1, hw.2, hw.1.2⟩) fun _ _ _ => trivial
  · have hordered : Triple (fun _ => InOrder p.cr s) (p.applyVault s)
        (fun s' _ => InOrder p.cr s') fun _ _ => True :=
      applyVault_inOrder fun vault => p.processVaultSecrets_leadsTo vault s
    exact ((applyVault_holds h o s).and hordered).carry.conseq
      (fun _ hw => ⟨⟨hw.1, hw.2.1⟩, hw.2.2⟩) (fun _ _ hw => ⟨hw.1.1, hw.1.2, hw.2⟩)
      fun _ _ _ => trivial
  · exact updateDeploymentSecretRestartAnnotations_marks_about (habout o s)
      fun _ hw => hw.1.distinctNames h
  · rcases List.mem_cons.mp hn with rfl | hn
    · refine ⟨hw.1.1.own.watched hne hw.1.2.1, fun d hd s' hs' => ?_⟩
      obtain rfl := hw.1.1.own.eq_of_get? hs'
      exact hw.2 d hd s (List.mem_cons_self ..)
    · have hholds : HoldsOther (some n) o w := by
        rw [← show p.backupDaemonSecretName = some n from Option.mem_toList.mp hn]
        exact hw.1.1.other
      refine ⟨hholds.watched hne hw.1.2.2, fun d hd s' hs' => hw.2 d hd s' ?_⟩
      have hfound : o = some s' := Eq.trans hholds hs'
      exact hfound ▸ List.mem_cons_of_mem _ (List.mem_singleton_self _)

end MonitoringResourceProvider

namespace BackupDaemonResourceProvider

variable {p : BackupDaemonResourceProvider} {sure : Prop}

theorem Holds.distinctNames (h : p.DistinctSecrets) {s : Secret} {o a : Option Secret} {w : World}
    (hw : p.Holds sure o a s w) : DistinctNames [some s, o, a] := by
  have hempty := p.getS3AliasesSecretName_ne_empty
  have haliases : ∀ s' ∈ a, s'.metadata.name = p.getS3AliasesSecretName := by
    rintro s' rfl
    exact (Option.some.inj (hw.found.resolve_left (Option.some_ne_none _)).name_eq).symm
  have hs3 : ∀ s' ∈ o, s'.metadata.name ∈ p.s3SecretName := by
    rintro s' rfl
    exact hw.s3.name_eq
  simp only [DistinctNames, List.pairwise_cons, List.mem_cons, List.not_mem_nil, or_false,
    forall_eq_or_imp, forall_eq, false_implies, implies_true, List.Pairwise.nil, and_true]
  refine ⟨⟨?_, ?_⟩, ?_⟩
  · rintro _ ⟨⟩ s' hs' - hname
    have hmem := hs3 s' hs'
    rcases hw.own.name_or with h' | h' <;> rw [hname] at h'
    · exact p.ne_empty_of_mem hmem h'
    · exact (h.s3 _ hmem).1 h'
  · rintro _ ⟨⟩ s' hs' - hname
    rw [haliases s' hs'] at hname
    rcases hw.own.name_or with h' | h' <;> rw [hname] at h'
    · exact hempty h'
    · exact h.aliases h'
  · rintro s' hs' s'' hs'' - hname
    rw [haliases s'' hs''] at hname
    exact (h.s3 _ (hs3 s' hs')).2 hname

variable (sure) in
/-- What a pass of the backup daemon that returns leaves behind. -/
theorem reconcile_settles (hcr : p.cr.Identified) (h : p.DistinctSecrets) :
    Triple (fun w => sure → p.AliasesSeen w) p.reconcile
      (fun _ w => (∀ n, n = p.spec.secretName ∨ n ∈ p.s3SecretName → n ≠ "" → Watched p.cr n w) ∧
        ∀ n ∈ (Reconciler.backupDaemon p).secretNames, n ≠ "" →
          (n = p.getS3AliasesSecretName → sure) → Marks p.getServiceName n w)
      fun _ _ => True := by
  let Held (o a : Option Secret) (s : Secret) (w : World) : Prop :=
    p.Holds sure o a s w ∧ InOrder p.cr s ∧ ∀ s' ∈ o, InOrder p.cr s'
  have habout (o a : Option Secret) (s : Secret) : AboutSecrets (Held o a s) :=
    fun w w' h ht => ⟨aboutSecrets_holds o a s w w' h.1 ht, h.2⟩
  refine p.reconcile_triple_marking
    (W := fun s w => (HoldsOwn p.spec.secretName s w ∧ (sure → p.AliasesSeen w)) ∧ InOrder p.cr s)
    (V := fun o s w => ((HoldsOwn p.spec.secretName s w ∧ HoldsOther p.s3SecretName o w) ∧
      (sure → p.AliasesSeen w)) ∧ InOrder p.cr s ∧ ∀ s' ∈ o, InOrder p.cr s')
    (U := Held) (B := Held) (D := Held)
    (M := fun o a s w => Held o a s w ∧ MarkedAt p.getServiceName [some s, o, a] w)
    habout habout (fun _ _ _ _ _ => trivial) (fun _ _ _ _ _ => trivial)
    ((watchOwnSecret_holds sure h).and_yields (watchOwnSecret_inOrder hcr _)) (fun s => ?_)
    (fun s o => ?_)
    (fun s o a => testChanged_triple
      (fun _ hw _ => ⟨⟨hw.1.own, hw.1.s3, hw.1.found, hw.1.answered⟩, hw.2⟩)
      fun _ hw _ => ⟨⟨hw.1.own, hw.1.s3, hw.1.found, hw.1.answered⟩, hw.2⟩)
    (fun o a s => ?_) (fun s o a => ?_) fun s o a => triple_update fun w hw => ⟨?_, ?_⟩
  · exact ((watchOtherSecret_holds sure h s).and_yields
      (watchOtherSecret_inOrder hcr _)).carry.conseq (fun _ hw => hw)
      (fun _ _ hw => ⟨hw.1.1, hw.2, hw.1.2⟩) fun _ _ _ => trivial
  · exact (findS3Aliases_holds o s).carry.conseq (fun _ hw => hw) (fun _ _ hw => hw)
      fun _ _ _ => trivial
  · have hordered : Triple (fun _ => InOrder p.cr s) (p.applyVault s)
        (fun s' _ => InOrder p.cr s') fun _ _ => True :=
      applyVault_inOrder fun vault => p.processVaultSecrets_leadsTo vault s
    exact ((applyVault_holds h o a s).and hordered).carry.conseq
      (fun _ hw => ⟨⟨hw.1, hw.2.1⟩, hw.2.2⟩) (fun _ _ hw => ⟨hw.1.1, hw.1.2, hw.2⟩)
      fun _ _ _ => trivial
  · exact updateDeploymentSecretRestartAnnotations_marks_about (habout o a s)
      fun _ hw => hw.1.distinctNames h
  · -- the aliases are only looked up, so nothing is said about their owner
    rintro n (rfl | hn) hne
    · exact hw.1.1.own.watched hne hw.1.2.1
    · have hholds : HoldsOther (some n) o w := by
        rw [← show p.s3SecretName = some n from hn]
        exact hw.1.1.s3
      exact hholds.watched hne hw.1.2.2
  · intro n hn hne hsure d hd s' hs'
    refine hw.2 d hd s' ?_
    simp only [Reconciler.secretNames, List.mem_cons, List.mem_append, Option.mem_toList,
      List.not_mem_nil, or_false] at hn
    rcases hn with rfl | hn | rfl
    · obtain rfl := hw.1.1.own.eq_of_get? hs'
      exact List.mem_cons_self ..
    · have hholds : HoldsOther (some n) o w := by
        rw [← show p.s3SecretName = some n from hn]
        exact hw.1.1.s3
      have hfound : o = some s' := Eq.trans hholds hs'
      simp [hfound]
    · have hfound : a = some s' := (hw.1.1.answered (hsure rfl)).trans hs'
      simp [hfound]

end BackupDaemonResourceProvider

/-! ## The Secret that Monitoring and the backup daemon share -/

/-- If the Secret has to be cleaned, then it does not ask for restarts. -/
def CalmSecret (n : String) (w : World) : Prop :=
  ∀ s ∈ w.get? .secret n, needToCleanSecret s = true → ¬ AsksRestart s

instance (n : String) (w : World) : Decidable (CalmSecret n w) :=
  inferInstanceAs (Decidable (∀ _ ∈ _, _))

/-- The annotations have the mark of the stored Secret. -/
def Stamped (annotations : Option StringMap) (n : String) (w : World) : Prop :=
  ∀ s, w.get? .secret n = some s → Marked annotations s

/-- A Secret that asks for no restarts stays so while it is not written. -/
theorem CalmSecret.of_touches {T : Set Field} {n : String} {w w' : World} (h : CalmSecret n w)
    (ht : Touches T w w') (hT : .object .secret n ∉ T) : CalmSecret n w' := by
  intro s hs
  rw [ht.get? hT] at hs
  exact h s hs

theorem Stamped.of_touches {T : Set Field} {annotations : Option StringMap} {n : String}
    {w w' : World} (h : Stamped annotations n w) (ht : Touches T w w')
    (hT : .object .secret n ∉ T) : Stamped annotations n w' := by
  intro s hs
  rw [ht.get? hT] at hs
  exact h s hs

/-- Another owner does not make a Secret less calm. -/
theorem CalmSecret.store {n : String} {w : World} {s : Secret} {m : ObjectMeta} (h : CalmSecret n w)
    (hs : w.get? .secret n = some s) (hname : m.name = n)
    (hannotations : m.annotations = s.metadata.annotations) :
    CalmSecret n (w.store .secret { s with metadata := m }) := by
  have hstored := w.get?_store_self .secret { s with metadata := m }
  rw [show Kind.name .secret { s with metadata := m } = n from hname] at hstored
  have hname' : m.name = s.metadata.name := hname.trans (Store.name_of_get? hs).symm
  intro s' hs' hneed hasks
  obtain rfl := Option.some.inj (hstored.symm.trans hs')
  refine h s hs ?_ ⟨hname' ▸ hasks.1, hannotations ▸ hasks.2⟩
  have hneed' : (m.name ≠ "" && (s.data.getD ∅ ≠ ∅ ||
      needToRefreshCredentials { s with metadata := m })) = true := hneed
  rw [needToCleanSecret, ← hname']
  simpa only [needToRefreshCredentials, hannotations] using hneed'

namespace MonitoringResourceProvider

variable {p : MonitoringResourceProvider}

/-- Monitoring only makes the custom resource the owner of the Secret. -/
theorem reconcile_calm (h : p.DistinctSecrets) {n : String} (hn : n ∈ p.backupDaemonSecretName) :
    Triple (CalmSecret n) p.reconcile (fun _ => CalmSecret n) fun _ _ => True := by
  have hstable : Stable (CalmSecret n) := fun w w' ht hw => hw.of_touches ht (Set.notMem_empty _)
  let Held (s : Secret) (w : World) : Prop := HoldsOwn p.spec.secretName s w ∧ CalmSecret n w
  have habout (s : Secret) : AboutSecrets (Held s) :=
    fun w w' hw ht => ⟨aboutSecrets_holdsOwn _ s w w' hw.1 ht, hw.2.of_touches ht id⟩
  refine p.reconcile_triple (W := Held) (B := fun _ => Held) (D := fun _ => Held)
    (fun _ => habout) (fun _ => habout) (fun _ _ _ _ => trivial) (fun _ _ _ _ => trivial) ?_
    (fun s => ?_) (fun s o => testChanged_triple (fun _ h _ => h) fun _ h _ => h) (fun o s => ?_)
    fun s o => triple_update fun _ h => h.2
  · have htouch := watchOwnSecret_writes (T := {.object .secret p.spec.secretName}) p.cr
      ⟨Set.mem_singleton _, by simp⟩
    refine ((watchOwnSecret_holds p.spec.secretName p.cr).and (htouch.triple
      fun w w' (hw : CalmSecret n w) ht => hw.of_touches ht ?_)).conseq (fun _ h => ⟨trivial, h⟩)
      (fun _ _ h => h) fun _ _ _ => trivial
    simpa using h n hn
  · -- watching gives the Secret another owner and leaves its annotations alone
    have hkeeps : Triple (CalmSecret n) (watchOtherSecret p.backupDaemonSecretName p.cr)
        (fun _ => CalmSecret n) fun _ _ => True := by
      rw [show p.backupDaemonSecretName = some n from hn]
      have hwatch : Triple (CalmSecret n) (watchSecret n p.cr) (fun _ => CalmSecret n)
          fun _ => CalmSecret n :=
        watchSecret_keeps hstable fun w s m hw hs hname hannotations =>
          hw.store hs hname hannotations
      refine Triple.recover (E := fun _ => CalmSecret n) (hwatch.bind fun _ => triple_pure
        fun _ hw => hw) (fun e k hk => ?_) fun _ _ _ _ => trivial
      split at hk <;> cases hk
      exact triple_pure fun _ hw => hw
    exact ((watchOtherSecret_holds h s).and hkeeps).conseq (fun _ h => h)
      (fun _ _ h => ⟨h.1.own, h.2⟩) fun _ _ _ => trivial
  · exact Operator.applyVault_holds (fun vault => p.processVaultSecrets_leadsTo vault s)
      fun w w' hw ht => hw.of_touches ht (h n hn)

end MonitoringResourceProvider

/-- Cleaning does not make a Secret ask for restarts. -/
theorem not_asksRestart_of_cleanedSecret {s cleaned : Secret} (h : cleanedSecret s = .ok cleaned)
    (hs : ¬ AsksRestart s) : ¬ AsksRestart cleaned := by
  obtain ⟨-, rfl⟩ := cleanedSecret_ok_iff.mp h
  refine fun hasks => hs ⟨hasks.1, ?_⟩
  have hother : autoRestartAnnotation ≠ refreshCredentialsAnnotation := by decide
  have hvalue : StringMap.get ((s.metadata.annotations.getD ∅).insert refreshCredentialsAnnotation
      "false") autoRestartAnnotation = "true" := hasks.2
  rw [StringMap.get, Finmap.lookup_insert_of_ne _ hother] at hvalue
  exact hvalue

/-- Cleaning a calm Secret leaves nothing to be marked. -/
theorem cleanSecret_stamped {annotations : Option StringMap} {n : String} (c : Component)
    (s : Secret) :
    Triple (fun w => HoldsOwn n s w ∧ Stamped annotations n w ∧ CalmSecret n w) (cleanSecret c s)
      (fun _ => Stamped annotations n) fun _ _ => True := by
  refine Triple.bind (Q := fun _ w => HoldsOwn n s w ∧ Stamped annotations n w ∧ CalmSecret n w)
    (triple_update fun _ hw => hw) fun _ w hw => ?_
  by_cases hneed : needToCleanSecret s = true
  · obtain ⟨hname, hstored⟩ := hw.1.name_eq (name_ne_of_needToCleanSecret hneed)
    have hquiet := hw.2.2 s hstored hneed
    rw [if_pos hneed]
    refine Triple.bind (P := fun _ => True) (Q := fun cleaned _ =>
      cleaned.metadata.name = n ∧ ¬ AsksRestart cleaned) (triple_build (fun cleaned _ hcleaned _ =>
        ⟨(name_cleanedSecret hcleaned).trans hname,
          not_asksRestart_of_cleanedSecret hcleaned hquiet⟩) fun _ _ _ => trivial)
      (fun cleaned => ?_) w trivial
    refine Triple.bind (Q := fun _ => Stamped annotations n) ?_ fun stored =>
      Triple.bind (Q := fun _ => Stamped annotations n) (triple_update fun _ hw => hw)
        fun _ => triple_pure fun _ hw => hw
    -- what is stored asks for no restart, so no mark can be missing
    rintro w ⟨rfl, hnot⟩
    have hstores := clientUpdate_stores .secret cleaned w trivial
    rcases hrun : clientUpdate .secret cleaned w with ⟨stored, t⟩ | ⟨e, t⟩
    · rw [hrun] at hstores
      obtain ⟨hget, v, rfl⟩ := hstores
      intro s' hs' hasks
      obtain rfl := Option.some.inj (hget.symm.trans hs')
      exact absurd hasks hnot
    · trivial
  · rw [if_neg hneed]
    exact hw.2.1

namespace BackupDaemonResourceProvider

variable {p : BackupDaemonResourceProvider}

/-- The backup daemon does not outdate the marks that others have put for its Secret: the Secret
has been watched before, and if it is cleaned then it does not ask for restarts. -/
theorem reconcile_stamped (h : p.DistinctSecrets) (annotations : Option StringMap) :
    Triple (fun w => Watched p.cr p.spec.secretName w ∧ Stamped annotations p.spec.secretName w ∧
        (p.cr.vault?.isSome → CalmSecret p.spec.secretName w)) p.reconcile
      (fun _ => Stamped annotations p.spec.secretName) fun _ _ => True := by
  set own := p.spec.secretName with hown
  let Safe (w : World) : Prop :=
    Stamped annotations own w ∧ (p.cr.vault?.isSome → CalmSecret own w)
  have hsafe {T : Set Field} {w w' : World} (hw : Safe w) (ht : Touches T w w')
      (hT : .object .secret own ∉ T) : Safe w' :=
    ⟨hw.1.of_touches ht hT, fun hon => (hw.2 hon).of_touches ht hT⟩
  let Held (s : Secret) (w : World) : Prop := HoldsOwn own s w ∧ Safe w
  have hheld {T : Set Field} {s : Secret} {w w' : World} (hw : Held s w) (ht : Touches T w w')
      (hT : .object .secret own ∉ T) : Held s w' :=
    ⟨hw.1.of_get?_eq (ht.get? hT), hsafe hw.2 ht hT⟩
  refine p.reconcile_triple (W := Held) (V := fun _ => Held) (U := fun _ _ => Held)
    (B := fun _ _ => Held) (D := fun _ _ _ => Stamped annotations own)
    (fun _ _ _ w w' hw ht => hheld hw ht id) (fun _ _ _ w w' hw ht => hw.of_touches ht id)
    (fun _ _ _ _ _ => trivial) (fun _ _ _ _ _ => trivial) ?_ (fun s => ?_) (fun s o => ?_)
    (fun s o a => testChanged_triple (fun _ hw _ => hw) fun _ hw _ => hw.2.1) (fun o a s => ?_)
    fun s o a => triple_update fun _ hw => hw
  · -- the Secret is watched already, so that watching it again writes nothing
    have hidle := watchOwnSecret_idle (P := fun w => Watched p.cr own w ∧ Safe w)
      (fun w w' ht hw => ⟨hw.1.of_touches ht (Set.notMem_empty _),
        hsafe hw.2 ht (Set.notMem_empty _)⟩) fun _ hw => hw.1
    exact ((Operator.watchOwnSecret_holds own p.cr).and hidle).conseq (fun _ h => ⟨trivial, h⟩)
      (fun _ _ h => ⟨h.1, h.2.2⟩) fun _ _ _ => trivial
  · have htouch := watchOtherSecret_touches (F := ⟨∅, ∅, {n | n ∈ p.s3SecretName}, ∅⟩) p.cr
      fun n hn => hn
    exact (htouch.triple fun w w' (hw : Held s w) ht =>
      hheld hw ht fun hmem => (h.s3 _ hmem).1 rfl).conseq (fun _ h => h) (fun _ _ h => h)
      fun _ _ _ => trivial
  · exact ((p.findS3Aliases_touches (T := ∅)).triple fun w w' (hw : Held s w) ht =>
      hheld hw ht (Set.notMem_empty _)).conseq (fun _ h => h) (fun _ _ h => h) fun _ _ _ => trivial
  · refine applyVault_triple (E := fun _ => True)
      (fun vault => p.processVaultSecrets_leadsTo vault s) (fun w w' hw ht => hheld hw ht ?_)
      (fun _ _ => trivial) (fun _ _ hw => hw.2.1) fun hon => ?_
    · simp [credentialsFields]
    · exact (cleanSecret_stamped .backupDaemon s).conseq (fun _ hw => ⟨hw.1, hw.2.1, hw.2.2 hon⟩)
        (fun _ _ h => h) fun _ _ h => h

end BackupDaemonResourceProvider

end QubershipZookeeper.Operator
