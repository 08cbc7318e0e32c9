import QubershipZookeeper.CredentialsRefresh

/-!
# The passages of Secrets

A version that one component has remembered looks **old** to the next one. Monitoring watches the
Secret of the backup daemon as well, and runs before it: with both of them enabled, the backup
daemon does not see a new version, and a request for new credentials is never answered. As long as
no two components share a Secret, every version that is current when a call of `Reconcile` returns
nil has made its passage (`Passages.alwaysThrough_of_careful`).
-/

namespace QubershipZookeeper.Operator

open Proc

/-! ## A call -/

variable {cr : ZooKeeperService}

/-- A version that is remembered and stored stays so while the Secret is spared. -/
theorem Remembers.of_touches {T : Set Field} {n : String} {w w' : World} (h : Remembers n w)
    (ht : Touches T w w') (hT : SparesSecret n T) : Remembers n w' := by
  intro s hs
  rw [ht.get? hT.object] at hs
  exact Eq.trans (ht.same (.recordedVersion n) hT.version) (h s hs)

/-- What a call does outside of the passes spares all Secrets. -/
theorem sparesSecret_controllerFields (n : String) : SparesSecret n controllerFields :=
  ⟨by simp [controllerFields, statusFields], by simp [controllerFields, statusFields]⟩

/-- A component spares the Secrets of the others. -/
theorem SparesSecret.of_separate {r r' : Reconciler} {n : String} (hseparate : cr.SeparateSecrets)
    (hr : r ∈ buildReconcilers cr) (hr' : r' ∈ buildReconcilers cr) (hne : r ≠ r')
    (hn : n ∈ r.secretNames) (hempty : n ≠ "") : SparesSecret n r'.footprint.fields := by
  have hother := hseparate.disjoint hr hr' hne hn hempty
  rw [← r'.mem_footprint_secrets] at hother
  exact ⟨hother, fun h => h.elim hempty hother⟩

/-- No component comes twice. -/
theorem nodup_buildReconcilers (cr : ZooKeeperService) : (buildReconcilers cr).Nodup := by
  unfold buildReconcilers
  rcases zooKeeperProvider? cr with - | p <;> rcases monitoringProvider? cr with - | q <;>
    rcases backupDaemonProvider? cr with - | b <;>
      rcases cr.spec.integrationTests with - | tests <;>
    simp

theorem AliasesSeen.of_touches {T : Set Field} {r : Reconciler} {w w' : World}
    (h : r.AliasesSeen w) (ht : Touches T w w')
    (hT : ∀ n ∈ r.secretNames, n ≠ "" → .object .secret n ∉ T) : r.AliasesSeen w' := by
  cases r with
  | backupDaemon p =>
    refine BackupDaemonResourceProvider.AliasesSeen.of_touches h ht
      (hT _ ?_ p.getS3AliasesSecretName_ne_empty)
    exact List.mem_cons_of_mem _ (List.mem_append_right _ (List.mem_singleton_self _))
  | _ => trivial

/-- After so many passes of a call: the books are in order, and the versions of the Secrets of
these components are remembered. -/
structure AfterPasses (cr : ZooKeeperService) (sure : Prop) (done : List Reconciler) (w : World) :
    Prop where
  books : Books cr w
  tested : TestedThrough cr w
  seen : sure → ∀ r ∈ buildReconcilers cr, r ∉ done → r.AliasesSeen w
  remembers : ∀ r ∈ done, ∀ n ∈ r.secretNames, n ≠ "" → (n ∈ r.aliasesName → sure) → Remembers n w

variable {sure : Prop}

/-- The books are about the passes: nothing else in a call writes to them. -/
theorem aboutPasses_books : AboutPasses (Books cr) := fun _ _ h ht =>
  ⟨fun r hr c hc => (h.recorded r hr c hc).of_touches ht fun n _ _ =>
    (sparesSecret_controllerFields n).version, ht.evolves.versioned h.versioned⟩

/-- The same for what holds between the passes. -/
theorem aboutPasses_afterPasses (done : List Reconciler) :
    AboutPasses (AfterPasses cr sure done) := fun w w' h ht => {
  books := aboutPasses_books w w' h.books ht
  tested := h.tested.of_touches ht (by simp [controllerFields, statusFields])
  seen hsure r hr hdone := AliasesSeen.of_touches (h.seen hsure r hr hdone) ht fun n _ _ =>
    (sparesSecret_controllerFields n).object
  remembers r hr n hn hne hsure :=
    (h.remembers r hr n hn hne hsure).of_touches ht (sparesSecret_controllerFields n) }

/-- **One pass**: it keeps the books of its component, and leaves those of the others alone. -/
theorem Reconciler.reconcile_afterPasses (hseparate : cr.SeparateSecrets)
    (hservers : cr.ServersWithVault) {done rest : List Reconciler} {r : Reconciler}
    (hlist : buildReconcilers cr = done ++ r :: rest) :
    Triple (AfterPasses cr sure done) r.reconcile (fun _ => AfterPasses cr sure (done ++ [r]))
      fun _ => Books cr := by
  have hmem : ∀ r' ∈ done ++ [r], r' ∈ buildReconcilers cr := by
    intro r' hr'
    rw [hlist, List.append_cons]
    exact List.mem_append_left _ hr'
  have hr : r ∈ buildReconcilers cr := hmem r (by simp)
  -- no component has two passes in a call
  have hnew : r ∉ done := by
    have hnodup := nodup_buildReconcilers cr
    rw [hlist] at hnodup
    exact fun h => (List.nodup_append.mp hnodup).2.2 r h r (List.mem_cons_self ..) rfl
  intro w hw
  have hbooks := r.reconcile_books hr hseparate hservers w ⟨hw.books, hw.tested⟩
  have hremembers := r.reconcile_remembersSecrets sure (hseparate.distinct hr) w
    fun hsure => hw.seen hsure r hr hnew
  rcases hrun : r.reconcile w with ⟨u, w'⟩ | ⟨e, w'⟩ <;> rw [hrun] at hbooks hremembers
  · have ht := r.reconcile_touches.ok hrun
    refine ⟨hbooks.1, hbooks.2, fun hsure r' hr' hdone => ?_, fun r' hr' n hn hne hsure => ?_⟩
    · rw [List.mem_append, List.mem_singleton, not_or] at hdone
      exact AliasesSeen.of_touches (hw.seen hsure r' hr' hdone.1) ht fun n hn hne =>
        (SparesSecret.of_separate hseparate hr' hr hdone.2 hn hne).object
    · by_cases heq : r' = r
      · subst heq
        exact hremembers n hn hsure
      · have hdone : r' ∈ done := (List.mem_append.mp hr').resolve_right fun h =>
          heq (List.mem_singleton.mp h)
        exact (hw.remembers r' hdone n hn hne hsure).of_touches ht
          (SparesSecret.of_separate hseparate (hmem r' hr') hr heq hn hne)
  · exact hbooks

/-- **A call of `Reconcile`** keeps the books; when it returns nil, all versions are
remembered. -/
theorem reconcile_afterPasses (hseparate : cr.SeparateSecrets) (hservers : cr.ServersWithVault) :
    Triple (fun w => w.cr = some cr ∧ AfterPasses cr sure [] w) reconcile
      (fun _ => AfterPasses cr sure (buildReconcilers cr)) fun _ => Books cr :=
  reconcile_triple aboutPasses_afterPasses aboutPasses_books (fun _ _ h => h.books)
    fun _ r _ hlist => r.reconcile_afterPasses hseparate hservers hlist

/-- A call answers a request for new credentials. -/
theorem reconcile_refreshes {p : BackupDaemonResourceProvider} {vault : VaultSecretManagement}
    {requested : Option ℕ} (hseparate : p.cr.SeparateSecrets) (hown : p.spec.secretName ≠ "")
    (hp : .backupDaemon p ∈ buildReconcilers p.cr) (hvault : p.cr.vault? = some vault) :
    Triple (fun w => w.cr = some p.cr ∧
        Waiting p.spec.secretName (p.credentialsPath vault) requested w) reconcile
      (fun _ => Refreshed p.spec.secretName (p.credentialsPath vault) requested)
      fun _ => Waiting p.spec.secretName (p.credentialsPath vault) requested := by
  set own := p.spec.secretName with hown_eq
  set path := p.credentialsPath vault
  have hspares := sparesSecret_controllerFields own
  let I (done : List Reconciler) (w : World) : Prop :=
    Waiting own path requested w ∧ (.backupDaemon p ∈ done → Refreshed own path requested w)
  have hkept (done : List Reconciler) {T : Set Field} {w w' : World} (hw : I done w)
      (ht : Touches T w w') (hT : SparesSecret own T) : I done w' :=
    ⟨hw.1.of_touches ht hT, fun h => (hw.2 h).of_touches ht hT⟩
  refine (reconcile_triple (I := I) (fun done w w' hw ht => hkept done hw ht hspares)
    (fun w w' hw ht => hw.of_touches ht hspares) (fun _ _ h => h.1)
    fun done r rest hlist => ?_).conseq
      (fun w hw => ⟨hw.1, hw.2, fun h => absurd h List.not_mem_nil⟩)
    (fun _ w hw => hw.2 hp) fun _ _ h => h
  have hr : r ∈ buildReconcilers p.cr := by
    rw [hlist]
    exact List.mem_append_right _ (List.mem_cons_self ..)
  by_cases heq : .backupDaemon p = r
  · subst heq
    exact (BackupDaemonResourceProvider.reconcile_refreshes
      (hseparate.distinct hp).backupDaemon hown
      hvault).conseq (fun _ h => h.1) (fun _ _ h => ⟨h.waiting, fun _ => h⟩) fun _ _ h => h
  · -- the others have Secrets of their own
    have hT := SparesSecret.of_separate hseparate hp hr heq (List.mem_cons_self ..) hown
    refine (r.reconcile_touches.triple fun w w' (hw : I done w) ht => hkept done hw ht hT).conseq
      (fun _ h => h) (fun _ w hw => ⟨hw.1, fun h => hw.2 ?_⟩) fun _ _ h => h.1
    exact (List.mem_append.mp h).resolve_right fun h => heq (List.mem_singleton.mp h)

/-! ## Runs -/

/-- Delete the object of a kind with a name. -/
def World.remove (w : World) (k : Kind) (n : String) : World :=
  { w with objects := Function.update w.objects k ((w.objects k).erase n) }

/-- What is removed is gone, and the rest stays. -/
theorem World.get?_remove_self (w : World) (k : Kind) (n : String) :
    (w.remove k n).get? k n = none := by
  simp [World.get?, World.remove, Store.get?, Finmap.lookup_erase]

theorem World.get?_remove_of_ne (w : World) (k : Kind) {n n' : String} (h : n' ≠ n) :
    (w.remove k n).get? k n' = w.get? k n' := by
  simp [World.get?, World.remove, Store.get?, Finmap.lookup_erase_ne h]

namespace Passages

/-- What users do between the calls of `Reconcile`. -/
inductive Deed where
  /-- a user stores a Secret, as a new version -/
  | store (secret : Secret)
  /-- a user deletes a Secret -/
  | delete (secretName : String)

/-- The cluster and the controller, with what a user waits for. -/
structure Session where
  /-- the cluster and the controller -/
  world : World
  /-- if the Secret of the backup daemon asks for new credentials: how many versions of them
  Vault had when it was stored -/
  requested : Option ℕ := none

namespace Session

variable (s : Session)

/-- The own Secret of the backup daemon. -/
def backupDaemonSecret : Option String := s.world.cr.bind (·.ownSecretName .backupDaemon)

/-- Where the credentials of the backup daemon are in Vault, if it is on. -/
def credentialsPath : Option String := do
  let cr ← s.world.cr
  let p ← backupDaemonProvider? cr
  let vault ← cr.vault?
  return p.credentialsPath vault

/-- How many versions of these credentials Vault has. -/
def credentialsVersion : ℕ := s.credentialsPath.elim 0 s.world.credentialsVersion

/-- A controller that has just been started: it remembers nothing. -/
structure Fresh : Prop where
  present : s.world.cr.isSome
  versions : s.world.resourceVersions = ∅
  versioned : s.world.Versioned
  requested : s.requested = none

/-- What should hold after a call that has returned nil: the versions that the components have
tested, and those that are stored now, have made their passage; and if the Secret of the backup
daemon has asked for new credentials, with Vault on, then newer ones have been written and it does
not ask any more. A version that the cleaning of a Secret has made has its passage together with the
version before it (`cleanSecret`): nothing looks at it again. -/
structure Through (requested : Option ℕ) (cr : ZooKeeperService) (w : World) : Prop where
  tested : TestedThrough cr w
  current : ∀ r ∈ buildReconcilers cr, ∀ c ∈ r.component, ∀ n ∈ r.secretNames, n ≠ "" →
    ∀ secret, w.get? .secret n = some secret →
      Passage.Through cr ⟨c, n, secret.metadata.resourceVersion⟩ w
  refreshed : ∀ p ∈ backupDaemonProvider? cr, ∀ vault ∈ cr.vault?, ∀ n ∈ requested,
    n < w.credentialsVersion (p.credentialsPath vault) ∧ ¬ AsksRefresh p.spec.secretName w

end Session

/-- What users do, and calls of `Reconcile`. The API server refuses an object without a name. -/
def interplay : Interplay Session Deed Call where
  others s
    | .store secret =>
      if secret.metadata.name = "" then s
      else
        { world := s.world.store .secret secret
          requested :=
            if s.backupDaemonSecret = some secret.metadata.name then
              if needToRefreshCredentials secret then some s.credentialsVersion else none
            else s.requested }
    | .delete secretName =>
      { world := s.world.remove .secret secretName
        requested := if s.backupDaemonSecret = some secretName then none else s.requested }
  call s call :=
    let outcome := reconcile (call.start s.world)
    { world := outcome.next
      requested := if outcome.returned then none else s.requested }

/-- It holds after all calls of a run that return nil. -/
def Session.AlwaysThrough : Session → List (Turn Deed Call) → Prop :=
  interplay.EveryCall fun s call => (reconcile (call.start s.world)).returned = true →
    ∀ cr ∈ s.world.cr, Session.Through s.requested cr (reconcile (call.start s.world)).next

/-- No two components share a Secret, and with Vault on ZooKeeper has servers. -/
def Session.Separate (s : Session) : Prop :=
  ∀ cr ∈ s.world.cr, cr.SeparateSecrets ∧ cr.ServersWithVault

instance (s : Session) : Decidable s.Separate := inferInstanceAs (Decidable (∀ _ ∈ _, _))

/-- The lookup of the aliases of S3 stores cannot fail, or there are none. -/
def Session.AliasesSeen (s : Session) (call : Call) : Prop :=
  ∀ cr ∈ s.world.cr, ∀ r ∈ buildReconcilers cr, r.AliasesSeen (call.start s.world)

instance (s : Session) (call : Call) : Decidable (s.AliasesSeen call) :=
  inferInstanceAs (Decidable (∀ _ ∈ _, ∀ _ ∈ _, _))

/-- This is so in all calls of a run. -/
def Session.Careful : Session → List (Turn Deed Call) → Prop := interplay.EveryCall AliasesSeen

instance (s : Session) (turns : List (Turn Deed Call)) : Decidable (s.Careful turns) :=
  interplay.decidableEveryCall s turns

/-- The invariant: the books are in order, and what a user waits for has not been overlooked. -/
structure Session.Sound (s : Session) (cr : ZooKeeperService) : Prop where
  present : s.world.cr = some cr
  books : Books cr s.world
  named : ∀ p ∈ backupDaemonProvider? cr, s.requested ≠ none → p.spec.secretName ≠ ""
  waiting : ∀ p ∈ backupDaemonProvider? cr, ∀ vault ∈ cr.vault?, p.spec.secretName ≠ "" →
    Waiting p.spec.secretName (p.credentialsPath vault) s.requested s.world

/-- A fresh controller has empty books. -/
theorem Session.Fresh.sound {s : Session} (h : s.Fresh) (hcr : s.world.cr = some cr) :
    s.Sound cr := by
  have hlookup (n : String) (v : ℕ) : s.world.resourceVersions.lookup n ≠ some v := by
    rw [h.versions, Finmap.lookup_empty]
    exact (Option.some_ne_none v).symm
  refine ⟨hcr, ⟨fun r _ c _ n _ _ v hv => absurd hv (hlookup n v), h.versioned⟩,
    fun p _ hne => absurd h.requested hne, fun p _ vault _ _ => ⟨⟨h.versioned, fun v hv => ?_,
      fun _ _ _ v hv => ?_⟩, fun n hn => ?_⟩⟩
  · exact absurd hv (hlookup _ v)
  · exact absurd hv (hlookup _ v)
  · rw [h.requested] at hn
    cases hn

/-! ### What users do -/

theorem Session.backupDaemonSecret_eq {s : Session} {p : BackupDaemonResourceProvider}
    (hcr : s.world.cr = some cr) (hp : p ∈ backupDaemonProvider? cr) :
    s.backupDaemonSecret = some p.spec.secretName := by
  obtain rfl := cr_of_backupDaemonProvider? hp
  rw [backupDaemonSecret, hcr]
  exact p.ownSecretName_eq

theorem Session.credentialsVersion_eq {s : Session} {p : BackupDaemonResourceProvider}
    {vault : VaultSecretManagement} (hcr : s.world.cr = some cr)
    (hp : p ∈ backupDaemonProvider? cr) (hvault : vault ∈ cr.vault?) :
    s.credentialsVersion = s.world.credentialsVersion (p.credentialsPath vault) := by
  have hpath : s.credentialsPath = some (p.credentialsPath vault) := by
    rw [credentialsPath, hcr, Option.bind_eq_bind, Option.bind_some, show _ = some p from hp,
      Option.bind_eq_bind, Option.bind_some, show _ = some vault from hvault]
    rfl
  rw [credentialsVersion, hpath]
  rfl

/-- A Secret that a user stores is a new version, which nothing remembers yet. -/
theorem Session.Sound.store {s : Session} (h : s.Sound cr) {secret : Secret}
    (hname : secret.metadata.name ≠ "") : (interplay.others s (.store secret)).Sound cr := by
  have hstep : interplay.others s (.store secret) = ⟨s.world.store .secret secret,
      if s.backupDaemonSecret = some secret.metadata.name then
        if needToRefreshCredentials secret then some s.credentialsVersion else none
      else s.requested⟩ := if_neg hname
  have hiff {p : BackupDaemonResourceProvider} (hp : p ∈ backupDaemonProvider? cr) :
      s.backupDaemonSecret = some secret.metadata.name ↔
        p.spec.secretName = secret.metadata.name := by
    rw [backupDaemonSecret_eq h.present hp, Option.some_inj]
  rw [hstep]
  refine ⟨h.present, ⟨fun r hr c hc n hn hne v hv => ?_, ?_⟩, fun p hp hne => ?_,
    fun p hp vault hvault hown => ?_⟩
  · exact (h.books.recorded r hr c hc n hn hne v hv).of_subset (List.Subset.refl _)
      (List.Subset.refl _)
  · exact (evolves_store s.world .secret secret).versioned h.books.versioned
  · by_cases heq : p.spec.secretName = secret.metadata.name
    · rw [heq]
      exact hname
    · rw [if_neg fun h => heq ((hiff hp).mp h)] at hne
      exact h.named p hp hne
  · have hwaits := h.waiting p hp vault hvault hown
    refine ⟨hwaits.toUnseen.store secret, fun n hn => ?_⟩
    by_cases heq : p.spec.secretName = secret.metadata.name
    · -- from now on the user asks for new credentials, or for none
      rw [if_pos ((hiff hp).mpr heq), credentialsVersion_eq h.present hp hvault] at hn
      split at hn <;> cases hn
      next hneed =>
        have hstored := s.world.get?_store_self .secret secret
        rw [show Kind.name .secret secret = p.spec.secretName from heq.symm] at hstored
        exact .inr ⟨le_rfl, _, hstored, hneed⟩
    · rw [if_neg fun h => heq ((hiff hp).mp h)] at hn
      refine (hwaits.pending n hn).imp_right fun hasks => ⟨hasks.1, ?_⟩
      obtain ⟨s', hs', hneed⟩ := hasks.2
      exact ⟨s', (s.world.get?_store_of_ne (.inr heq)).trans hs', hneed⟩

theorem get?_of_get?_remove {w : World} {k : Kind} {n n' : String} {o : k.Object}
    (h : (w.remove k n).get? k n' = some o) : n' ≠ n ∧ w.get? k n' = some o := by
  by_cases heq : n' = n
  · rw [heq, w.get?_remove_self] at h
    cases h
  · rw [w.get?_remove_of_ne k heq] at h
    exact ⟨heq, h⟩

/-- A Secret that a user deletes has no version to be remembered. -/
theorem Session.Sound.delete {s : Session} (h : s.Sound cr) (secretName : String) :
    (interplay.others s (.delete secretName)).Sound cr := by
  have hversioned : (s.world.remove .secret secretName).Versioned := fun n s' hs' =>
    h.books.versioned n s' (get?_of_get?_remove hs').2
  refine ⟨h.present, ⟨fun r hr c hc n hn hne v hv => ?_, hversioned⟩, fun p hp hne => ?_,
    fun p hp vault hvault hown => ?_⟩
  · exact (h.books.recorded r hr c hc n hn hne v hv).of_subset (List.Subset.refl _)
      (List.Subset.refl _)
  · refine h.named p hp fun hnone => hne ?_
    simp only [interplay, hnone]
    exact ite_self _
  · have hwaits := h.waiting p hp vault hvault hown
    refine ⟨⟨hversioned, hwaits.bounded, fun s' hs' => hwaits.newer s' (get?_of_get?_remove hs').2⟩,
      fun n hn => ?_⟩
    have hn' : n ∈ if s.backupDaemonSecret = some secretName then none else s.requested := hn
    by_cases heq : p.spec.secretName = secretName
    · rw [if_pos ((backupDaemonSecret_eq h.present hp).trans (congrArg some heq))] at hn'
      cases hn'
    · rw [backupDaemonSecret_eq h.present hp, if_neg fun h => heq (Option.some.inj h)] at hn'
      refine (hwaits.pending n hn').imp_right fun hasks => ⟨hasks.1, ?_⟩
      obtain ⟨s', hs', hneed⟩ := hasks.2
      exact ⟨s', (s.world.get?_remove_of_ne .secret heq).trans hs', hneed⟩

/-! ### What the controller does -/

theorem mem_buildReconcilers_of_backupDaemonProvider? {p : BackupDaemonResourceProvider}
    (hp : p ∈ backupDaemonProvider? cr) : .backupDaemon p ∈ buildReconcilers cr := by
  simp only [buildReconcilers, List.mem_append, Option.mem_toList, Option.map_eq_some_iff]
  exact .inl (.inr ⟨p, hp, rfl⟩)

section Calls

variable {s : Session} {call : Call}

/-- The books at the beginning of a call, with what becomes of them. -/
theorem Session.Sound.passes (h : s.Sound cr) (hseparate : cr.SeparateSecrets)
    (hservers : cr.ServersWithVault) :
    Triple (fun w => w = call.start s.world) reconcile
      (fun _ => AfterPasses cr (s.AliasesSeen call) (buildReconcilers cr))
      fun _ => Books cr := by
  refine (reconcile_afterPasses hseparate hservers).conseq (fun w hw => ?_) (fun _ _ h => h)
    fun _ _ h => h
  subst hw
  refine ⟨h.present, ⟨fun r hr c hc n hn hne v hv => ?_, h.books.versioned⟩, ?_, ?_, ?_⟩
  · exact (h.books.recorded r hr c hc n hn hne v hv).of_subset (List.Subset.refl _)
      (List.Subset.refl _)
  · exact fun _ hπ => absurd hπ List.not_mem_nil
  · exact fun hseen r hr _ => hseen cr h.present r hr
  · exact fun _ hr => absurd hr List.not_mem_nil

/-- The request for new credentials at the beginning of a call, with what becomes of it. -/
theorem Session.Sound.refreshes (h : s.Sound cr) (hseparate : cr.SeparateSecrets)
    {p : BackupDaemonResourceProvider} {vault : VaultSecretManagement}
    (hp : p ∈ backupDaemonProvider? cr) (hvault : vault ∈ cr.vault?)
    (hown : p.spec.secretName ≠ "") :
    Triple (fun w => w = call.start s.world) reconcile
      (fun _ => Refreshed p.spec.secretName (p.credentialsPath vault) s.requested)
      fun _ => Waiting p.spec.secretName (p.credentialsPath vault) s.requested := by
  have hwaits := h.waiting p hp vault hvault hown
  obtain rfl := cr_of_backupDaemonProvider? hp
  refine (reconcile_refreshes hseparate hown (mem_buildReconcilers_of_backupDaemonProvider? hp)
    hvault).conseq (fun w hw => ?_) (fun _ _ h => h) fun _ _ h => h
  subst hw
  exact ⟨h.present, ⟨hwaits.versioned, hwaits.bounded, hwaits.newer⟩, hwaits.pending⟩

/-- A call keeps the invariant, however it ends. -/
theorem Session.Sound.called (h : s.Sound cr) (hseparate : cr.SeparateSecrets)
    (hservers : cr.ServersWithVault) : (interplay.call s call).Sound cr := by
  have hpresent : (reconcile (call.start s.world)).next.cr = some cr :=
    (reconcile_touches (call.start s.world)).evolves.cr.trans h.present
  simp only [interplay]
  rcases hrun : reconcile (call.start s.world) with ⟨u, w'⟩ | ⟨e, w'⟩ <;> rw [hrun] at hpresent
  · refine ⟨hpresent, ((h.passes hseparate hservers).ok rfl hrun).books,
      fun p hp hne => absurd rfl hne,
      fun p hp vault hvault hown => ?_⟩
    have hrefreshed := (h.refreshes hseparate hp hvault hown).ok rfl hrun
    exact ⟨hrefreshed.toUnseen, fun n hn => absurd hn (Option.not_mem_none n)⟩
  · exact ⟨hpresent, (h.passes hseparate hservers).raised rfl hrun, h.named,
      fun p hp vault hvault hown => (h.refreshes hseparate hp hvault hown).raised rfl hrun⟩

/-- What holds after a call that has returned nil. -/
theorem Session.Sound.through (h : s.Sound cr) (hseparate : cr.SeparateSecrets)
    (hservers : cr.ServersWithVault) (hseen : s.AliasesSeen call)
    (hreturned : (reconcile (call.start s.world)).returned = true) :
    Through s.requested cr (reconcile (call.start s.world)).next := by
  obtain ⟨u, w', hrun⟩ := Outcome.returned_iff.mp hreturned
  have hpasses := (h.passes hseparate hservers).ok rfl hrun
  rw [hrun]
  refine ⟨hpasses.tested, fun r hr c hc n hn hne secret hsecret => ?_,
    fun p hp vault hvault n hn => ?_⟩
  · have hremembers := hpasses.remembers r hr n hn hne fun _ => hseen
    exact hpasses.books.recorded r hr c hc n hn hne _ (hremembers secret hsecret)
  · have hown : p.spec.secretName ≠ "" := h.named p hp (Option.ne_none_iff_exists'.mpr ⟨n, hn⟩)
    have hrefreshed := (h.refreshes hseparate hp hvault hown).ok rfl hrun
    exact ⟨hrefreshed.written n hn, hrefreshed.calm⟩

end Calls

/-- The invariant of the runs. -/
theorem invariant_sound (hseparate : cr.SeparateSecrets) (hservers : cr.ServersWithVault) :
    interplay.Invariant Session.AliasesSeen fun s => s.Sound cr where
  others
    | s, .store secret, hsound => by
      by_cases hname : secret.metadata.name = ""
      · rw [show interplay.others s (.store secret) = s from if_pos hname]
        exact hsound
      · exact hsound.store hname
    | _, .delete secretName, hsound => hsound.delete secretName
  call _ _ hsound _ := hsound.called hseparate hservers

/-- A custom resource with servers and a backup daemon, with Vault on. -/
def sampleResource (monitoring : Option Monitoring) : ZooKeeperService where
  name := "zookeeper"
  namespaceName := "zk"
  spec :=
    { global := some {}
      zooKeeper := some (HashGate.sampleZooKeeper "zookeeper:1")
      monitoring := monitoring
      backupDaemon := some
        { dockerImage := "backup:1"
          backupStorage := { volumeSize := .of "1Gi" }
          zooKeeperHost := "zookeeper"
          zooKeeperPort := 2181
          secretName := "backup-secret" }
      vaultSecretManagement := some
        { dockerImage := "vault-env:1"
          enabled := true
          path := "secret"
          url := "https://vault"
          role := "operator"
          method := "kubernetes" } }

/-- A section on the monitoring agent. -/
def sampleMonitoring : Monitoring where
  dockerImage := "monitoring:1"
  monitoringType := "prometheus"
  zooKeeperHost := "zookeeper"
  secretName := "monitoring-secret"

/-- A cluster without any objects and a fresh controller; the additional users are in Vault
already. -/
def sampleSession (monitoring : Option Monitoring) : Session where
  world :=
    { cr := some (sampleResource monitoring)
      environment := HashGate.calm
      vault := { secrets := (∅ : Finmap _).insert "secret/data/zookeeper.zk/additional-users"
                  (StringMap.ofList [("users", "")], 1) } }

/-- After a first call the user asks for new credentials of the backup daemon. -/
def refreshRun : List (Turn Deed Call) :=
  [.call ⟨[], HashGate.calm⟩,
   .others (.store { metadata := {
     name := "backup-secret"
     annotations := some (Finmap.insert refreshCredentialsAnnotation "true" ∅) } }),
   .call ⟨[], HashGate.calm⟩]

theorem fresh_sampleSession (monitoring : Option Monitoring) :
    (sampleSession monitoring).Fresh where
  present := rfl
  versions := rfl
  versioned n s hs := by
    rw [show (sampleSession monitoring).world.get? .secret n = none from rfl] at hs
    cases hs
  requested := rfl

end Passages

end QubershipZookeeper.Operator
