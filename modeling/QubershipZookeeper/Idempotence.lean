import QubershipZookeeper.SettledSecrets
import QubershipZookeeper.SecretPassages
import QubershipZookeeper.MountedClaims

/-!
# Calls that have nothing to do

A call of `Reconcile` that returns nil leaves the components **at rest**: hashes and versions are
remembered, the Secrets have their owner, and the Deployments have the marks of the Secrets. From
there on no call changes a Deployment (`Idempotence.unchanged_of_careful`).

The order of the components can spoil this. Monitoring marks its Deployment with the version of
the Secret of the backup daemon; after that the backup daemon may clean this Secret, which makes
a new version. So the next call marks the Deployment of Monitoring again, and its pod is restarted.
-/

namespace QubershipZookeeper.Operator

open Proc

/-! ## Components at rest -/

namespace Reconciler

/-- The hash of its section, with the component under which it is remembered. -/
def sectionDigest : Reconciler → Option (Component × Digest)
  | zooKeeper p => some (.zooKeeper, .zooKeeper p.spec)
  | monitoring p => some (.monitoring, .monitoring p.spec)
  | backupDaemon p => some (.backupDaemon, .backupDaemon p.spec)
  | integrationTests _ => none

/-- A pass would find nothing to do. -/
structure AtRest (cr : ZooKeeperService) (r : Reconciler) (w : World) : Prop where
  hashed : ∀ π ∈ r.sectionDigest, w.resourceHashes.lookup (hashName π.1) = some π.2
  remembers : ∀ n ∈ r.secretNames, n ≠ "" → Remembers n w
  watched : ∀ n ∈ r.secretNames, n ≠ "" → n ∉ r.aliasesName → Watched cr n w
  marks : ∀ n ∈ r.secretNames, n ≠ "" → ∀ name ∈ r.deploymentNames, Marks name n w

end Reconciler

/-- These fields are about none of the Secrets, Deployments and sections. -/
structure SparesComponents (T : Set Field) : Prop where
  secrets : ∀ n, n ≠ "" → SparesSecret n T
  deployments : ∀ name, .object .deployment name ∉ T
  hashes : ∀ c, .recordedHash (hashName c) ∉ T

namespace Reconciler

variable {cr : ZooKeeperService} {r r' : Reconciler} {w w' : World} {T : Set Field}

/-- A component at rest stays so while its Secrets, Deployments and section are left alone. -/
theorem AtRest.of_touches (h : r.AtRest cr w) (ht : Touches T w w') (hT : SparesComponents T) :
    r.AtRest cr w' where
  hashed π hπ := Eq.trans (ht.same (.recordedHash _) (hT.hashes π.1)) (h.hashed π hπ)
  remembers n hn hne := (h.remembers n hn hne).of_touches ht (hT.secrets n hne)
  watched n hn hne haliases :=
    (h.watched n hn hne haliases).of_touches ht (hT.secrets n hne).object
  marks n hn hne name hname :=
    (h.marks n hn hne name hname).of_touches ht (hT.deployments name) (hT.secrets n hne).object

/-- At the end of an apply branch the hash of the section is remembered. -/
theorem remember_hashes (c : Component) (digest : Digest) (secrets : List (Option Secret)) :
    Triple (fun _ => True) (remember c digest secrets)
      (fun _ w => w.resourceHashes.lookup (hashName c) = some digest) fun _ _ => True :=
  triple_update fun _ _ => Finmap.lookup_insert _

/-- A pass that returns has remembered the hash of its section. -/
theorem reconcile_hashes (r : Reconciler) :
    Triple (fun _ => True) r.reconcile
      (fun _ w => ∀ π ∈ r.sectionDigest, w.resourceHashes.lookup (hashName π.1) = some π.2)
      fun _ _ => True := by
  cases r with
  | zooKeeper p =>
    refine Triple.conseq (P := fun _ => True) (triple_of_last fun _ => remember_hashes _ _ _)
      (fun _ h => h) (fun _ w hw => ?_) fun _ _ h => h
    rintro π ⟨⟩
    exact hw
  | monitoring p =>
    refine Triple.conseq (P := fun _ => True) (triple_of_last fun _ => triple_of_last fun _ =>
      triple_of_last fun _ => triple_of_last fun _ => triple_of_last fun _ => remember_hashes _ _ _)
      (fun _ h => h) (fun _ w hw => ?_) fun _ _ h => h
    rintro π ⟨⟩
    exact hw
  | backupDaemon p =>
    refine Triple.conseq (P := fun _ => True) (triple_of_last fun _ => triple_of_last fun _ =>
      triple_of_last fun _ => triple_of_last fun _ => triple_of_last fun _ =>
        triple_of_last fun _ =>
      remember_hashes _ _ _) (fun _ h => h) (fun _ w hw => ?_) fun _ _ h => h
    rintro π ⟨⟩
    exact hw
  | integrationTests tests => exact triple_pure fun _ _ π hπ => by cases hπ

/-- What a pass that returns leaves behind, for all components. -/
theorem reconcile_settles (hcr : cr.Identified) (hr : r ∈ buildReconcilers cr)
    (hdistinct : r.DistinctSecrets) :
    Triple (r.AliasesSeen) r.reconcile (fun _ w =>
      (∀ n ∈ r.secretNames, n ≠ "" → n ∉ r.aliasesName → Watched cr n w) ∧
        ∀ n ∈ r.secretNames, n ≠ "" → ∀ name ∈ r.deploymentNames, Marks name n w)
      fun _ _ => True := by
  rcases mem_buildReconcilers hr with ⟨p, rfl, rfl⟩ | ⟨p, rfl, rfl⟩ | ⟨p, rfl, rfl⟩ | ⟨tests, rfl⟩
  · -- without a Secret there is nothing to be watched or marked
    by_cases hown : p.spec.secretName = ""
    · refine Triple.conseq (P := fun _ => True) (Q := fun _ _ => True) (E := fun _ _ => True)
        (fun w _ => by rcases reconcile _ w with - | - <;> trivial) (fun _ _ => trivial)
        (fun _ w _ => ⟨?_, ?_⟩) fun _ _ h => h <;>
      · intro n hn hne
        exact absurd ((List.mem_singleton.mp hn).trans hown) hne
    · refine (ZooKeeperResourceProvider.reconcile_settles hcr hown).conseq (fun _ _ => trivial)
        (fun _ w hw => ⟨?_, ?_⟩) fun _ _ h => h
      · rintro n hn - -
        rw [List.mem_singleton.mp hn]
        exact hw.1
      · rintro n hn - name hname
        obtain ⟨i, hi, rfl⟩ := List.mem_map.mp hname
        rw [List.mem_singleton.mp hn]
        exact hw.2 i hi
  · refine (MonitoringResourceProvider.reconcile_settles hcr hdistinct.monitoring).conseq
      (fun _ _ => trivial) (fun _ w hw => ⟨fun n hn hne _ => (hw n hn hne).1, ?_⟩) fun _ _ h => h
    intro n hn hne name hname
    rw [List.mem_singleton.mp hname]
    exact (hw n hn hne).2
  · refine (BackupDaemonResourceProvider.reconcile_settles True hcr
      hdistinct.backupDaemon).conseq (fun _ h _ => h) (fun _ w hw => ⟨?_, ?_⟩) fun _ _ h => h
    · intro n hn hne haliases
      simp only [secretNames, List.mem_cons, List.mem_append, Option.mem_toList, List.not_mem_nil,
        or_false] at hn
      rcases hn with hn | hn | hn
      · exact hw.1 n (.inl hn) hne
      · exact hw.1 n (.inr hn) hne
      · exact absurd (congrArg some hn.symm) haliases
    · intro n hn hne name hname
      rw [List.mem_singleton.mp hname]
      exact hw.2 n hn hne fun _ => trivial
  · exact triple_pure fun _ _ => ⟨fun n hn => absurd hn List.not_mem_nil,
      fun n hn => absurd hn List.not_mem_nil⟩

/-- **A pass that returns leaves its component at rest.** -/
theorem reconcile_atRest (hcr : cr.Identified) (hr : r ∈ buildReconcilers cr)
    (hdistinct : r.DistinctSecrets) :
    Triple (r.AliasesSeen) r.reconcile (fun _ => r.AtRest cr) fun _ _ => True := by
  have hremembers := r.reconcile_remembersSecrets True hdistinct
  refine ((r.reconcile_hashes.and hremembers).and (reconcile_settles hcr hr hdistinct)).conseq
    (fun _ h => ⟨⟨trivial, fun _ => h⟩, h⟩) (fun _ w hw => ?_) fun _ _ _ => trivial
  exact ⟨hw.1.1, fun n hn _ => hw.1.2 n hn fun _ => trivial, hw.2.1, hw.2.2⟩

/-! ### The order of the components -/

/-- The place of a component in the order of the passes. -/
def rank : Reconciler → ℕ
  | zooKeeper _ => 0
  | monitoring _ => 1
  | backupDaemon _ => 2
  | integrationTests _ => 3

/-- The components come in the order of their ranks, each once. -/
theorem pairwise_rank (cr : ZooKeeperService) :
    (buildReconcilers cr).Pairwise fun r r' => r.rank < r'.rank := by
  unfold buildReconcilers
  rcases zooKeeperProvider? cr with - | p <;> rcases monitoringProvider? cr with - | q <;>
    rcases backupDaemonProvider? cr with - | b <;>
      rcases cr.spec.integrationTests with - | tests <;>
    simp [rank]

/-- So those before a component have smaller ranks, and those after it larger ones. -/
theorem rank_lt_of_split {done rest : List Reconciler}
    (hlist : buildReconcilers cr = done ++ r :: rest) :
    (∀ r' ∈ done, r'.rank < r.rank) ∧ ∀ r' ∈ rest, r.rank < r'.rank := by
  have hsorted := pairwise_rank cr
  rw [hlist, List.pairwise_append, List.pairwise_cons] at hsorted
  exact ⟨fun r' hr' => hsorted.2.2 r' hr' r (List.mem_cons_self ..), hsorted.2.1.1⟩

/-- No later component writes the hash of an earlier one. -/
theorem hashes_of_rank_lt (hlt : r.rank < r'.rank) : ∀ π ∈ r.sectionDigest,
    hashName π.1 ∉ r'.footprint.hashes := by
  rintro π hπ hmem
  cases r' with
  | zooKeeper q => exact absurd hlt (Nat.not_lt_zero _)
  | monitoring q =>
    have hname : hashName π.1 = hashName .monitoring := hmem
    cases r <;> cases hπ <;> simp [rank, hashName] at hlt hname
  | backupDaemon q =>
    have hname : hashName π.1 = hashName .backupDaemon := hmem
    cases r <;> cases hπ <;> simp [rank, hashName] at hlt hname
  | integrationTests tests => exact hmem

/-- No component has the Deployments of an earlier one in its footprint. -/
theorem deployments_of_rank_lt (hr : r ∈ buildReconcilers cr) (hr' : r' ∈ buildReconcilers cr)
    (hlt : r.rank < r'.rank) : ∀ name ∈ r.deploymentNames, name ∉ r'.footprint.deployments := by
  intro name hname hmem
  rcases mem_buildReconcilers hr' with ⟨q, hq, rfl⟩ | ⟨q, rfl, rfl⟩ | ⟨q, rfl, rfl⟩ | ⟨tests, rfl⟩
  · exact absurd hlt (Nat.not_lt_zero _)
  · rcases mem_buildReconcilers hr with ⟨p, hp, rfl⟩ | ⟨p, -, rfl⟩ | ⟨p, -, rfl⟩ | ⟨tests, rfl⟩
    · obtain ⟨i, -, rfl⟩ := List.mem_map.mp hname
      exact serverName_ne_monitoring q i (hp ▸ hmem)
    all_goals simp [rank] at hlt
  · rcases mem_buildReconcilers hr with ⟨p, hp, rfl⟩ | ⟨p, hp, rfl⟩ | ⟨p, -, rfl⟩ | ⟨tests, rfl⟩
    · obtain ⟨i, -, rfl⟩ := List.mem_map.mp hname
      exact serverName_ne_backupDaemon q i (hp ▸ hmem)
    · have hsame : p.cr.name ++ "-monitoring" = q.cr.name ++ "-backup-daemon" :=
        (List.mem_singleton.mp hname).symm.trans hmem
      rw [hp] at hsame
      exact absurd ((String.append_right_inj _).mp hsame) (by decide)
    all_goals simp [rank] at hlt
  · exact hmem

/-! ### Secrets that two components share -/

/-- The names of the Secrets that a component does not share: Monitoring has the Secret of the
backup daemon in its change test as well. -/
def privateSecretNames : Reconciler → List String
  | zooKeeper p => [p.spec.secretName]
  | monitoring p => [p.spec.secretName]
  | backupDaemon p => (backupDaemon p).secretNames
  | integrationTests _ => []

/-- A Secret in a change test is the component's own, or it is the daemon's in the test of
Monitoring. -/
theorem mem_secretNames {n : String} (h : n ∈ r.secretNames) :
    n ∈ r.privateSecretNames ∨ ∃ p, r = .monitoring p ∧ n ∈ p.backupDaemonSecretName := by
  cases r with
  | monitoring p =>
    rcases List.mem_cons.mp h with rfl | hn
    · exact .inl (List.mem_singleton_self _)
    · exact .inr ⟨p, rfl, Option.mem_toList.mp hn⟩
  | _ => exact .inl h

theorem secretName_mem_privateSecretNames (p : BackupDaemonResourceProvider) :
    p.spec.secretName ∈ (backupDaemon p).privateSecretNames :=
  List.mem_cons_self ..

end Reconciler

/-- No two Secrets have the same name. -/
def ZooKeeperService.PrivateSecrets (cr : ZooKeeperService) : Prop :=
  (((buildReconcilers cr).flatMap Reconciler.privateSecretNames).filter (· ≠ "")).Nodup

instance (cr : ZooKeeperService) : Decidable cr.PrivateSecrets :=
  inferInstanceAs (Decidable (List.Nodup _))

section Shared

variable {cr : ZooKeeperService} {r r' : Reconciler} {n : String}

theorem backupDaemonProvider?_eq (q : BackupDaemonResourceProvider) :
    backupDaemonProvider? q.cr = some q := by
  obtain ⟨cr, spec, hspec⟩ := q
  unfold backupDaemonProvider?
  split
  next spec' h =>
    obtain rfl : spec' = spec := Option.some.inj (h.symm.trans hspec)
    rfl
  next h => cases h.symm.trans hspec

/-- The Secret that Monitoring shares is the own one of the backup daemon. -/
theorem MonitoringResourceProvider.backupDaemon_of_mem {p : MonitoringResourceProvider}
    (h : n ∈ p.backupDaemonSecretName) :
    ∃ q : BackupDaemonResourceProvider, .backupDaemon q ∈ buildReconcilers p.cr ∧
      q.spec.secretName = n := by
  obtain ⟨spec, hspec, h⟩ := Option.bind_eq_some_iff.mp h
  split at h <;> cases h
  exact ⟨⟨p.cr, spec, hspec⟩, Passages.mem_buildReconcilers_of_backupDaemonProvider?
    (backupDaemonProvider?_eq ⟨p.cr, spec, hspec⟩), rfl⟩

/-- No two components have a Secret of their own in common. -/
theorem ZooKeeperService.PrivateSecrets.disjoint (h : cr.PrivateSecrets)
    (hr : r ∈ buildReconcilers cr) (hr' : r' ∈ buildReconcilers cr) (hne : r ≠ r')
    (hn : n ∈ r.privateSecretNames) (hempty : n ≠ "") : n ∉ r'.privateSecretNames :=
  disjoint_of_nodup h hr hr' hne hn hempty

theorem cr_of_monitoring_mem {p : MonitoringResourceProvider}
    (h : .monitoring p ∈ buildReconcilers cr) : p.cr = cr := by
  rcases mem_buildReconcilers h with ⟨_, -, h⟩ | ⟨_, hcr, ⟨⟩⟩ | ⟨_, -, h⟩ | ⟨_, h⟩
  · cases h
  · exact hcr
  · cases h
  · cases h

theorem cr_of_backupDaemon_mem {q : BackupDaemonResourceProvider}
    (h : .backupDaemon q ∈ buildReconcilers cr) : q.cr = cr := by
  rcases mem_buildReconcilers h with ⟨_, -, h⟩ | ⟨_, -, h⟩ | ⟨_, hcr, ⟨⟩⟩ | ⟨_, h⟩
  · cases h
  · cases h
  · exact hcr
  · cases h

/-- The Secret that Monitoring looks at belongs to the daemon. -/
theorem ZooKeeperService.PrivateSecrets.owner (h : cr.PrivateSecrets)
    {p : MonitoringResourceProvider} (hp : .monitoring p ∈ buildReconcilers cr)
    (hn : n ∈ p.backupDaemonSecretName) (hr : r ∈ buildReconcilers cr)
    (hprivate : n ∈ r.privateSecretNames) : ∃ q, r = .backupDaemon q ∧ q.spec.secretName = n := by
  obtain ⟨q, hq, hown⟩ := MonitoringResourceProvider.backupDaemon_of_mem hn
  rw [cr_of_monitoring_mem hp] at hq
  by_cases heq : r = .backupDaemon q
  · exact ⟨q, heq, hown⟩
  · have hmem := Reconciler.secretName_mem_privateSecretNames q
    rw [hown] at hmem
    exact absurd hmem (h.disjoint hr hq heq hprivate (p.ne_empty_of_mem hn))

/-- **Only Monitoring and the backup daemon share a Secret**, the own one of the latter. -/
theorem ZooKeeperService.PrivateSecrets.shared (h : cr.PrivateSecrets)
    (hr : r ∈ buildReconcilers cr) (hr' : r' ∈ buildReconcilers cr) (hlt : r.rank < r'.rank)
    (hn : n ∈ r.secretNames) (hn' : n ∈ r'.secretNames) (hempty : n ≠ "") :
    ∃ p q, r = .monitoring p ∧ r' = .backupDaemon q ∧ n ∈ p.backupDaemonSecretName ∧
      q.spec.secretName = n := by
  rcases Reconciler.mem_secretNames hn with hprivate | ⟨p, rfl, hother⟩
  · rcases Reconciler.mem_secretNames hn' with hprivate' | ⟨p, rfl, hother⟩
    · exact absurd hprivate'
        (h.disjoint hr hr' (fun heq => lt_irrefl _ (heq ▸ hlt)) hprivate hempty)
    · obtain ⟨q, rfl, -⟩ := h.owner hr' hother hr hprivate
      simp [Reconciler.rank] at hlt
  · rcases Reconciler.mem_secretNames hn' with hprivate' | ⟨p', rfl, -⟩
    · obtain ⟨q, rfl, hown⟩ := h.owner hr hother hr' hprivate'
      exact ⟨p, q, rfl, rfl, hother, hown⟩
    · exact absurd hlt (lt_irrefl _)

/-- Within one component the names are different. -/
theorem ZooKeeperService.PrivateSecrets.distinct (h : cr.PrivateSecrets)
    (hr : r ∈ buildReconcilers cr) : r.DistinctSecrets := by
  cases r with
  | zooKeeper p => exact (List.nodup_singleton _).filter _
  | monitoring p =>
    rcases hname : p.backupDaemonSecretName with - | n
    · rw [Reconciler.DistinctSecrets, Reconciler.secretNames, hname]
      exact (List.nodup_singleton _).filter _
    · have hne : p.spec.secretName ≠ n := by
        rintro rfl
        obtain ⟨q, hq, -⟩ := h.owner hr hname hr (List.mem_singleton_self _)
        cases hq
      rw [Reconciler.DistinctSecrets, Reconciler.secretNames, hname]
      exact (List.nodup_cons.mpr ⟨fun hmem => hne (List.mem_singleton.mp hmem),
        List.nodup_singleton _⟩).filter _
  | backupDaemon p =>
    rw [PrivateSecrets, List.filter_flatMap] at h
    exact (List.nodup_flatMap.mp h).1 _ hr
  | integrationTests tests => exact List.nodup_nil

end Shared

/-! ## The first call -/

namespace Reconciler

/-- If Monitoring marks its Deployment for the Secret of the backup daemon, then the mark is not
outdated when the Secret is cleaned. -/
def Calm (w : World) : Reconciler → Prop
  | backupDaemon q => q.cr.spec.monitoring.isSome → q.cr.vault?.isSome →
    CalmSecret q.spec.secretName w
  | _ => True

instance (w : World) : (r : Reconciler) → Decidable (r.Calm w)
  | backupDaemon _ => inferInstanceAs (Decidable (_ → _ → _))
  | zooKeeper _ | monitoring _ | integrationTests _ => .isTrue trivial

/-- What the pass of a component needs: it finds the aliases, and outdates no mark. -/
def Ready (w : World) (r : Reconciler) : Prop := r.AliasesSeen w ∧ r.Calm w

instance (w : World) (r : Reconciler) : Decidable (r.Ready w) := inferInstanceAs (Decidable (_ ∧ _))

variable {cr : ZooKeeperService} {r r' : Reconciler} {w w' : World} {T : Set Field}

/-- The condition on the first call is kept from pass to pass. -/
theorem Ready.of_touches (h : r.Ready w) (ht : Touches T w w') (hT : SparesComponents T) :
    r.Ready w' := by
  cases r with
  | backupDaemon q =>
    refine ⟨BackupDaemonResourceProvider.AliasesSeen.of_touches h.1 ht
      (hT.secrets _ q.getS3AliasesSecretName_ne_empty).object, fun hmonitoring hon => ?_⟩
    by_cases hown : q.spec.secretName = ""
    · intro s hs hneed
      have hname := Store.name_of_get? hs
      exact absurd (hname.trans hown) (name_ne_of_needToCleanSecret hneed)
    · exact (h.2 hmonitoring hon).of_touches ht (hT.secrets _ hown).object
  | _ => exact ⟨trivial, trivial⟩

/-- The pass of a component leaves those that follow ready. -/
theorem reconcile_ready (hprivate : cr.PrivateSecrets) (hr : r ∈ buildReconcilers cr)
    (hr' : r' ∈ buildReconcilers cr) (hlt : r.rank < r'.rank) :
    Triple r'.Ready r.reconcile (fun _ => r'.Ready) fun _ _ => True := by
  intro w hw
  rcases hrun : r.reconcile w with ⟨u, w'⟩ | ⟨e, w'⟩
  · have ht := r.reconcile_touches.ok hrun
    have huntouched {n : String} (hn : n ∉ r.secretNames) :
        Field.object .secret n ∉ r.footprint.fields :=
      fun hmem => hn ((r.mem_footprint_secrets n).mp hmem)
    cases r' with
    | backupDaemon q =>
      have hdistinct := (hprivate.distinct hr').backupDaemon
      have haliases := q.getS3AliasesSecretName_ne_empty
      refine ⟨BackupDaemonResourceProvider.AliasesSeen.of_touches hw.1 ht (huntouched fun hn => ?_),
        fun hmonitoring hon => ?_⟩
      · -- the aliases belong to the daemon alone
        obtain ⟨p, q', -, hq, -, hown⟩ :=
          hprivate.shared hr hr' hlt hn (by simp [secretNames]) haliases
        cases hq
        exact hdistinct.aliases hown.symm
      · by_cases hn : q.spec.secretName ∈ r.secretNames
        · by_cases hempty : q.spec.secretName = ""
          · intro s hs hneed
            have hname := Store.name_of_get? hs
            exact absurd (hname.trans hempty) (name_ne_of_needToCleanSecret hneed)
          · -- the one Secret that two components share is the daemon's, which Monitoring watches
            obtain ⟨p, q', rfl, hq, hn', -⟩ :=
              hprivate.shared hr hr' hlt hn (List.mem_cons_self ..) hempty
            have hcalm :=
              MonitoringResourceProvider.reconcile_calm (hprivate.distinct hr).monitoring hn'
            exact hcalm.ok (hw.2 hmonitoring hon) hrun
        · exact (hw.2 hmonitoring hon).of_touches ht (huntouched hn)
    | _ => exact ⟨trivial, trivial⟩
  · trivial

/-- The pass of a component leaves those before it at rest. -/
theorem reconcile_keepsAtRest (hcr : cr.Identified) (hprivate : cr.PrivateSecrets)
    (hr : r ∈ buildReconcilers cr) (hr' : r' ∈ buildReconcilers cr) (hlt : r'.rank < r.rank) :
    Triple (fun w => r'.AtRest cr w ∧ r.Ready w) r.reconcile (fun _ => r'.AtRest cr)
      fun _ _ => True := by
  intro w hw
  have hown := reconcile_atRest hcr hr (hprivate.distinct hr) w hw.2.1
  rcases hrun : r.reconcile w with ⟨u, w'⟩ | ⟨e, w'⟩
  · rw [hrun] at hown
    have ht := r.reconcile_touches.ok hrun
    have hspares {n : String} (hn : n ∉ r.secretNames) (hne : n ≠ "") :
        SparesSecret n r.footprint.fields :=
      ⟨fun hmem => hn ((r.mem_footprint_secrets n).mp hmem),
        fun hmem => hmem.elim hne fun hmem => hn ((r.mem_footprint_secrets n).mp hmem)⟩
    have hdeployments : ∀ name ∈ r'.deploymentNames,
        Field.object .deployment name ∉ r.footprint.fields := deployments_of_rank_lt hr' hr hlt
    refine ⟨fun π hπ => ?_, fun n hn hne => ?_, fun n hn hne haliases => ?_,
      fun n hn hne name hname => ?_⟩
    · exact Eq.trans (ht.same (.recordedHash _) (hashes_of_rank_lt hlt π hπ)) (hw.1.hashed π hπ)
    · by_cases hmem : n ∈ r.secretNames
      · exact hown.remembers n hmem hne
      · exact (hw.1.remembers n hn hne).of_touches ht (hspares hmem hne)
    · by_cases hmem : n ∈ r.secretNames
      · refine hown.watched n hmem hne fun hn' => ?_
        obtain ⟨p, q, -, rfl, -, rfl⟩ := hprivate.shared hr' hr hlt hn hmem hne
        exact (hprivate.distinct hr).backupDaemon.aliases (Option.some.inj hn')
      · exact (hw.1.watched n hn hne haliases).of_touches ht (hspares hmem hne).object
    · by_cases hmem : n ∈ r.secretNames
      · -- the Secret is that of the backup daemon, and the Deployment that of Monitoring
        obtain ⟨p, q, rfl, rfl, -, rfl⟩ := hprivate.shared hr' hr hlt hn hmem hne
        intro d hd
        rw [ht.get? (hdeployments name hname)] at hd
        obtain ⟨hp, hq⟩ := And.intro (cr_of_monitoring_mem hr') (cr_of_backupDaemon_mem hr)
        refine (BackupDaemonResourceProvider.reconcile_stamped (hprivate.distinct hr).backupDaemon
          d.templateAnnotations).ok ⟨?_, hw.1.marks _ hn hne name hname d hd, hw.2.2 ?_⟩ hrun
        · rw [hq]
          exact hw.1.watched _ hn hne (Option.not_mem_none _)
        · rw [hq, ← hp, p.spec_eq]
          rfl
      · exact (hw.1.marks n hn hne name hname).of_touches ht (hdeployments name hname)
          (hspares hmem hne).object
  · trivial

end Reconciler

section FirstCall

variable {cr : ZooKeeperService}

/-- All components are at rest, and the hash of the global section is remembered. -/
structure Rested (cr : ZooKeeperService) (w : World) : Prop where
  atRest : ∀ r ∈ buildReconcilers cr, r.AtRest cr w
  global : w.resourceHashes.lookup globalHashName = some (.global cr.spec.global)

/-- After so many passes: those components are at rest, and the others are ready. -/
structure Resting (cr : ZooKeeperService) (done : List Reconciler) (w : World) : Prop where
  atRest : ∀ r ∈ done, r.AtRest cr w
  ready : ∀ r ∈ buildReconcilers cr, r ∉ done → r.Ready w

/-- And so are the components at rest. -/
theorem Resting.of_touches {done : List Reconciler} {w w' : World} {T : Set Field}
    (h : Resting cr done w) (ht : Touches T w w') (hT : SparesComponents T) :
    Resting cr done w' where
  atRest r hr := (h.atRest r hr).of_touches ht hT
  ready r hr hdone := (h.ready r hr hdone).of_touches ht hT

theorem sparesComponents_controllerFields : SparesComponents controllerFields where
  secrets n _ := sparesSecret_controllerFields n
  deployments name := by simp [controllerFields, statusFields]
  hashes c := by cases c <;> simp [controllerFields, statusFields, hashName, globalHashName]

/-- One more component at rest: a pass that returns leaves its component at rest, and those before
it. -/
theorem Reconciler.reconcile_resting (hcr : cr.Identified) (hprivate : cr.PrivateSecrets)
    {done rest : List Reconciler} {r : Reconciler}
    (hlist : buildReconcilers cr = done ++ r :: rest) :
    Triple (Resting cr done) r.reconcile (fun _ => Resting cr (done ++ [r])) fun _ _ => True := by
  have hmem : ∀ r' ∈ done ++ r :: rest, r' ∈ buildReconcilers cr := fun r' hr' => hlist ▸ hr'
  have hr : r ∈ buildReconcilers cr := hmem r (by simp)
  obtain ⟨hbefore, hafter⟩ := rank_lt_of_split hlist
  have hnew : r ∉ done := fun h => lt_irrefl _ (hbefore r h)
  intro w hw
  have hready := hw.ready r hr hnew
  rcases hrun : r.reconcile w with ⟨u, w'⟩ | ⟨e, w'⟩
  · refine ⟨fun r' hr' => ?_, fun r' hr' hdone => ?_⟩
    · rcases List.mem_append.mp hr' with hr' | hr'
      · exact (reconcile_keepsAtRest hcr hprivate hr (hmem r' (List.mem_append_left _ hr'))
          (hbefore r' hr')).ok ⟨hw.atRest r' hr', hready⟩ hrun
      · rw [List.mem_singleton.mp hr']
        exact (reconcile_atRest hcr hr (hprivate.distinct hr)).ok hready.1 hrun
    · rw [List.mem_append, List.mem_singleton, not_or] at hdone
      have hrest : r' ∈ rest := by
        rw [hlist, List.mem_append, List.mem_cons] at hr'
        exact (hr'.resolve_left hdone.1).resolve_left hdone.2
      exact (reconcile_ready hprivate hr hr' (hafter r' hrest)).ok (hw.ready r' hr' hdone.1) hrun
  · trivial

/-- **A call that returns nil leaves all components at rest.** -/
theorem reconcile_rests (hcr : cr.Identified) (hprivate : cr.PrivateSecrets) :
    Triple (fun w => w.cr = some cr ∧ ∀ r ∈ buildReconcilers cr, r.Ready w) reconcile
      (fun _ => Rested cr) fun _ _ => True := by
  have hfields : preparationFields ⊆ controllerFields :=
    Set.union_subset_union_right _ (Set.singleton_subset_iff.mpr (.inl rfl))
  have hspares := sparesComponents_controllerFields
  refine (reconcile_triple_recording (I := Resting cr) (E := fun _ => True) (Q := Rested cr)
    (fun done w w' hw ht => hw.of_touches (ht.mono hfields) hspares) (fun _ _ _ _ => trivial)
    (fun _ _ _ => trivial) (fun done r rest hlist => ?_) fun w hw => ?_).conseq
    (fun w hw => ⟨hw.1, fun r hr => absurd hr List.not_mem_nil, fun r hr _ => hw.2 r hr⟩)
    (fun _ _ h => h) fun _ _ h => h
  · exact (r.reconcile_resting hcr hprivate hlist).conseq (fun _ h => h.1) (fun _ _ h => h)
      fun _ _ h => h
  · refine ⟨(hw.of_touches (touches_recordHashes w cr) hspares).atRest, ?_⟩
    exact Finmap.lookup_insert _

end FirstCall

/-! ## The calls that follow -/

/-- The fields that a call may touch when all components are at rest. The hash of the whole
specification plays no role for them, and neither does a Secret without a name. -/
def idleFields : Set Field :=
  preparationFields ∪ {.tested, .recordedHash "spec", .object .secret "", .recordedVersion ""}

/-- An idle call touches nothing of the components. -/
theorem sparesComponents_idleFields : SparesComponents idleFields where
  secrets n hne := ⟨by simp [idleFields, preparationFields, statusFields, hne],
    by simp [idleFields, preparationFields, statusFields, hne]⟩
  deployments name := by simp [idleFields, preparationFields, statusFields]
  hashes c := by cases c <;> simp [idleFields, preparationFields, statusFields, hashName]

section Idle

variable {cr : ZooKeeperService} {r : Reconciler} {c : Component} {digest : Digest}
  {secrets : List (Option Secret)} {w₁ : World}

/-- Nothing has been done since the world was as it was. -/
def Idle (cr : ZooKeeperService) (w₁ w : World) : Prop :=
  Touches idleFields w₁ w ∧ GlobalHashed cr w

/-- Steps within these fields keep a call idle. -/
theorem Idle.of_touches {T : Set Field} {w w' : World} (h : Idle cr w₁ w) (ht : Touches T w w')
    (hT : T ⊆ idleFields) (hglobal : .globalHash ∉ T) : Idle cr w₁ w' :=
  ⟨trans_of _ h.1 (ht.mono hT), h.2.of_touches ht hglobal⟩

/-- Requests that come to nothing do. -/
theorem stable_idle : Stable (Idle cr w₁) :=
  fun _ _ ht hw => hw.of_touches ht (Set.empty_subset _) (Set.notMem_empty _)

theorem stable_idle_stored (names : List String) (secrets : List (Option Secret)) :
    Stable fun w => Idle cr w₁ w ∧ Stored names secrets w := by
  refine fun w w' ht hw => ⟨stable_idle w w' ht hw.1, fun s hs hne => ?_⟩
  rw [ht.get? (Set.notMem_empty _)]
  exact hw.2 s hs hne

/-- Watching the own Secret has nothing to do. -/
theorem watchOwnSecret_idles {own : String} {names : List String} (hmem : own ∈ names)
    (h : own ≠ "" → Watched cr own w₁) :
    Triple (Idle cr w₁) (watchOwnSecret own cr)
      (fun s w => Idle cr w₁ w ∧ Stored names [some s] w) fun _ => Idle cr w₁ := by
  have hidle : Triple (Idle cr w₁) (watchOwnSecret own cr) (fun _ => Idle cr w₁)
      fun _ => Idle cr w₁ := by
    by_cases hown : own = ""
    · subst hown
      have htouch :=
        watchOwnSecret_writes (T := {.object .secret ""}) cr ⟨Set.mem_singleton _, by simp⟩
      refine htouch.triple fun w w' hw ht => hw.of_touches ht ?_ (by simp)
      exact Set.singleton_subset_iff.mpr (.inr (.inr (.inr (.inl rfl))))
    · exact watchOwnSecret_idle stable_idle fun w hw => (h hown).of_touches hw.1
        (sparesComponents_idleFields.secrets own hown).object
  refine (hidle.and (watchOwnSecret_holds own cr)).conseq (fun _ h => ⟨h, trivial⟩)
    (fun s w hw => ⟨hw.1, (hw.2.inHand hmem (by simp)).2⟩) fun _ _ h => h.1

/-- Watching a further Secret has nothing to do. -/
theorem watchOtherSecret_idles {secretName : Option String} {names : List String}
    (hmem : ∀ n ∈ secretName, n ∈ names ∧ n ≠ "" ∧ Watched cr n w₁) :
    Triple (fun w => Idle cr w₁ w ∧ Stored names secrets w) (watchOtherSecret secretName cr)
      (fun o w => Idle cr w₁ w ∧ Stored names (secrets ++ [o]) w) fun _ => Idle cr w₁ := by
  have hidle : Triple (fun w => Idle cr w₁ w ∧ Stored names secrets w)
      (watchOtherSecret secretName cr) (fun _ w => Idle cr w₁ w ∧ Stored names secrets w)
      fun _ w => Idle cr w₁ w ∧ Stored names secrets w :=
    watchOtherSecret_idle (stable_idle_stored names secrets) fun w hw n hn =>
      (hmem n hn).2.2.of_touches hw.1.1
        (sparesComponents_idleFields.secrets n (hmem n hn).2.1).object
  refine (hidle.and (watchOtherSecret_holds secretName cr)).conseq (fun _ h => ⟨h, trivial⟩)
    (fun o w hw => ⟨hw.1.1, fun s hs hne => ?_⟩) fun _ _ h => h.1.1
  rcases List.mem_append.mp hs with hs | hs
  · exact hw.1.2 s hs hne
  · obtain rfl := List.mem_singleton.mp hs
    exact ⟨(hmem _ hw.2.name_eq).1, hw.2.stored⟩

variable (hrest : r.AtRest cr w₁) (hdigest : r.sectionDigest = some (c, digest))
include hrest hdigest

/-- In an idle call a component finds the hash of its section. -/
theorem Idle.hashed {w : World} (h : Idle cr w₁ w) :
    w.resourceHashes.lookup (hashName c) = some digest :=
  Eq.trans (h.1.same (.recordedHash _) (sparesComponents_idleFields.hashes c))
    (hrest.hashed (c, digest) hdigest)

omit hdigest in
/-- It finds the versions of its Secrets remembered. -/
theorem Idle.lookup_version {w : World} (h : Idle cr w₁ w)
    (hstored : Stored r.secretNames secrets w)
    {s : Secret} (hs : some s ∈ secrets) (hne : s.metadata.name ≠ "") :
    w.resourceVersions.lookup s.metadata.name = some s.metadata.resourceVersion := by
  obtain ⟨hmem, hget⟩ := hstored s hs hne
  exact (hrest.remembers _ hmem hne).of_touches h.1
    (sparesComponents_idleFields.secrets _ hne) s hget

/-- The change test finds no change. -/
theorem testChanged_idle (hglobal : w₁.resourceHashes.lookup globalHashName =
      some (.global cr.spec.global)) :
    Triple (fun w => Idle cr w₁ w ∧ Stored r.secretNames secrets w) (testChanged c digest secrets)
      (fun isChanged w => isChanged = false ∧ Idle cr w₁ w ∧ Stored r.secretNames secrets w)
      fun _ => Idle cr w₁ := by
  intro w hw
  have hrecorded : w.resourceHashes.lookup globalHashName = w.globalSpecHash := by
    have hkept : w.resourceHashes.lookup globalHashName = w₁.resourceHashes.lookup globalHashName :=
      hw.1.1.same (.recordedHash _)
        (by simp [idleFields, preparationFields, statusFields, globalHashName])
    rw [hkept, hglobal, hw.1.2]
  have hversions : secrets.any (secretVersionChanged w.resourceVersions) = false := by
    rw [List.any_eq_false]
    rintro (- | s) hs
    · exact Bool.false_ne_true
    · by_cases hne : s.metadata.name = ""
      · simp [secretVersionChanged, hne]
      · simp [secretVersionChanged, hw.1.lookup_version hrest hw.2 hs hne]
  have hsame : changed c digest secrets w = false := by
    simp [changed, hw.1.hashed hrest hdigest, hrecorded, hversions]
  simp only [testChanged, hsame, Bool.false_eq_true, if_false]
  refine ⟨trivial,
    hw.1.of_touches (T := {.tested}) ⟨fun f hf => ?_, { Evolves.refl w with }⟩ ?_ (by simp),
    hw.2⟩
  · cases f with
    | tested => exact absurd (Set.mem_singleton _) hf
    | storedAnnotations => exact ⟨rfl, .inl rfl⟩
    | conditions => exact ⟨⟨rfl, .inl rfl⟩, rfl⟩
    | _ => rfl
  · exact Set.singleton_subset_iff.mpr (.inr (.inl rfl))

/-- There is nothing new to be remembered. -/
theorem remember_idle :
    Triple (fun w => Idle cr w₁ w ∧ Stored r.secretNames secrets w) (remember c digest secrets)
      (fun _ => Idle cr w₁) fun _ => Idle cr w₁ := by
  refine triple_update fun w hw => hw.1.of_touches (T := {.recordedVersion ""})
    ⟨fun f hf => ?_, { Evolves.refl w with }⟩ ?_ (by simp)
  · cases f with
    | recordedVersion n =>
      have hne : n ≠ "" := fun h => hf (h ▸ Set.mem_singleton _)
      show (rememberedVersions secrets w.resourceVersions).lookup n = w.resourceVersions.lookup n
      by_cases hmem : ∃ s, some s ∈ secrets ∧ s.metadata.name = n
      · obtain ⟨s, hs, rfl⟩ := hmem
        rw [hw.1.lookup_version hrest hw.2 hs hne]
        refine lookup_rememberedVersions_of_mem hs fun s' hs' hname => ?_
        have hget := (hw.2 s' hs' (hname ▸ hne)).2
        rw [hname] at hget
        exact Option.some.inj (hget.symm.trans (hw.2 s hs hne).2)
      · exact lookup_rememberedVersions fun s hs hname => hmem ⟨s, hs, hname⟩
    | recordedHash name =>
      show (w.resourceHashes.insert (hashName c) digest).lookup name = w.resourceHashes.lookup name
      by_cases hname : name = hashName c
      · subst hname
        rw [Finmap.lookup_insert, hw.1.hashed hrest hdigest]
      · exact Finmap.lookup_insert_of_ne _ hname
    | storedAnnotations => exact ⟨rfl, .inl rfl⟩
    | conditions => exact ⟨⟨rfl, .inl rfl⟩, rfl⟩
    | _ => rfl
  · exact Set.singleton_subset_iff.mpr (.inr (.inr (.inr (.inr rfl))))

omit hdigest in
/-- It finds its Deployments marked. -/
theorem Idle.markedAt {w : World} (h : Idle cr w₁ w) (hstored : Stored r.secretNames secrets w)
    {name : String} (hname : name ∈ r.deploymentNames) : MarkedAt name secrets w := by
  intro d hd s hs hasks
  obtain ⟨hmem, hget⟩ := hstored s hs hasks.1
  have hspares := sparesComponents_idleFields
  exact (hrest.marks _ hmem hasks.1 name hname).of_touches h.1 (hspares.deployments name)
    (hspares.secrets _ hasks.1).object d hd s hget hasks

omit hdigest in
/-- The Deployment has its marks. -/
theorem mark_idle {name : String} (hname : name ∈ r.deploymentNames) :
    Triple (fun w => Idle cr w₁ w ∧ Stored r.secretNames secrets w)
      (updateDeploymentSecretRestartAnnotations name secrets)
      (fun _ w => Idle cr w₁ w ∧ Stored r.secretNames secrets w) fun _ => Idle cr w₁ :=
  (updateDeploymentSecretRestartAnnotations_idle (stable_idle_stored _ _)
    fun _ hw => hw.1.markedAt hrest hw.2 hname).conseq (fun _ h => h) (fun _ _ h => h)
      fun _ _ h => h.1

omit hrest hdigest in
/-- The apply branch is passed over. -/
theorem skip_idle {isChanged : Bool} {names : List String} (apply : Op Secret) (s : Secret) :
    Triple (fun w => isChanged = false ∧ Idle cr w₁ w ∧ Stored names (some s :: secrets) w)
      (if isChanged then apply else pure s)
      (fun s' w => Idle cr w₁ w ∧ Stored names (some s' :: secrets) w) fun _ => Idle cr w₁ := by
  rintro w ⟨rfl, hw⟩
  exact hw

end Idle

/-- The aliases that are found are the stored ones. -/
theorem BackupDaemonResourceProvider.findS3Aliases_finds (p : BackupDaemonResourceProvider) :
    Triple (fun _ => True) p.findS3Aliases
      (fun a w => ∀ s ∈ a, w.get? .secret p.getS3AliasesSecretName = some s) fun _ _ => True := by
  refine Triple.recover (E := fun _ _ => True) ?_ (fun e k hk => ?_) fun _ _ _ _ => trivial
  · refine ((clientGet_triple (P := fun _ => True) (fun _ _ _ _ => trivial) .secret _).bind
      fun found => triple_pure fun w hw => ?_).conseq (fun _ h => h) (fun _ _ h => h) fun _ _ h => h
    rintro _ ⟨⟩
    exact hw.2
  · split at hk <;> cases hk
    exact triple_pure fun _ _ s hs => absurd hs (Option.not_mem_none s)

section Passes

variable {w₁ : World}

/-- The pass of ZooKeeper at rest. -/
theorem ZooKeeperResourceProvider.reconcile_idle {p : ZooKeeperResourceProvider}
    (hrest : (Reconciler.zooKeeper p).AtRest p.cr w₁)
    (hglobal : w₁.resourceHashes.lookup globalHashName = some (.global p.cr.spec.global)) :
    Triple (Operator.Idle p.cr w₁) p.reconcile (fun _ => Operator.Idle p.cr w₁)
      fun _ => Operator.Idle p.cr w₁ := by
  have hown : p.spec.secretName ∈ (Reconciler.zooKeeper p).secretNames :=
    List.mem_singleton_self _
  refine Triple.bind (Q := fun s w => Operator.Idle p.cr w₁ w ∧
    Operator.Stored (Reconciler.zooKeeper p).secretNames [some s] w) ?_
      fun s => remember_idle hrest rfl
  refine (watchOwnSecret_idles hown fun hne => hrest.watched _ hown hne
    (Option.not_mem_none _)).bind fun s => ?_
  refine (testChanged_idle hrest rfl hglobal).bind fun isChanged => ?_
  refine (skip_idle _ s).bind fun s' => ?_
  refine Triple.bind ((p.markRestarts_idle (stable_idle_stored _ [some s'])
    fun w hw i hi => hw.1.markedAt hrest hw.2 (List.mem_map_of_mem hi)).conseq (fun _ h => h)
    (fun _ _ h => h) fun _ _ h => h.1) fun _ => triple_pure fun _ hw => hw

/-- The pass of Monitoring at rest. -/
theorem MonitoringResourceProvider.reconcile_idle {p : MonitoringResourceProvider}
    (hrest : (Reconciler.monitoring p).AtRest p.cr w₁)
    (hglobal : w₁.resourceHashes.lookup globalHashName = some (.global p.cr.spec.global)) :
    Triple (Idle p.cr w₁) p.reconcile (fun _ => Idle p.cr w₁) fun _ => Idle p.cr w₁ := by
  have hown : p.spec.secretName ∈ (Reconciler.monitoring p).secretNames := List.mem_cons_self ..
  refine (watchOwnSecret_idles hown fun hne => hrest.watched _ hown hne
    (Option.not_mem_none _)).bind fun s => ?_
  refine (watchOtherSecret_idles fun n hn => ?_).bind fun o => ?_
  · have hmem : n ∈ (Reconciler.monitoring p).secretNames :=
      List.mem_cons_of_mem _ (Option.mem_toList.mpr hn)
    have hne := p.ne_empty_of_mem hn
    exact ⟨hmem, hne, hrest.watched n hmem hne (Option.not_mem_none _)⟩
  refine (testChanged_idle hrest rfl hglobal).bind fun isChanged => ?_
  refine (skip_idle _ s).bind fun s' => ?_
  exact (mark_idle hrest (List.mem_singleton_self _)).bind fun _ => remember_idle hrest rfl

/-- Looking for the aliases keeps a call idle, and whatever is found is stored. -/
theorem BackupDaemonResourceProvider.findS3Aliases_idles {cr : ZooKeeperService}
    (p : BackupDaemonResourceProvider) (secrets : List (Option Secret)) :
    Triple (fun w => Idle cr w₁ w ∧ Stored (Reconciler.backupDaemon p).secretNames secrets w)
      p.findS3Aliases
      (fun a w => Idle cr w₁ w ∧
        Stored (Reconciler.backupDaemon p).secretNames (secrets ++ [a]) w)
      fun _ => Idle cr w₁ := by
  refine (((p.findS3Aliases_touches (T := ∅)).triple fun w w' hw ht =>
    stable_idle_stored _ _ w w' ht hw).and p.findS3Aliases_finds).conseq (fun _ h => ⟨h, trivial⟩)
    (fun a w hw => ⟨hw.1.1, fun s hs hne => ?_⟩) fun _ _ h => h.1.1
  rcases List.mem_append.mp hs with hs | hs
  · exact hw.1.2 s hs hne
  · have hget := hw.2 s (List.mem_singleton.mp hs).symm
    have hname : s.metadata.name = p.getS3AliasesSecretName := Store.name_of_get? hget
    rw [hname]
    exact ⟨by simp [Reconciler.secretNames], hget⟩

/-- The pass of the backup daemon at rest. Its aliases are never watched, so they may not be one of
the Secrets that are. -/
theorem BackupDaemonResourceProvider.reconcile_idle {p : BackupDaemonResourceProvider}
    (hdistinct : p.DistinctSecrets) (hrest : (Reconciler.backupDaemon p).AtRest p.cr w₁)
    (hglobal : w₁.resourceHashes.lookup globalHashName = some (.global p.cr.spec.global)) :
    Triple (Idle p.cr w₁) p.reconcile (fun _ => Idle p.cr w₁) fun _ => Idle p.cr w₁ := by
  have hown : p.spec.secretName ∈ (Reconciler.backupDaemon p).secretNames := List.mem_cons_self ..
  have hwatched {n : String} (hn : n ∈ (Reconciler.backupDaemon p).secretNames) (hne : n ≠ "")
      (haliases : n ≠ p.getS3AliasesSecretName) : Watched p.cr n w₁ :=
    hrest.watched n hn hne fun h => haliases (Option.some.inj h).symm
  refine (watchOwnSecret_idles hown fun hne => hwatched hown hne
    hdistinct.aliases.symm).bind fun s => ?_
  refine (watchOtherSecret_idles fun n hn => ?_).bind fun o => ?_
  · have hmem : n ∈ (Reconciler.backupDaemon p).secretNames :=
      List.mem_cons_of_mem _ (List.mem_append_left _ (Option.mem_toList.mpr hn))
    have hne := p.ne_empty_of_mem hn
    exact ⟨hmem, hne, hwatched hmem hne (hdistinct.s3 n hn).2⟩
  refine (p.findS3Aliases_idles _).bind fun a => ?_
  refine (testChanged_idle hrest rfl hglobal).bind fun isChanged => ?_
  refine (skip_idle _ s).bind fun s' => ?_
  exact (mark_idle hrest (List.mem_singleton_self _)).bind fun _ => remember_idle hrest rfl

/-- **The pass of a component at rest has nothing to do.** -/
theorem Reconciler.reconcile_idle {cr : ZooKeeperService} {r : Reconciler}
    (hdistinct : r.DistinctSecrets) (hrested : Rested cr w₁) (hr : r ∈ buildReconcilers cr) :
    Triple (Idle cr w₁) r.reconcile (fun _ => Idle cr w₁) fun _ => Idle cr w₁ := by
  have hrest := hrested.atRest r hr
  rcases mem_buildReconcilers hr with ⟨p, rfl, rfl⟩ | ⟨p, rfl, rfl⟩ | ⟨p, rfl, rfl⟩ | ⟨tests, rfl⟩
  · exact ZooKeeperResourceProvider.reconcile_idle hrest hrested.global
  · exact MonitoringResourceProvider.reconcile_idle hrest hrested.global
  · exact BackupDaemonResourceProvider.reconcile_idle hdistinct.backupDaemon hrest hrested.global
  · exact triple_pure fun _ hw => hw

end Passes

/-- **A call has nothing to do when all components are at rest**, however it ends. -/
theorem reconcile_idle {cr : ZooKeeperService} {w₁ : World} (hprivate : cr.PrivateSecrets)
    (hrested : Rested cr w₁) (hcr : w₁.cr = some cr) :
    Touches idleFields w₁ (reconcile w₁).next := by
  have hfields : preparationFields ⊆ idleFields := Set.subset_union_left
  have hidle : Triple (fun w => w.cr = some cr ∧ Touches idleFields w₁ w) reconcile
      (fun _ => Touches idleFields w₁) fun _ => Touches idleFields w₁ := by
    refine reconcile_triple_recording (I := fun _ => Touches idleFields w₁)
      (fun _ w w' hw ht => trans_of _ hw (ht.mono hfields))
      (fun w w' hw ht => trans_of _ hw (ht.mono hfields)) (fun _ _ h => h)
      (fun done r rest hlist => ?_) fun w hw => ?_
    · have hr : r ∈ buildReconcilers cr := by
        rw [hlist]
        exact List.mem_append_right _ (List.mem_cons_self ..)
      exact (r.reconcile_idle (hprivate.distinct hr) hrested hr).conseq (fun _ h => h)
        (fun _ _ h => h.1) fun _ _ h => h.1
    · -- the hash of the global section is the remembered one
      have hglobal : w.resourceHashes.lookup globalHashName = some (.global cr.spec.global) :=
        Eq.trans (hw.same (.recordedHash _)
          (by simp [idleFields, preparationFields, statusFields, globalHashName])) hrested.global
      have hsame : Touches idleFields w (w.recordHashes cr) := by
        refine ⟨fun f hf => ?_, { Evolves.refl w with }⟩
        cases f with
        | recordedHash name =>
          have hspec : name ≠ "spec" := fun h => hf (h ▸ .inr (.inr (.inl rfl)))
          show ((w.resourceHashes.insert "spec" _).insert globalHashName _).lookup name = _
          by_cases hname : name = globalHashName
          · subst hname
            rw [Finmap.lookup_insert, hglobal]
          · rw [Finmap.lookup_insert_of_ne _ hname, Finmap.lookup_insert_of_ne _ hspec]
        | storedAnnotations => exact ⟨rfl, .inl rfl⟩
        | conditions => exact ⟨⟨rfl, .inl rfl⟩, rfl⟩
        | _ => rfl
      exact trans_of _ hw hsame
  rcases hrun : reconcile w₁ with ⟨u, w'⟩ | ⟨e, w'⟩
  · exact hidle.ok ⟨hcr, refl_of _ w₁⟩ hrun
  · exact hidle.raised ⟨hcr, refl_of _ w₁⟩ hrun

/-- Without a custom resource there is nothing to do either. -/
theorem reconcile_absent {w₁ : World} (hcr : w₁.cr = none) :
    Touches idleFields w₁ (reconcile w₁).next := by
  have hfetch : Within (Touches idleFields) ((some <$> getInstance).recover fun e =>
      if e.isNotFound then some (pure none) else none) :=
    ((getInstance_touches (Set.subset_union_left.trans Set.subset_union_left)).map some).recover_if
      fun _ => within_pure none
  have hnone : Triple (fun w => w.cr = none) ((some <$> getInstance).recover fun e =>
      if e.isNotFound then some (pure none) else none) (fun found _ => found = none)
      fun _ _ => True := by
    refine Triple.recover (E := fun _ _ => True) (fun w hw => ?_) (fun e k hk => ?_)
      fun _ _ _ _ => trivial
    · rcases hrun : (some <$> getInstance) w with ⟨found, t⟩ | ⟨e, t⟩
      · obtain ⟨cr, t, hget, -⟩ := bind_ok_inv hrun
        cases hw.symm.trans (getInstance_ok_inv hget).1
      · trivial
    · split at hk <;> cases hk
      exact triple_pure fun _ _ => rfl
  rw [reconcile, bind_apply]
  rcases hrun : (some <$> getInstance).recover (fun e =>
      if e.isNotFound then some (pure none) else none) w₁ with ⟨found, t⟩ | ⟨e, t⟩
  · obtain rfl := hnone.ok hcr hrun
    exact hfetch.ok hrun
  · exact hfetch.raised hrun

/-! ## Calls in a row -/

namespace Idempotence

/-- Calls of `Reconcile`, and nobody else who does anything. -/
def interplay : Interplay World Empty Call where
  others w _ := w
  call w call := (reconcile (call.start w)).next

/-- The specification of a Deployment: all but its metadata. -/
def specification (d : Deployment) : Deployment := { d with metadata := {} }

/-- If the first call returns nil, then no Deployment has another specification after the
further calls. -/
def Unchanged (w : World) (first : Call) (further : List Call) : Prop :=
  (reconcile (first.start w)).returned = true →
    ∀ name, ((interplay.run (reconcile (first.start w)).next (further.map .call)).get? .deployment
        name).map specification =
      ((reconcile (first.start w)).next.get? .deployment name).map specification

/-- The condition on the first call: the custom resource carries its group and kind, no two Secrets
have the same name, the lookup of the aliases of S3 stores cannot fail or there are none; and with
Vault on and Monitoring enabled, the Secret of the backup daemon does not ask for restarts if it
has to be cleaned. -/
def Careful (w : World) (first : Call) : Prop :=
  ∀ cr ∈ w.cr, cr.Identified ∧ cr.PrivateSecrets ∧
    ∀ r ∈ buildReconcilers cr, r.Ready (first.start w)

instance (w : World) (first : Call) : Decidable (Careful w first) :=
  inferInstanceAs (Decidable (∀ _ ∈ _, _))

/-- The components of the custom resource, if there is one, are at rest. -/
def AllRested (w : World) : Prop := ∀ cr ∈ w.cr, cr.PrivateSecrets ∧ Rested cr w

/-- A new call starts from components at rest. -/
theorem AllRested.start {w : World} (h : AllRested w) (call : Call) : AllRested (call.start w) := by
  intro cr hcr
  obtain ⟨hprivate, hrested⟩ := h cr hcr
  exact ⟨hprivate, fun r hr => ⟨(hrested.atRest r hr).hashed, (hrested.atRest r hr).remembers,
    (hrested.atRest r hr).watched, (hrested.atRest r hr).marks⟩, hrested.global⟩

/-- A call among components at rest is idle, however it ends. -/
theorem AllRested.idle {w : World} (h : AllRested w) : Touches idleFields w (reconcile w).next := by
  rcases hcr : w.cr with - | cr
  · exact reconcile_absent hcr
  · obtain ⟨hprivate, hrested⟩ := h cr hcr
    exact reconcile_idle hprivate hrested hcr

/-- A call keeps the components at rest. -/
theorem AllRested.reconcile {w : World} (h : AllRested w) :
    AllRested (Operator.reconcile w).next := by
  intro cr hcr
  have ht := h.idle
  obtain ⟨hprivate, hrested⟩ := h cr (ht.evolves.cr ▸ hcr)
  refine ⟨hprivate, fun r hr => (hrested.atRest r hr).of_touches ht sparesComponents_idleFields, ?_⟩
  exact Eq.trans (ht.same (.recordedHash _)
    (by simp [idleFields, preparationFields, statusFields, globalHashName])) hrested.global

/-- Calls in a row leave the Deployments alone. -/
theorem AllRested.get?_run {w : World} (h : AllRested w) (turns : List (Turn Empty Call))
    (name : String) : (interplay.run w turns).get? .deployment name = w.get? .deployment name := by
  refine (Interplay.run_keeps (I := fun t => AllRested t ∧
    t.get? .deployment name = w.get? .deployment name) (fun _ _ h => h) (fun t call h => ?_)
    ⟨h, rfl⟩ turns).2
  have hstart := h.1.start call
  exact ⟨hstart.reconcile,
    (hstart.idle.get? (sparesComponents_idleFields.deployments name)).trans h.2⟩

/-- **Once a call has returned nil, further calls leave all Deployments alone**, if the first one
was made under the condition. -/
theorem unchanged_of_careful (w : World) (first : Call) (hcareful : Careful w first)
    (further : List Call) : Unchanged w first further := by
  intro hreturned name
  obtain ⟨u, w', hrun⟩ := Outcome.returned_iff.mp hreturned
  have hevolves := (reconcile_touches (first.start w)).evolves
  rw [hrun] at hevolves ⊢
  have hrested : AllRested w' := by
    intro cr hcr
    have hstart : (first.start w).cr = some cr := hevolves.cr.symm.trans hcr
    obtain ⟨hidentified, hprivate, hready⟩ := hcareful cr hstart
    exact ⟨hprivate, (reconcile_rests hidentified hprivate).ok ⟨hstart, hready⟩ hrun⟩
  exact congrArg (Option.map specification) (hrested.get?_run (further.map .call) name)

/-! ### A Secret that is cleaned after it has been marked -/

/-- A cluster with the Secret of the backup daemon, which asks for restarts, and a fresh
controller. Vault is on, and the monitoring agent is enabled. -/
def sampleWorld (data : Option StringMap) : World where
  cr := some { Passages.sampleResource (some Passages.sampleMonitoring) with
    apiVersion := "netcracker.com/v1"
    kind := "ZooKeeperService" }
  objects
    | .secret => Store.put ∅
      { metadata := {
          name := "backup-secret"
          annotations := some (Finmap.insert autoRestartAnnotation "true" ∅)
          resourceVersion := 1 }
        data := data }
    | _ => ∅
  version := 1
  vault := (Passages.sampleSession none).world.vault
  environment := HashGate.calm

/-- A call in which nothing fails. -/
def calmCall : Call := ⟨[], HashGate.calm⟩

/-- Without data there is nothing to be cleaned: a second call changes nothing. -/
theorem unchanged_sampleWorld :
    (reconcile (calmCall.start (sampleWorld none))).returned = true ∧
      Careful (sampleWorld none) calmCall ∧ Unchanged (sampleWorld none) calmCall [calmCall] := by
  have hreturned : (reconcile (calmCall.start (sampleWorld none))).returned = true := by
    decide +kernel
  have hcareful : Careful (sampleWorld none) calmCall := by decide +kernel
  exact ⟨hreturned, hcareful, unchanged_of_careful _ _ hcareful _⟩

/-- **With data in it the Secret is cleaned after Monitoring has marked its Deployment**: the second
call puts another mark there, and the pod is restarted. -/
theorem not_unchanged_sampleWorld :
    (reconcile (calmCall.start (sampleWorld (some (.ofList [("username", "admin")]))))).returned =
        true ∧
      ¬ Unchanged (sampleWorld (some (.ofList [("username", "admin")]))) calmCall [calmCall] := by
  have hreturned : (reconcile (calmCall.start
      (sampleWorld (some (.ofList [("username", "admin")]))))).returned = true := by decide +kernel
  refine ⟨hreturned, fun hunchanged => ?_⟩
  have hsame := congrArg (Option.bind · Deployment.templateAnnotations)
    (hunchanged hreturned "zookeeper-monitoring")
  revert hsame
  decide +kernel

end Idempotence

end QubershipZookeeper.Operator
