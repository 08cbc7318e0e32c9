import QubershipZookeeper.ZooKeeperProvider
import QubershipZookeeper.MonitoringProvider
import QubershipZookeeper.BackupDaemonProvider

/-!
# Labels and selectors

A Deployment and a Service find their pods by labels. The labels of the pods are joined from several
maps: those that a component sets itself, the default labels of all objects, and custom labels.
Custom labels never replace another one. Default labels do: they are joined **over** the labels by
which the pods are found, so that a default label with one of those keys detaches the pods
(`attached_iff`).
-/

namespace QubershipZookeeper.Operator

namespace StringMap

variable {selector labels defaults sideMap mainMap : StringMap} {k v : String}

/-- A selector selects the labels that have all its entries. -/
theorem selects_iff : selector.selects labels ↔
    ∀ k v, selector.lookup k = some v → labels.lookup k = some v := by
  constructor
  · intro h k v hk
    exact h ⟨k, v⟩ (Finmap.mem_lookup_iff.mp hk)
  · rintro h ⟨k, v⟩ he
    exact h k v (Finmap.mem_lookup_iff.mpr he)

/-- No key of the selector has another value in the map. -/
def Agrees (defaults selector : StringMap) : Prop :=
  ∀ e ∈ selector.entries, ∀ v ∈ defaults.lookup e.1, v = e.2

/-- Default labels agree with a selector where they do not give its keys other values. -/
theorem agrees_iff : defaults.Agrees selector ↔
    ∀ k v, selector.lookup k = some v → ∀ v', defaults.lookup k = some v' → v' = v := by
  constructor
  · intro h k v hk
    exact h ⟨k, v⟩ (Finmap.mem_lookup_iff.mp hk)
  · rintro h ⟨k, v⟩ he
    exact h k v (Finmap.mem_lookup_iff.mpr he)

/-- The main map wins. -/
theorem lookup_joinMaps (sideMap mainMap : StringMap) (k : String) :
    (joinMaps sideMap mainMap).lookup k = (mainMap.lookup k).or (sideMap.lookup k) := by
  by_cases hk : k ∈ mainMap
  · obtain ⟨v, hv⟩ := Finmap.mem_iff.mp hk
    rw [joinMaps, Finmap.lookup_union_left hk, hv]
    rfl
  · rw [joinMaps, Finmap.lookup_union_right hk, Finmap.lookup_eq_none.mpr hk]
    rfl

/-- One more pair in a selector. -/
theorem selects_insert (h : k ∉ selector) :
    selects (selector.insert k v) labels ↔ labels.lookup k = some v ∧ selector.selects labels := by
  rw [selects_iff, selects_iff]
  constructor
  · intro hall
    refine ⟨hall k v (Finmap.lookup_insert _), fun k' v' hk' => hall k' v' ?_⟩
    have hne : k' ≠ k := by
      rintro rfl
      exact h (Finmap.mem_of_lookup_eq_some hk')
    rwa [Finmap.lookup_insert_of_ne _ hne]
  · rintro ⟨hk, hall⟩ k' v' hk'
    by_cases hne : k' = k
    · subst hne
      rw [Finmap.lookup_insert] at hk'
      rwa [← hk']
    · rw [Finmap.lookup_insert_of_ne _ hne] at hk'
      exact hall k' v' hk'

/-- The labels of pods: default labels are joined over those of the selector, and all of them over
custom labels. The selector finds them just when the default labels agree with it. -/
theorem selects_iff_agrees {inner : StringMap} (base customLabels : StringMap)
    (h : ∀ k ∈ selector, inner.lookup k = (joinMaps (joinMaps base selector) defaults).lookup k) :
    selector.selects (joinMaps customLabels inner) ↔ defaults.Agrees selector := by
  rw [selects_iff, agrees_iff]
  refine forall₂_congr fun k v => imp_congr_right fun hk => ?_
  rw [lookup_joinMaps, h k (Finmap.mem_of_lookup_eq_some hk), lookup_joinMaps, lookup_joinMaps, hk]
  rcases defaults.lookup k with - | v'
  · simp
  · simp

end StringMap

open StringMap

/-! ## The pods of the components -/

namespace ZooKeeperResourceProvider

variable (p : ZooKeeperResourceProvider) (global : Global) (i : ℕ)

/-- The labels of the pods of a server. -/
abbrev podLabels : StringMap := p.getZooKeeperCustomLabels global (p.serverLabels global i)

theorem lookup_name_podLabels :
    (p.podLabels global i).lookup "name" = some (serverName p.cr.name i) := by
  rw [podLabels, getZooKeeperCustomLabels, lookup_joinMaps, serverLabels,
    Finmap.lookup_insert_of_ne _ (by decide), Finmap.lookup_insert_of_ne _ (by decide),
    Finmap.lookup_insert]
  rfl

theorem mem_selectorLabels {name k : String} :
    k ∈ getZooKeeperSelectorLabels name ↔ k = "clusterName" ∨ k = "component" := by
  simp [getZooKeeperSelectorLabels, StringMap.ofList, Finmap.mem_insert, Finmap.notMem_empty]

/-- The selector of all servers. -/
theorem selects_podLabels_iff :
    (getZooKeeperSelectorLabels p.cr.name).selects (p.podLabels global i) ↔
      global.defaultLabels.Agrees (getZooKeeperSelectorLabels p.cr.name) := by
  refine selects_iff_agrees (.ofList [("app.kubernetes.io/name", p.cr.name), ("name", p.cr.name)]) _
    fun k hk => ?_
  -- the keys that are set later are not those of the selector
  have hkeys : k ≠ "name" ∧ k ≠ "app.kubernetes.io/technology" ∧
    k ≠ "app.kubernetes.io/instance" := by
    rcases mem_selectorLabels.mp hk with rfl | rfl <;> decide
  rw [serverLabels, Finmap.lookup_insert_of_ne _ hkeys.2.2, Finmap.lookup_insert_of_ne _ hkeys.2.1,
    Finmap.lookup_insert_of_ne _ hkeys.1]
  rfl

/-- The selector of one server. -/
theorem selects_name_podLabels_iff :
    selects ((getZooKeeperSelectorLabels p.cr.name).insert "name" (serverName p.cr.name i))
        (p.podLabels global i) ↔
      global.defaultLabels.Agrees (getZooKeeperSelectorLabels p.cr.name) := by
  rw [selects_insert (by rw [mem_selectorLabels]; decide), p.selects_podLabels_iff]
  exact and_iff_right (p.lookup_name_podLabels global i)

end ZooKeeperResourceProvider

/-- The selector of Monitoring. -/
theorem MonitoringResourceProvider.selects_podLabels_iff (p : MonitoringResourceProvider)
    (global : Global) :
    p.getMonitoringSelectorLabels.selects
        (p.getMonitoringCustomLabels global (p.deploymentLabels global)) ↔
      global.defaultLabels.Agrees p.getMonitoringSelectorLabels := by
  refine selects_iff_agrees (.ofList [("app.kubernetes.io/name", p.getServiceName)])
    _ fun k hk => ?_
  have hkeys : k ≠ "app.kubernetes.io/technology" ∧ k ≠ "app.kubernetes.io/instance" := by
    have hk : k = "component" ∨ k = "name" := by
      simpa [getMonitoringSelectorLabels, StringMap.ofList, Finmap.mem_insert,
        Finmap.notMem_empty] using hk
    rcases hk with rfl | rfl <;> decide
  rw [deploymentLabels, Finmap.lookup_insert_of_ne _ hkeys.2, Finmap.lookup_insert_of_ne _ hkeys.1]
  rfl

/-- The selector of the backup daemon. -/
theorem BackupDaemonResourceProvider.selects_podLabels_iff (p : BackupDaemonResourceProvider)
    (global : Global) :
    p.getBackupDaemonSelectorLabels.selects
        (p.getBackupDaemonCustomLabels global (p.deploymentLabels global)) ↔
      global.defaultLabels.Agrees p.getBackupDaemonSelectorLabels := by
  refine selects_iff_agrees (.ofList [("app.kubernetes.io/name", p.getServiceName)])
    _ fun k hk => ?_
  have hkeys : k ≠ "app.kubernetes.io/technology" ∧ k ≠ "app.kubernetes.io/instance" := by
    have hk : k = "component" ∨ k = "name" := by
      simpa [getBackupDaemonSelectorLabels, StringMap.ofList, Finmap.mem_insert,
        Finmap.notMem_empty] using hk
    rcases hk with rfl | rfl <;> decide
  rw [deploymentLabels, Finmap.lookup_insert_of_ne _ hkeys.1, Finmap.lookup_insert_of_ne _ hkeys.2]
  rfl

/-! ## Pods that are found -/

/-- Every Deployment finds its own pods, and every Service finds the pods it is meant for: the
client and domain Services those of all servers, and the Service of a server those of that
server. -/
structure Attached (cr : ZooKeeperService) : Prop where
  servers : ∀ p : ZooKeeperResourceProvider, p.cr = cr →
    ∀ i d, p.newServerDeploymentForCR i = .ok d →
    d.selector.selects d.templateLabels ∧
    (∀ s, p.newZooKeeperClientServiceForCR = .ok s → s.selector.selects d.templateLabels) ∧
    (∀ s, p.newZooKeeperDomainServiceForCR = .ok s → s.selector.selects d.templateLabels) ∧
    ∀ s, p.newZooKeeperServerServiceForCR i = .ok s → s.selector.selects d.templateLabels
  monitoring : ∀ p : MonitoringResourceProvider, p.cr = cr →
    ∀ d, p.newMonitoringDeployment = .ok d →
    d.selector.selects d.templateLabels ∧
    ∀ s, p.newMonitoringClientService = .ok s → s.selector.selects d.templateLabels
  backupDaemon : ∀ p : BackupDaemonResourceProvider, p.cr = cr →
    ∀ aliases d, p.newBackupDaemonDeployment aliases = .ok d →
      d.selector.selects d.templateLabels ∧
      ∀ s, p.newBackupDaemonClientService = .ok s → s.selector.selects d.templateLabels

/-- The default labels give no other value to a key by which a component's pods are found. -/
structure Harmless (cr : ZooKeeperService) (defaultLabels : StringMap) : Prop where
  servers : cr.spec.zooKeeper.isSome → defaultLabels.Agrees (getZooKeeperSelectorLabels cr.name)
  monitoring : ∀ p : MonitoringResourceProvider, p.cr = cr →
    defaultLabels.Agrees p.getMonitoringSelectorLabels
  backupDaemon : ∀ p : BackupDaemonResourceProvider, p.cr = cr →
    defaultLabels.Agrees p.getBackupDaemonSelectorLabels

/-- Harmless default labels leave all objects attached. -/
theorem Harmless.attached {cr : ZooKeeperService}
    (h : ∀ global ∈ cr.spec.global, Harmless cr global.defaultLabels) : Attached cr where
  servers := by
    rintro p rfl i d hd
    obtain ⟨global, hglobal, hd⟩ := except_bind_ok_inv hd
    obtain ⟨affinity, -, hd⟩ := except_bind_ok_inv hd
    cases hd
    have hagrees := (h global (deref_ok_inv hglobal)).servers (Option.isSome_of_eq_some p.spec_eq)
    have hall := (p.selects_podLabels_iff global i).mpr hagrees
    have hone := (p.selects_name_podLabels_iff global i).mpr hagrees
    refine ⟨hone, fun s hs => ?_, fun s hs => ?_, fun s hs => ?_⟩ <;>
      obtain ⟨g, -, hs⟩ := except_bind_ok_inv hs <;> cases hs
    · exact hall
    · exact hall
    · exact hone
  monitoring := by
    rintro p rfl d hd
    obtain ⟨global, hglobal, hd⟩ := except_bind_ok_inv hd
    cases hd
    have hfound := (p.selects_podLabels_iff global).mpr
      ((h global (deref_ok_inv hglobal)).monitoring p rfl)
    refine ⟨hfound, fun s hs => ?_⟩
    obtain ⟨g, -, hs⟩ := except_bind_ok_inv hs
    cases hs
    exact hfound
  backupDaemon := by
    rintro p rfl aliases d hd
    obtain ⟨global, hglobal, hd⟩ := except_bind_ok_inv hd
    cases hd
    have hfound := (p.selects_podLabels_iff global).mpr
      ((h global (deref_ok_inv hglobal)).backupDaemon p rfl)
    refine ⟨hfound, fun s hs => ?_⟩
    obtain ⟨g, -, hs⟩ := except_bind_ok_inv hs
    cases hs
    exact hfound

/-- Only harmless ones do. -/
theorem Attached.harmless {cr : ZooKeeperService} (h : Attached cr) {global : Global}
    (hglobal : cr.spec.global = some global) : Harmless cr global.defaultLabels where
  servers hsome := by
    obtain ⟨spec, hspec⟩ := Option.isSome_iff_exists.mp hsome
    let p : ZooKeeperResourceProvider := ⟨cr, spec, hspec⟩
    -- the first server is pinned to the first node, if there is one
    obtain ⟨affinity, haffinity⟩ : ∃ affinity, p.getZooKeeperAffinityRules 1 = .ok affinity := by
      unfold ZooKeeperResourceProvider.getZooKeeperAffinityRules
      rcases p.spec.storage.nodes with - | ⟨node, nodes⟩
      · exact ⟨_, if_pos rfl⟩
      · exact ⟨_, if_neg (List.cons_ne_nil _ _)⟩
    obtain ⟨d, hd⟩ : ∃ d, p.newServerDeploymentForCR 1 = .ok d := by
      rw [ZooKeeperResourceProvider.newServerDeploymentForCR, haffinity,
        show p.cr.spec.global = some global from hglobal]
      exact ⟨_, rfl⟩
    have hfound := (h.servers p rfl 1 d hd).1
    obtain ⟨g, hg, hd⟩ := except_bind_ok_inv hd
    obtain ⟨affinity', -, hd⟩ := except_bind_ok_inv hd
    cases hd
    obtain rfl : global = g := Option.some.inj (hglobal.symm.trans (deref_ok_inv hg))
    exact (p.selects_name_podLabels_iff global 1).mp hfound
  monitoring := by
    rintro p rfl
    obtain ⟨d, hd⟩ : ∃ d, p.newMonitoringDeployment = .ok d := by
      rw [MonitoringResourceProvider.newMonitoringDeployment, hglobal]
      exact ⟨_, rfl⟩
    have hfound := (h.monitoring p rfl d hd).1
    obtain ⟨g, hg, hd⟩ := except_bind_ok_inv hd
    cases hd
    obtain rfl : global = g := Option.some.inj (hglobal.symm.trans (deref_ok_inv hg))
    exact (p.selects_podLabels_iff global).mp hfound
  backupDaemon := by
    rintro p rfl
    obtain ⟨d, hd⟩ : ∃ d, p.newBackupDaemonDeployment false = .ok d := by
      rw [BackupDaemonResourceProvider.newBackupDaemonDeployment, hglobal]
      exact ⟨_, rfl⟩
    have hfound := (h.backupDaemon p rfl false d hd).1
    obtain ⟨g, hg, hd⟩ := except_bind_ok_inv hd
    cases hd
    obtain rfl : global = g := Option.some.inj (hglobal.symm.trans (deref_ok_inv hg))
    exact (p.selects_podLabels_iff global).mp hfound

/-- **All pods are found if and only if the default labels are harmless.** Custom labels do not
matter. -/
theorem attached_iff (cr : ZooKeeperService) :
    Attached cr ↔ ∀ global ∈ cr.spec.global, Harmless cr global.defaultLabels :=
  ⟨fun h _ hglobal => h.harmless hglobal, Harmless.attached⟩

/-- A custom resource with servers whose default labels name another component. -/
def relabelled : ZooKeeperService where
  name := "zookeeper"
  namespaceName := "zk"
  spec :=
    { global := some { defaultLabels := .ofList [("component", "messaging")] }
      zooKeeper := some
        { dockerImage := "zookeeper:1"
          replicas := 3
          storage := { size := .of "1Gi" }
          snapshotStorage := { volumeSize := .of "1Gi" }
          heapSize := 256
          secretName := "zookeeper-secret" } }

/-- **A default label can detach the pods.** The Deployment of the first server does not find
pods with its own template. -/
theorem not_attached_relabelled : ¬ Attached relabelled := by
  intro h
  let p : ZooKeeperResourceProvider := ⟨relabelled, _, rfl⟩
  have hlost : (p.newServerDeploymentForCR 1).toOption.map
      (fun d => decide (d.selector.selects d.templateLabels)) = some false := by decide +kernel
  rcases hd : p.newServerDeploymentForCR 1 with e | d <;> rw [hd] at hlost
  · cases hlost
  · exact of_decide_eq_false (Option.some.inj hlost) (h.servers p rfl 1 d hd).1

end QubershipZookeeper.Operator
