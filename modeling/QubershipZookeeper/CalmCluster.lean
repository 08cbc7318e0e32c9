import QubershipZookeeper.ThreeWayMerge
import QubershipZookeeper.Servers

/-!
# When nothing fails

A world is **calm** when every request is served and when pods become ready while the operator
waits. In a calm world a procedure either returns or breaks off for a reason of its own: an
object that is missing, a nil map that is written, a builder that panics. For each
procedure of ZooKeeper's pass this module says exactly when it returns.
-/

namespace QubershipZookeeper.Operator

open Proc

/-- Whoever waits finds all pods running and all Deployments ready. -/
def Environment.Cooperative (e : Environment) : Prop :=
  ∀ time deployments, (∀ pod ∈ (e.observe time deployments).pods, pod.phase = "Running") ∧
    ∀ n d, Store.get? deployments n = some d →
      d.replicas = min ((e.observe time deployments).statuses n).readyReplicas
        ((e.observe time deployments).statuses n).updatedReplicas

/-- No request fails, and waiting helps. -/
structure Calm (w : World) : Prop where
  faults : w.faults = []
  cooperative : w.environment.Cooperative

/-- A calm cluster stays calm. -/
theorem Calm.evolves {w w' : World} (h : Calm w) (he : Evolves w w') : Calm w' where
  faults := List.suffix_nil.mp (h.faults ▸ he.faults)
  cooperative := he.environment ▸ h.cooperative

theorem Calm.touches {T : Set Field} {w w' : World} (h : Calm w) (ht : Touches T w w') : Calm w' :=
  h.evolves ht.evolves

section Requests

variable {w : World} (h : Calm w)

include h

/-- In a calm cluster every request is served. -/
theorem request_calm {α : Type} (serve : Op α) : request serve w = serve w := by
  simp only [request, h.faults]

/-- What is there is got, without any change. -/
theorem clientGet_calm {k : Kind} {n : String} {o : k.Object} (hn : w.get? k n = some o) :
    clientGet k n w = .ok o w :=
  (request_calm h _).trans (by simp only [hn])

/-- What is not there is reported as not found. -/
theorem clientGet_calm_none {k : Kind} {n : String} (hn : w.get? k n = none) :
    clientGet k n w = .raised (.api .notFound) w :=
  (request_calm h _).trans (by simp only [hn])

theorem returns_clientGet_iff {k : Kind} {n : String} :
    Returns (clientGet k n) w ↔ (w.get? k n).isSome := by
  rcases hn : w.get? k n with - | o
  · refine iff_of_false ?_ (by simp)
    rintro ⟨o, w', hget⟩
    rw [clientGet_calm_none h hn] at hget
    cases hget
  · exact iff_of_true ⟨o, w, clientGet_calm h hn⟩ rfl

/-- A look-up finds what is stored. -/
theorem findObject_calm (k : Kind) (n : String) :
    ((some <$> clientGet k n).recover fun e => if e.isNotFound then some (pure none) else none) w =
      .ok (w.get? k n) w := by
  rcases hn : w.get? k n with - | o
  · have hmap : (some <$> clientGet k n) w = .raised (.api .notFound) w :=
      bind_raised (clientGet_calm_none h hn)
    exact recover_handled hmap (if_pos rfl)
  · have hmap : (some <$> clientGet k n) w = .ok (some o) w := bind_ok (clientGet_calm h hn)
    exact recover_ok hmap

/-- An object is created where there is none. -/
theorem returns_clientCreate {k : Kind} {o : k.Object} (hn : w.get? k (k.name o) = none) :
    Returns (clientCreate k o) w :=
  ⟨k.accept (w.version + 1) o, w.store k o, (request_calm h _).trans (by simp only [hn])⟩

/-- An object is updated where there is one. -/
theorem returns_clientUpdate {k : Kind} {o : k.Object} (hn : (w.get? k (k.name o)).isSome) :
    Returns (clientUpdate k o) w := by
  obtain ⟨found, hfound⟩ := Option.isSome_iff_exists.mp hn
  by_cases hsame : k.accept (k.metadata found).resourceVersion o = found
  · exact ⟨found, w, (request_calm h _).trans (by simp only [hfound, hsame, if_true])⟩
  · exact ⟨k.accept (w.version + 1) o, w.store k o,
      (request_calm h _).trans (by simp only [hfound, hsame, if_false])⟩

/-- The status is updated as long as its custom resource is there. -/
theorem returns_statusUpdate_iff : Returns statusUpdate w ↔ w.cr.isSome := by
  rcases hcr : w.cr with - | cr
  · refine iff_of_false ?_ (by simp)
    rintro ⟨u, w', hrun⟩
    have hserve := (request_calm h _).symm.trans hrun
    simp only [hcr] at hserve
    cases hserve
  · exact iff_of_true ⟨(), { w with storedStatus := w.status },
      (request_calm h _).trans (by simp only [hcr])⟩ rfl

theorem returns_listPods (selector : StringMap) : Returns (listPods selector) w :=
  ⟨_, _, request_calm h _⟩

end Requests

/-- A builder returns unless it panics. -/
theorem returns_build_iff {α : Type} {x : Except Panic α} {w : World} :
    Returns (build x) w ↔ ∃ a, x = .ok a := by
  cases x with
  | ok a => exact iff_of_true (returns_pure a) ⟨a, rfl⟩
  | error e => exact iff_of_false (not_returns_raise _) (by rintro ⟨a, ⟨⟩⟩)

/-- A procedure is retried only after a conflict. -/
theorem returns_retryOnConflict_iff {α : Type} {m : Op α} {w : World}
    (hm : ∀ w', m w ≠ .raised (.api .conflict) w') (retries : ℕ) :
    Returns (retryOnConflict retries m) w ↔ Returns m w := by
  cases retries with
  | zero => exact Iff.rfl
  | succ retries =>
    refine ⟨?_, fun h => h.recover _⟩
    rintro ⟨a, w', hrun⟩
    rcases hmw : m w with ⟨b, t⟩ | ⟨e, t⟩
    · exact ⟨b, t, hmw⟩
    · have he : e ≠ .api .conflict := by
        rintro rfl
        exact hm t hmw
      rw [retryOnConflict, recover_unhandled hmw (if_neg he)] at hrun
      cases hrun

/-! ## The shared procedures -/

section Shared

variable {w : World} (h : Calm w)

include h

/-- Looking an object up, and going on with what was found. -/
theorem returns_findObject_bind_iff {β : Type} (k : Kind) (n : String)
    {f : Option k.Object → Op β} :
    Returns (((some <$> clientGet k n).recover fun e =>
      if e.isNotFound then some (pure none) else none) >>= f) w ↔ Returns (f (w.get? k n)) w := by
  rw [Returns, bind_ok (findObject_calm h k n)]
  rfl

/-- A Service is created or updated, whichever it needs. -/
theorem returns_createOrUpdateService (service : Service) :
    Returns (createOrUpdateService service) w := by
  refine (returns_findObject_bind_iff h .service _).mpr ?_
  rcases hn : w.get? .service service.metadata.name with - | found
  · exact (returns_map_iff _).mpr (returns_clientCreate h hn)
  · refine (returns_map_iff _).mpr (returns_clientUpdate h ?_)
    split <;> exact Option.isSome_of_eq_some hn

theorem returns_createServiceAccount (account : ServiceAccount) :
    Returns (createServiceAccount account) w := by
  rcases hn : w.get? .serviceAccount account.metadata.name with - | found
  · have hget : (discard (clientGet .serviceAccount account.metadata.name)) w =
        .raised (.api .notFound) w := bind_raised (clientGet_calm_none h hn)
    obtain ⟨o, w', hcreate⟩ := (returns_map_iff (fun _ => ())).mpr (returns_clientCreate h hn)
    exact ⟨o, w', (recover_handled hget (if_pos rfl)).trans hcreate⟩
  · exact Returns.recover ((returns_map_iff _).mpr ⟨found, w, clientGet_calm h hn⟩) _

theorem returns_createOrUpdateDeployment (deployment : Deployment) :
    Returns (createOrUpdateDeployment deployment) w := by
  refine (returns_findObject_bind_iff h .deployment _).mpr ?_
  rcases hn : w.get? .deployment deployment.metadata.name with - | found
  · exact (returns_map_iff _).mpr (returns_clientCreate h hn)
  · have hupdate : Returns (do
        let _ ← clientGet .deployment deployment.metadata.name
        discard (clientUpdate .deployment deployment)) w := by
      rw [Returns, bind_ok (clientGet_calm h hn)]
      exact (returns_map_iff _).mpr (returns_clientUpdate h (Option.isSome_of_eq_some hn))
    exact hupdate.recover _

/-- A Deployment can be scaled if it is there. -/
theorem returns_scaleDeployment_iff (name : String) (replicas : ℤ) :
    Returns (scaleDeployment name replicas) w ↔ (w.get? .deployment name).isSome := by
  rcases hn : w.get? .deployment name with - | found
  · have hrun : (do
        let found ← clientGet .deployment name
        discard (clientUpdate .deployment { found with replicas := replicas }) : Op Unit) w =
        .raised (.api .notFound) w := bind_raised (clientGet_calm_none h hn)
    refine (returns_retryOnConflict_iff (fun w' hw' => ?_) _).trans (iff_of_false ?_ (by simp))
    · rw [hrun] at hw'
      cases hw'
    · rintro ⟨u, w', hok⟩
      rw [hrun] at hok
      cases hok
  · refine iff_of_true (Returns.recover ?_ _) rfl
    rw [Returns, bind_ok (clientGet_calm h hn)]
    have hname : found.metadata.name = name := Store.name_of_get? hn
    refine (returns_map_iff _).mpr (returns_clientUpdate h ?_)
    rw [show Kind.name .deployment { found with replicas := replicas } = name from hname]
    exact Option.isSome_of_eq_some hn

/-- Without a Deployment there is nothing to be marked, and no error. -/
theorem returns_updateDeploymentSecretRestartAnnotations (name : String)
    (secrets : List (Option Secret)) :
    Returns (updateDeploymentSecretRestartAnnotations name secrets) w := by
  refine Returns.recover ((returns_findObject_bind_iff h .deployment _).mpr ?_) _
  rcases hn : w.get? .deployment name with - | found
  · exact returns_pure ()
  · refine (returns_whenever_iff fun _ => iff_true_intro ?_).mpr fun _ => trivial
    have hname : found.metadata.name = name := Store.name_of_get? hn
    refine (returns_map_iff _).mpr (returns_clientUpdate h ?_)
    rw [show Kind.name .deployment (applyAutoRestartSecretAnnotations found secrets).1 = name
      from hname]
    exact Option.isSome_of_eq_some hn

end Shared

/-! ## Claims -/

/-- The annotations that a claim is to have. -/
def PersistentVolumeClaim.wanted (claim : PersistentVolumeClaim) : StringMap :=
  claim.metadata.annotations.getD ∅

/-- There is a claim with the name, and it has no annotations at all. -/
def World.BareClaim (w : World) (n : String) : Prop :=
  ∃ claim, w.get? .persistentVolumeClaim n = some claim ∧ claim.wanted = ∅

/-- Storing the claim writes no annotations into the nil map of one that is there. -/
def World.ClaimApplies (w : World) (claim : PersistentVolumeClaim) : Prop :=
  w.BareClaim claim.metadata.name → claim.wanted = ∅ ∨ claim.wanted = w.status.pvcAnnotations

/-- An empty map is stored as no map. -/
theorem bind_storedAnnotations_of_empty {found : Option StringMap} (h : found.getD ∅ = ∅) :
    found.bind storedAnnotations = none := by
  rcases found with - | annotations
  · rfl
  · exact if_pos h

theorem bind_storedAnnotations_of_nonempty {found : Option StringMap} (h : found.getD ∅ ≠ ∅) :
    found.bind storedAnnotations = some (found.getD ∅) := by
  rcases found with - | annotations
  · exact absurd rfl h
  · exact if_neg h

/-- The annotations of a claim can be updated unless there are none yet and some are wanted: the
code then writes to a nil map. -/
theorem updatedAnnotations_ok_iff {found : Option StringMap} {wanted previous : StringMap} :
    (∃ a, updatedAnnotations found wanted previous = .ok a) ↔ (found.getD ∅ = ∅ → wanted = ∅) := by
  unfold updatedAnnotations
  by_cases hfound : found.getD ∅ = ∅
  · rw [bind_storedAnnotations_of_empty hfound]
    by_cases hwanted : wanted = ∅
    · exact iff_of_true ⟨none, if_pos hwanted⟩ fun _ => hwanted
    · dsimp only
      rw [if_neg hwanted]
      exact iff_of_false (by rintro ⟨a, ⟨⟩⟩) fun h => hwanted (h hfound)
  · rw [bind_storedAnnotations_of_nonempty hfound]
    exact iff_of_true ⟨_, rfl⟩ fun h => absurd h hfound

/-- The update of annotations is a three-way merge. -/
theorem updatedAnnotations_merge {found : Option StringMap} {wanted previous : StringMap}
    {annotations : Option StringMap}
    (h : updatedAnnotations found wanted previous = .ok annotations) :
    annotations.getD ∅ = ThreeWayMerge.merge wanted previous (found.getD ∅) := by
  by_cases hfound : found.getD ∅ = ∅
  · have hwanted := updatedAnnotations_ok_iff.mp ⟨_, h⟩ hfound
    rw [updatedAnnotations, bind_storedAnnotations_of_empty hfound] at h
    dsimp only at h
    rw [if_pos hwanted] at h
    cases h
    rw [hfound, hwanted]
    exact (ThreeWayMerge.merge_self ∅ previous).symm
  · rw [updatedAnnotations, bind_storedAnnotations_of_nonempty hfound] at h
    cases h
    rfl

/-- A claim can be stored, unless annotations are to be written into a nil map. -/
theorem returns_createPersistentVolumeClaim_iff {w : World} (h : Calm w)
    (claim : PersistentVolumeClaim) :
    Returns (createPersistentVolumeClaim claim) w ↔ w.ClaimApplies claim := by
  refine (returns_findObject_bind_iff h .persistentVolumeClaim _).trans ?_
  rcases hn : w.get? .persistentVolumeClaim claim.metadata.name with - | found
  · refine iff_of_true ((returns_clientCreate h hn).bind fun _ _ _ => returns_update _) ?_
    rintro ⟨found, hfound, -⟩
    cases hn.symm.trans hfound
  · have hbare : w.BareClaim claim.metadata.name ↔ found.wanted = ∅ := by
      refine ⟨?_, fun hnone => ⟨found, hn, hnone⟩⟩
      rintro ⟨found', hfound', hnone⟩
      cases hn.symm.trans hfound'
      exact hnone
    have hnoted := noteClaim_touches claim.metadata.name (Set.mem_singleton Field.claimed) w
    -- the claim is there, so whatever is written can be stored
    have hupdate : ∀ annotations, Returns (discard (clientUpdate .persistentVolumeClaim
        { found with metadata := { found.metadata with annotations := annotations } }))
        { w with claimed := claim.metadata.name :: w.claimed } := by
      intro annotations
      have hname : found.metadata.name = claim.metadata.name := Store.name_of_get? hn
      refine (returns_map_iff _).mpr (returns_clientUpdate (h.touches hnoted) ?_)
      rw [show Kind.name .persistentVolumeClaim { found with
        metadata := { found.metadata with annotations := annotations } } = claim.metadata.name
        from hname]
      exact Option.isSome_of_eq_some hn
    refine returns_bind_iff_of_returns (returns_update _) fun _ t ht => ?_
    obtain rfl := update_ok_inv ht
    refine returns_bind_iff_of_returns (returns_observe _) fun previous t ht => ?_
    obtain ⟨rfl, rfl⟩ := observe_ok_inv ht
    refine (returns_whenever_iff fun _ => returns_bind_iff_of_last returns_build_iff
      fun annotations t ht => ?_).trans ?_
    · obtain ⟨-, rfl⟩ := build_ok_inv ht
      exact hupdate annotations
    · rw [updatedAnnotations_ok_iff, World.ClaimApplies, hbare, decide_eq_true_iff]
      show (claim.wanted ≠ w.status.pvcAnnotations → found.wanted = ∅ → claim.wanted = ∅) ↔ _
      exact ⟨fun hok hnone => or_iff_not_imp_right.mpr fun hne => hok hne hnone,
        fun happly hne hnone => (happly hnone).resolve_right hne⟩

/-- The same claims have no annotations, and the same annotations were wanted last. -/
structure SameClaims (w w' : World) : Prop where
  annotations : w'.status.pvcAnnotations = w.status.pvcAnnotations
  bare : ∀ n, w'.BareClaim n ↔ w.BareClaim n

instance : Std.Refl SameClaims where
  refl _ := ⟨rfl, fun _ => Iff.rfl⟩

instance : IsTrans World SameClaims where
  trans _ _ _ h h' := ⟨h'.annotations.trans h.annotations, fun n => (h'.bare n).trans (h.bare n)⟩

/-- Whether a claim can be applied depends on the claims that are there. -/
theorem SameClaims.applies_iff {w w' : World} (h : SameClaims w w')
    (claim : PersistentVolumeClaim) :
    w'.ClaimApplies claim ↔ w.ClaimApplies claim := by
  rw [World.ClaimApplies, World.ClaimApplies, h.bare, h.annotations]

theorem bareClaim_congr {w w' : World} {n : String}
    (h : w'.get? .persistentVolumeClaim n = w.get? .persistentVolumeClaim n) :
    w'.BareClaim n ↔ w.BareClaim n := by
  rw [World.BareClaim, World.BareClaim, h]

/-- A step without claims in its footprint leaves them all alone. -/
theorem sameClaims_of_touches {F : Footprint} (hF : F.claims = ∅) {w w' : World}
    (ht : Touches F.fields w w') : SameClaims w w' where
  annotations := ht.same .pvcAnnotations fun h => h
  bare n := by
    refine bareClaim_congr (ht.get? ?_)
    show n ∉ F.claims
    rw [hF]
    exact Set.notMem_empty n

/-- Storing a claim in the place of another keeps what is said here, if both have
annotations or both have none. -/
theorem sameClaims_store {w : World} {claim : PersistentVolumeClaim}
    (h : claim.wanted = ∅ ↔ w.BareClaim claim.metadata.name) :
    SameClaims w (w.store .persistentVolumeClaim claim) where
  annotations := rfl
  bare n := by
    by_cases hn : n = claim.metadata.name
    · subst hn
      have hget := w.get?_store_self .persistentVolumeClaim claim
      rw [← h]
      constructor
      · rintro ⟨stored, hstored, hnone⟩
        cases hget.symm.trans hstored
        exact hnone
      · exact fun hnone => ⟨_, hget, hnone⟩
    · exact bareClaim_congr (w.get?_store_of_ne (.inr hn))

/-- The annotations after an update are empty only if they were empty before: for a claim that asks
for some, and for one that asks for what it has. -/
theorem updatedAnnotations_empty_iff {found claim : PersistentVolumeClaim} {previous : StringMap}
    {annotations : Option StringMap}
    (h : updatedAnnotations found.metadata.annotations claim.wanted previous = .ok annotations)
    (hclaim : claim.wanted ≠ ∅ ∨ found = claim) : annotations.getD ∅ = ∅ ↔ found.wanted = ∅ := by
  rw [updatedAnnotations_merge h]
  rcases hclaim with hwanted | rfl
  · refine iff_of_false (fun hempty => hwanted ?_) fun hempty => hwanted ?_
    · exact ThreeWayMerge.eq_empty_of_merge_eq_empty hempty
    · exact updatedAnnotations_ok_iff.mp ⟨_, h⟩ hempty
  · exact Eq.congr_left (ThreeWayMerge.merge_self _ _)

/-- Storing a claim leaves the claims without annotations what they are, if it asks for annotations
or is one that is there. -/
theorem createPersistentVolumeClaim_sameClaims (w₀ : World) (claim : PersistentVolumeClaim) :
    Triple (fun w => SameClaims w₀ w ∧ (claim.wanted ≠ ∅ ∨
        w.get? .persistentVolumeClaim claim.metadata.name = some claim))
      (createPersistentVolumeClaim claim) (fun _ => SameClaims w₀) fun _ => SameClaims w₀ := by
  have hstable : ∀ w w', Touches ∅ w w' → SameClaims w₀ w → SameClaims w₀ w' := fun w w' ht hw =>
    trans_of SameClaims hw (sameClaims_of_touches (F := ⟨∅, ∅, ∅, ∅⟩) rfl ht.of_empty)
  refine ((findObject_triple ?_ .persistentVolumeClaim _).conseq (fun _ h => h) (fun _ _ h => h)
    fun _ _ h => h.1).bind fun found => ?_
  · exact fun w w' ht hw => ⟨hstable w w' ht hw.1, hw.2.imp_right fun hthere =>
      (ht.get? (Set.notMem_empty _)).trans hthere⟩
  rcases found with - | found
  · -- a new claim has annotations
    refine Triple.of_fact (c := claim.wanted ≠ ∅)
      (fun w hw => hw.1.2.resolve_right fun hthere => ?_)
      fun hwanted => ?_
    · cases hw.2.symm.trans hthere
    refine Triple.bind (Q := fun _ => SameClaims w₀) ?_ fun _ =>
      triple_update fun _ h => ⟨h.annotations, h.bare⟩
    refine clientCreate_triple (P := fun w => SameClaims w₀ w ∧
        w.get? .persistentVolumeClaim claim.metadata.name = none)
      (fun w w' ht hw => ⟨hstable w w' ht hw.1, (ht.get? (Set.notMem_empty _)).trans hw.2⟩)
      (fun w hw hnone => ?_) (fun _ hw => hw.1) (fun _ _ h => h) |>.conseq
      (fun w hw => ⟨hw.1.1, hw.2⟩) (fun _ _ h => h) fun _ _ h => h
    refine trans_of SameClaims hw.1 (sameClaims_store (iff_of_false hwanted ?_))
    rintro ⟨found, hfound, -⟩
    cases hw.2.symm.trans hfound
  · refine Triple.of_fact (c := claim.wanted ≠ ∅ ∨ found = claim)
      (fun w hw => hw.1.2.imp_right fun hthere => Option.some.inj (hw.2.symm.trans hthere))
      fun hclaim => ?_
    refine Triple.bind (Q := fun _ w => SameClaims w₀ w ∧
      w.get? .persistentVolumeClaim claim.metadata.name = some found)
      (triple_update fun w hw => ⟨⟨hw.1.1.annotations, hw.1.1.bare⟩, hw.2⟩) fun _ => ?_
    refine Triple.bind (Q := fun _ w => SameClaims w₀ w ∧
      w.get? .persistentVolumeClaim claim.metadata.name = some found)
      (triple_observe fun _ hw => hw) fun previous => ?_
    refine Triple.whenever (fun _ => ?_) fun _ _ hw => hw.1
    refine Triple.bind (Q := fun annotations w => (SameClaims w₀ w ∧
      w.get? .persistentVolumeClaim claim.metadata.name = some found) ∧
      (annotations.getD ∅ = ∅ ↔ found.wanted = ∅)) ?_ fun annotations => ?_
    · exact triple_build (fun _ _ hx hw => ⟨hw, updatedAnnotations_empty_iff hx hclaim⟩)
        fun _ _ hw => hw.1
    · refine Triple.bind (Q := fun _ => SameClaims w₀) ?_ fun _ => triple_pure fun _ h => h
      have hname : ∀ {w : World}, w.get? .persistentVolumeClaim claim.metadata.name = some found →
          found.metadata.name = claim.metadata.name := fun h => Store.name_of_get? h
      refine clientUpdate_triple (fun w w' ht hw => ⟨⟨hstable w w' ht hw.1.1,
          (ht.get? (Set.notMem_empty _)).trans hw.1.2⟩, hw.2⟩) (fun _ _ hw _ _ => hw.1.1)
        (fun w _ hw _ => ?_) (fun _ hw => hw.1.1) fun _ _ h => h
      refine trans_of SameClaims hw.1.1 (sameClaims_store ?_)
      show annotations.getD ∅ = ∅ ↔ w.BareClaim found.metadata.name
      rw [hw.2, hname hw.1.2]
      constructor
      · exact fun hnone => ⟨found, hw.1.2, hnone⟩
      · rintro ⟨found', hfound', hnone⟩
        cases hw.1.2.symm.trans hfound'
        exact hnone

/-! ## Vault -/

/-- The generator can generate: Vault has its policy. -/
def PasswordGenerator.Usable : PasswordGenerator → World → Prop
  | operator, _ => True
  | vault policyName, w => (w.vault.passwordPolicies.lookup policyName).isSome

/-- A generator that can be used stays usable: its policy is not removed. -/
theorem PasswordGenerator.Usable.evolves {generator : PasswordGenerator} {w w' : World}
    (h : generator.Usable w) (he : Evolves w w') : generator.Usable w' := by
  cases generator with
  | operator => trivial
  | vault policyName => exact he.passwordPolicies policyName h

/-- What the credentials step needs of a calm world. -/
structure VaultReady (generator : PasswordGenerator) (w : World) : Prop where
  calm : Calm w
  usable : generator.Usable w
  versions : w.status.secretVersions.isSome

/-- What the credentials need is kept while Vault is written to. -/
theorem VaultReady.touches {generator : PasswordGenerator} {w w' : World}
    (h : VaultReady generator w) (ht : Touches {.vault} w w') : VaultReady generator w' where
  calm := h.calm.touches ht
  usable := h.usable.evolves ht.evolves
  versions := Eq.trans (ht.same .secretVersions (by simp)) h.versions

/-- A write to Vault, with its record. -/
theorem vaultRequest_calm {α : Type} {w : World} (h : Calm w) (write : VaultWrite) (serve : Op α) :
    vaultRequest write serve w =
      serve { w with vaultWrites := ⟨write, w.servesNext⟩ :: w.vaultWrites } := by
  have hcalm : Calm { w with vaultWrites := ⟨write, w.servesNext⟩ :: w.vaultWrites } :=
    ⟨h.faults, h.cooperative⟩
  exact request_calm hcalm serve

theorem returns_vaultWrite {w : World} (h : Calm w) (write : VaultWrite) (f : Vault → Vault) :
    Returns (vaultWrite write f) w :=
  ⟨(), _, vaultRequest_calm h _ _⟩

theorem returns_request_observe {α : Type} {w : World} (h : Calm w) (f : World → α) :
    Returns (request (observe f)) w :=
  ⟨_, _, request_calm h _⟩

/-- In a calm world answers lack nothing. -/
theorem returns_replied {α : Type} {w : World} (h : Calm w) {p : Panic} {m : Op α}
    (hm : Returns m w) : Returns (replied p m) w := by
  refine Returns.bind ⟨_, w, rfl⟩ fun hollow t ht => ?_
  cases ht
  refine hm.bind fun reply _ _ => ?_
  simp only [h.faults]
  exact returns_pure reply

theorem returns_readVaultSecret {w : World} (h : Calm w) (path secretName : String) :
    Returns (readVaultSecret path secretName) w :=
  returns_replied h (returns_request_observe h _)

theorem returns_writeVaultSecret {w : World} (h : Calm w) (path secretName : String)
    (secret : StringMap) : Returns (writeVaultSecret path secretName secret) w :=
  returns_replied h ⟨_, _, vaultRequest_calm h _ _⟩

theorem returns_ensureVaultPolicy {w : World} (h : Calm w) (policyName policy : String)
    (secret : Secret) : Returns (ensureVaultPolicy policyName policy secret) w := by
  refine (returns_request_observe h _).bind fun found t ht => ?_
  have hcalm := h.touches ((request_touches (T := ∅) (within_observe _)).ok ht)
  exact (returns_whenever_iff fun _ => iff_true_intro (returns_vaultWrite hcalm _ _)).mpr
    fun _ => trivial

theorem returns_ensureVaultRole {w : World} (h : Calm w) (roleName : String) (role : VaultRole)
    (vault : VaultSecretManagement) (secret : Secret) :
    Returns (ensureVaultRole roleName role vault secret) w := by
  refine (returns_request_observe h _).bind fun found t ht => ?_
  have hcalm := h.touches ((request_touches (T := ∅) (within_observe _)).ok ht)
  exact (returns_whenever_iff fun _ => iff_true_intro (returns_vaultWrite hcalm _ _)).mpr
    fun _ => trivial

/-- A usable generator returns a password. -/
theorem returns_generate {w : World} (h : Calm w) {generator : PasswordGenerator}
    (hg : generator.Usable w) : Returns generator.generate w := by
  cases generator with
  | operator => exact ⟨_, _, rfl⟩
  | vault policyName =>
    obtain ⟨policy, hpolicy⟩ := Option.isSome_iff_exists.mp hg
    unfold PasswordGenerator.generate
    exact ⟨_, _, (request_calm h _).trans (by simp only [hpolicy]; rfl)⟩

/-- The generator that is chosen can generate. -/
theorem newPasswordGenerator_calm {w : World} (h : Calm w) (cr : ZooKeeperService)
    (vault : VaultSecretManagement) :
    ∃ generator w', newPasswordGenerator cr vault w = .ok generator w' ∧ generator.Usable w' := by
  unfold newPasswordGenerator
  split
  · refine ⟨_, _, bind_ok (recover_ok (vaultRequest_calm h _ _)), ?_⟩
    simp [PasswordGenerator.Usable, Finmap.lookup_insert]
  · exact ⟨.operator, w, rfl, trivial⟩

/-- A version is recorded where the map of versions has been made. -/
theorem returns_recordSecretVersion {w : World} (h : w.status.secretVersions.isSome)
    (secretName : String) (version : ℕ) : Returns (recordSecretVersion secretName version) w := by
  obtain ⟨versions, hversions⟩ := Option.isSome_iff_exists.mp h
  unfold Returns recordSecretVersion
  simp only [hversions]
  exact ⟨_, _, rfl⟩

/-- The credentials of a user are processed without an error. -/
theorem returns_processUserCredentials {w : World} {generator : PasswordGenerator}
    (h : VaultReady generator w) (vault : VaultSecretManagement)
    (credentialsSecretName usernameKey : String) (secret : Secret) :
    Returns (processUserCredentials vault credentialsSecretName usernameKey secret generator)
      w := by
  refine (returns_readVaultSecret h.calm _ _).bind fun found t ht => ?_
  have h₁ := h.touches ((readVaultSecret_touches _ _).ok ht)
  refine (returns_whenever_iff fun _ => iff_true_intro ?_).mpr fun _ => trivial
  refine Returns.bind ?_ fun password t₂ ht₂ => ?_
  · split
    · exact returns_pure _
    · exact returns_generate h₁.calm h₁.usable
  · have h₂ : VaultReady generator t₂ := by
      refine h₁.touches ?_
      split at ht₂
      · obtain ⟨-, rfl⟩ := pure_ok_inv ht₂
        exact refl_of (Touches {.vault}) t₂
      · exact (generate_touches generator).ok ht₂
    refine (returns_writeVaultSecret h₂.calm _ _ _).bind fun version t₃ ht₃ => ?_
    exact returns_recordSecretVersion
      (h₂.touches ((writeVaultSecret_touches (Set.mem_singleton _) _ _ _).ok ht₃)).versions _ _

theorem returns_processAdditionalUsersCredentials {w : World} {generator : PasswordGenerator}
    (h : VaultReady generator w) (cr : ZooKeeperService) (vault : VaultSecretManagement)
    (secret : Secret) :
    Returns (processAdditionalUsersCredentials cr vault secret generator) w := by
  refine (returns_readVaultSecret h.calm _ _).bind fun found t ht => ?_
  have h₁ := h.touches ((readVaultSecret_touches _ _).ok ht)
  refine (returns_whenever_iff fun _ => iff_true_intro ?_).mpr fun _ => trivial
  have hround : ∀ (users : List String) (user : String),
      Within (Touches {.vault}) (do
        let password ← generator.generate
        pure (users ++ [user ++ ":" ++ password])) :=
    fun _ _ => (generate_touches generator).bind fun _ => within_pure _
  refine Returns.bind ?_ fun users t₂ ht₂ => ?_
  · refine (returns_foldEach_iff (I := fun _ => VaultReady generator) (C := fun _ => True)
      (fun users t user _ ht => iff_true_intro ?_) (fun users t user _ ht b' t' hrun => ?_) h₁).mpr
      fun _ _ => trivial
    · exact (returns_generate ht.calm ht.usable).bind fun _ _ _ => returns_pure _
    · exact ht.touches ((hround users user).ok hrun)
  · have h₂ := h₁.touches ((foldEach_within (fun users user _ => hround users user) _).ok ht₂)
    refine (returns_writeVaultSecret h₂.calm _ _ _).bind fun version t₃ ht₃ => ?_
    exact returns_recordSecretVersion
      (h₂.touches ((writeVaultSecret_touches (Set.mem_singleton _) _ _ _).ok ht₃)).versions _ _

/-- The Secret can be cleaned, unless an annotation is to be written into a nil map. -/
def CleanApplies (secret : Secret) : Prop :=
  needToCleanSecret secret = true → secret.metadata.annotations.getD ∅ ≠ ∅

/-- A Secret without annotations cannot be cleaned: the code writes to its nil map. -/
theorem exists_cleanedSecret_iff {secret : Secret} :
    (∃ cleaned, cleanedSecret secret = .ok cleaned) ↔ secret.metadata.annotations.getD ∅ ≠ ∅ := by
  simp [cleanedSecret_ok_iff]

/-- So cleaning returns exactly if there are annotations, or there is nothing to clean. -/
theorem returns_cleanSecret_iff {w : World} (h : Calm w) (c : Component) {secret : Secret}
    (hstored : secret.metadata.name ≠ "" → (w.get? .secret secret.metadata.name).isSome) :
    Returns (cleanSecret c secret) w ↔ CleanApplies secret := by
  refine returns_bind_iff_of_returns ⟨(), _, rfl⟩ fun _ t ht => ?_
  have htouch := (noteVaulted_touches (T := ∅) c secret).ok ht
  have hcalm := h.touches htouch
  unfold CleanApplies
  split
  next hneed =>
    refine (returns_bind_iff_of_last (returns_build_iff.trans exists_cleanedSecret_iff)
      fun cleaned t₂ ht₂ => ?_).trans ⟨fun h _ => h, fun h => h hneed⟩
    obtain ⟨hcleaned, rfl⟩ := build_ok_inv ht₂
    refine (returns_clientUpdate hcalm ?_).bind fun _ _ _ => (returns_update _).bind fun _ _ _ =>
      returns_pure _
    rw [show Kind.name .secret cleaned = secret.metadata.name from name_cleanedSecret hcleaned,
      htouch.get? (Set.notMem_empty _)]
    exact hstored (name_ne_of_needToCleanSecret hneed)
  next hneed => exact iff_of_true (returns_pure _) fun h => absurd h hneed

/-- Cleaning leaves nothing to clean into a nil map. -/
theorem cleanSecret_cleanApplies (c : Component) (secret : Secret) :
    Yields CleanApplies (cleanSecret c secret) := by
  refine yields_of_last fun _ => ?_
  split
  · refine (build_yields fun cleaned h => h).bind fun cleaned hcleaned => ?_
    refine Yields.bind (Q := fun stored => stored.metadata.annotations.getD ∅ ≠ ∅) ?_
      fun stored hstored => yields_of_last fun _ => yields_pure fun _ => hstored
    intro w stored w' hrun
    obtain ⟨-, v, rfl⟩ := (clientUpdate_stores .secret cleaned).ok trivial hrun
    obtain ⟨-, rfl⟩ := cleanedSecret_ok_iff.mp hcleaned
    exact StringMap.insert_ne_empty _ _ _
  next hneed => exact yields_pure fun h => absurd h hneed

/-! ## Objects with an owner -/

/-- An object without owners gets one. -/
theorem setControllerReference_ok {cr : ZooKeeperService} {m : ObjectMeta}
    (h : m.ownerReferences = []) : ∃ m', setControllerReference cr m = .ok m' := by
  unfold setControllerReference
  rw [h]
  exact ⟨_, rfl⟩

/-- An object without other owners is applied exactly if it can be built. -/
theorem returns_applyService_iff {w : World} (h : Calm w) (cr : ZooKeeperService)
    {service : Except Panic Service}
    (howners : ∀ s, service = .ok s → s.metadata.ownerReferences = []) :
    Returns (applyService cr service) w ↔ ∃ s, service = .ok s := by
  refine returns_bind_iff_of_last returns_build_iff fun s t hbuild => ?_
  obtain ⟨hs, rfl⟩ := build_ok_inv hbuild
  refine (returns_lift_iff.mpr (setControllerReference_ok (howners s hs))).bind fun m t hm => ?_
  obtain ⟨-, rfl⟩ := lift_ok_inv hm
  exact returns_createOrUpdateService h _

/-- The same for a Deployment with its marks. -/
theorem returns_applyDeployment_iff {w : World} (h : Calm w) (cr : ZooKeeperService)
    {deployment : Except Panic Deployment} (secrets : List (Option Secret))
    (howners : ∀ d, deployment = .ok d → d.metadata.ownerReferences = []) :
    Returns (applyDeployment cr deployment secrets) w ↔ ∃ d, deployment = .ok d := by
  refine returns_bind_iff_of_last returns_build_iff fun d t hbuild => ?_
  obtain ⟨hd, rfl⟩ := build_ok_inv hbuild
  refine (returns_lift_iff.mpr (setControllerReference_ok (howners d hd))).bind fun m t hm => ?_
  obtain ⟨-, rfl⟩ := lift_ok_inv hm
  exact returns_createOrUpdateDeployment h _

/-- A claim is applied exactly if its annotations can be updated. -/
theorem returns_applyClaim_iff {w : World} (h : Calm w) (claim : Option PersistentVolumeClaim) :
    Returns (applyClaim claim) w ↔ ∀ c ∈ claim, w.ClaimApplies c := by
  cases claim with
  | none => exact iff_of_true (returns_pure ()) (by rintro _ ⟨⟩)
  | some claim =>
    refine (returns_createPersistentVolumeClaim_iff h claim).trans ⟨?_, fun h => h claim rfl⟩
    rintro happly _ ⟨⟩
    exact happly

/-- The annotations that a custom resource asks for on its claims. -/
def claimAnnotations (cr : ZooKeeperService) : StringMap :=
  cr.spec.global.elim ∅ Global.pvcAnnotations

/-- A claim asks for the annotations it was built with. -/
theorem wanted_of_storedAnnotations {claim : PersistentVolumeClaim} {annotations : StringMap}
    (h : claim.metadata.annotations = storedAnnotations annotations) :
    claim.wanted = annotations := by
  rw [PersistentVolumeClaim.wanted, h, storedAnnotations]
  split
  next hempty => exact hempty.symm
  · rfl

/-- A claim without annotations applies wherever; for others the claims that are there matter. -/
theorem claimApplies_iff {annotations : StringMap} {w t : World}
    (h : annotations ≠ ∅ → SameClaims w t) {claim : PersistentVolumeClaim}
    (hclaim : claim.metadata.annotations = storedAnnotations annotations) :
    t.ClaimApplies claim ↔ w.ClaimApplies claim := by
  by_cases hempty : annotations = ∅
  · have hwanted := (wanted_of_storedAnnotations hclaim).trans hempty
    exact iff_of_true (fun _ => .inl hwanted) fun _ => .inl hwanted
  · exact (h hempty).applies_iff claim

/-- A claim as the operator builds it: with the annotations it is given, and without an owner. -/
structure PersistentVolumeClaim.Made (claim : PersistentVolumeClaim) (annotations : StringMap) :
    Prop where
  annotations : claim.metadata.annotations = storedAnnotations annotations
  owners : claim.metadata.ownerReferences = []

theorem made_newPersistentVolumeClaim {name namespaceName volumeName : String} {size : VolumeSize}
    {labels annotations : StringMap} {shared : Bool} {selector : Option StringMap}
    {storageClass : Option String} {claim : PersistentVolumeClaim}
    (h : newPersistentVolumeClaim name namespaceName labels annotations shared volumeName selector
      storageClass size = .ok claim) : claim.Made annotations := by
  obtain ⟨storage, -, h⟩ := except_bind_ok_inv h
  cases h
  exact ⟨rfl, rfl⟩

theorem made_processNonSharedPersistentVolumeClaim {name volumeName label : String}
    {storageClass : Option String} {size : VolumeSize} {namespaceName : String}
    {labels annotations : StringMap} {claim : PersistentVolumeClaim}
    (h : processNonSharedPersistentVolumeClaim name volumeName label storageClass size namespaceName
      labels annotations = .ok (some claim)) : claim.Made annotations := by
  have hnew : ∀ {x : Except Panic PersistentVolumeClaim}, (some <$> x) = .ok (some claim) →
      x = .ok claim := by
    rintro (e | c) hx <;> cases hx
    rfl
  unfold processNonSharedPersistentVolumeClaim at h
  dsimp only at h
  split at h
  · exact made_newPersistentVolumeClaim (hnew h)
  · split at h
    · obtain ⟨key, -, h⟩ := except_bind_ok_inv h
      obtain ⟨value, -, h⟩ := except_bind_ok_inv h
      exact made_newPersistentVolumeClaim (hnew h)
    · split at h
      · cases h
      · exact made_newPersistentVolumeClaim (hnew h)

theorem claimAnnotations_eq {cr : ZooKeeperService} {global : Global}
    (h : deref cr.spec.global = .ok global) : claimAnnotations cr = global.pvcAnnotations := by
  rw [claimAnnotations, deref_ok_inv h]
  rfl

/-- The claim for snapshots is built with the annotations of the custom resource, or it is one that
is there. -/
theorem processSnapshotsPersistentVolumeClaim_triple {P : World → Prop} (hP : Stable P)
    (storage : SnapshotStorage) (cr : ZooKeeperService) :
    Triple P (processSnapshotsPersistentVolumeClaim storage cr) (fun claim w => P w ∧ ∀ c ∈ claim,
      c.Made (claimAnnotations cr) ∨ w.get? .persistentVolumeClaim c.metadata.name = some c)
      fun _ => P := by
  refine Triple.bind (Q := fun global w => P w ∧ claimAnnotations cr = global.pvcAnnotations)
    (triple_build (fun _ _ hg hw => ⟨hw, claimAnnotations_eq hg⟩) fun _ _ hw => hw)
    fun global => Triple.of_fact (fun _ hw => hw.2) fun hannotations => ?_
  rw [hannotations]
  refine Triple.conseq (P := P) ?_ (fun _ hw => hw.1) (fun _ _ hw => hw) fun _ _ hw => hw
  have hnew {x : Except Panic PersistentVolumeClaim}
      (hx : ∀ c, x = .ok c → c.Made global.pvcAnnotations) :
      Triple P (some <$> build x) (fun claim w => P w ∧ ∀ c ∈ claim,
        c.Made global.pvcAnnotations ∨
          w.get? .persistentVolumeClaim c.metadata.name = some c) fun _ => P := by
    rcases x with e | c
    · exact triple_raise fun _ hw => hw
    · refine triple_pure fun w hw => ⟨hw, ?_⟩
      rintro _ ⟨⟩
      exact .inl (hx c rfl)
  -- one case per type of volume: standalone, a claim that is there, a volume that is there, a class
  dsimp only
  split
  · refine triple_build (fun claim w hclaim hw => ⟨hw, ?_⟩) fun _ _ hw => hw
    rintro c rfl
    exact .inl (made_processNonSharedPersistentVolumeClaim hclaim)
  · split
    · refine (clientGet_triple hP _ _).bind fun c => triple_pure fun w hw => ⟨hw.1, ?_⟩
      rintro _ ⟨⟩
      have hname : c.metadata.name = _ := Store.name_of_get? hw.2
      exact .inr (hname ▸ hw.2)
    · split
      · split
        · exact triple_raise fun _ hw => hw
        · exact hnew fun _ hc => made_newPersistentVolumeClaim hc
      · split
        · exact hnew fun _ hc => made_newPersistentVolumeClaim hc
        · exact triple_pure fun w hw => ⟨hw, nofun⟩

/-- Applying the claim for snapshots leaves the claims without annotations what they are. -/
theorem applySnapshotsClaim_sameClaims (w₀ : World) (storage : SnapshotStorage)
    {cr : ZooKeeperService} (h : claimAnnotations cr ≠ ∅) :
    Triple (SameClaims w₀) (applySnapshotsClaim storage cr) (fun _ => SameClaims w₀)
      fun _ => SameClaims w₀ := by
  have hstable : Stable (SameClaims w₀) := fun w w' ht hw =>
    trans_of SameClaims hw (sameClaims_of_touches (F := ⟨∅, ∅, ∅, ∅⟩) rfl ht.of_empty)
  refine (processSnapshotsPersistentVolumeClaim_triple hstable storage cr).bind fun claim => ?_
  rcases claim with - | claim
  · exact triple_pure fun _ hw => hw.1
  · refine (createPersistentVolumeClaim_sameClaims w₀ claim).conseq (fun w hw => ⟨hw.1, ?_⟩)
      (fun _ _ hw => hw) fun _ _ hw => hw
    -- a claim that is built has annotations, and one that is predefined is there
    exact (hw.2 claim rfl).imp_left fun hmade => by
      rwa [wanted_of_storedAnnotations hmade.annotations]

/-- The claim for snapshots can be determined, and stored. -/
def SnapshotsReady (storage : SnapshotStorage) (cr : ZooKeeperService) (w : World) : Prop :=
  let name := if storage.persistentVolumeClaimName = "" then
      snapshotsPersistentVolumeClaimPattern cr.name
    else storage.persistentVolumeClaimName
  ∃ global ∈ cr.spec.global,
    let ClaimReady (volumeName : String) := ∃ claim, newPersistentVolumeClaim name cr.namespaceName
      (getZooKeeperLabels cr.name global.defaultLabels) global.pvcAnnotations true volumeName none
      storage.storageClass storage.volumeSize = .ok claim ∧ w.ClaimApplies claim
    if storage.persistentVolumeType = "predefined_claim" then
      (w.get? .persistentVolumeClaim name).isSome = true
    else if storage.persistentVolumeType = "predefined" then
      storage.persistentVolumeName ≠ "" ∧ ClaimReady storage.persistentVolumeName
    else storage.persistentVolumeType = "storage_class" → ClaimReady ""

/-- A step that begins with a builder returns exactly if the builder does, and the rest does on its
object. -/
theorem returns_build_bind_iff {α β : Type} {x : Except Panic α} {f : α → Op β} {w : World} :
    Returns (build x >>= f) w ↔ ∃ a, x = .ok a ∧ Returns (f a) w := by
  constructor
  · rintro ⟨b, w', hrun⟩
    obtain ⟨a, t, hbuild, hf⟩ := bind_ok_inv hrun
    obtain ⟨rfl, rfl⟩ := build_ok_inv hbuild
    exact ⟨a, rfl, b, w', hf⟩
  · rintro ⟨a, rfl, hf⟩
    exact hf

/-- The claim of the snapshots, by the types of its storage. -/
theorem returns_applySnapshotsClaim_iff {w : World} (h : Calm w) {storage : SnapshotStorage}
    {cr : ZooKeeperService} (hstorage : storage.persistentVolumeType ≠ "standalone") :
    Returns (applySnapshotsClaim storage cr) w ↔ SnapshotsReady storage cr w := by
  have hclaim {x : Except Panic PersistentVolumeClaim} :
      Returns ((some <$> build x) >>= applyClaim) w ↔ ∃ claim, x = .ok claim ∧
        w.ClaimApplies claim := by
    rw [map_bind, returns_build_bind_iff]
    exact exists_congr fun claim => and_congr_right fun _ =>
      returns_createPersistentVolumeClaim_iff h claim
  have hderef (global : Global) :
      deref cr.spec.global = .ok global ↔ global ∈ cr.spec.global := by
    rcases cr.spec.global with - | global'
    · exact iff_of_false (by rintro ⟨⟩) (by rintro ⟨⟩)
    · exact ⟨fun h => by cases h; rfl, fun h => by cases h; rfl⟩
  unfold applySnapshotsClaim processSnapshotsPersistentVolumeClaim SnapshotsReady
  simp only [if_neg hstorage]
  rw [bind_assoc, returns_build_bind_iff]
  refine exists_congr fun global => and_congr (hderef global) ?_
  split
  · -- the claim that is there gets the annotations it has
    rw [map_bind]
    refine returns_bind_iff_of_last (returns_clientGet_iff h) fun claim t hget => ?_
    have hcalm := h.touches ((clientGet_touches (T := ∅) _ _).ok hget)
    refine (returns_createPersistentVolumeClaim_iff hcalm claim).mpr ?_
    rintro ⟨found, hfound, hnone⟩
    have hstored := ((clientGet_triple (P := fun _ => True) (fun _ _ _ _ => trivial) _ _).ok
      trivial hget).2
    have hname : claim.metadata.name = _ := Store.name_of_get? hstored
    rw [hname, hstored] at hfound
    cases hfound
    exact .inl hnone
  · split
    · split
      next hname => exact iff_of_false (not_returns_raise _) fun hready => hready.1 hname
      next hname => exact hclaim.trans ⟨fun hready => ⟨hname, hready⟩, fun hready => hready.2⟩
    · split
      next htype => exact hclaim.trans ⟨fun hready _ => hready, fun hready => hready htype⟩
      next htype => exact iff_of_true (returns_pure ()) fun h => absurd h htype

/-! ## The steps of ZooKeeper's pass -/

namespace ZooKeeperResourceProvider

variable (p : ZooKeeperResourceProvider)

/-- The look at the pods answers, and says yes if all of them are running. -/
theorem isPodRunning_calm {w : World} (h : Calm w) (hglobal : p.cr.spec.global.isSome)
    (deploymentName : String) :
    ∃ running, p.isPodRunning deploymentName w = .ok running w ∧
      ((∀ pod ∈ w.pods, pod.phase = "Running") → running = true) := by
  obtain ⟨global, hglobal⟩ := Option.isSome_iff_exists.mp hglobal
  have hderef : build (deref p.cr.spec.global) w = .ok global w := by
    rw [hglobal]
    rfl
  have hlist : ∀ selector, listPods selector w =
      .ok (w.pods.filter fun pod => selector.selects pod.labels) w := fun _ => request_calm h _
  refine ⟨_, (bind_ok hderef).trans ((bind_ok (hlist _)).trans (bind_ok (hlist _))),
    fun hrunning => ?_⟩
  rw [List.all_eq_true]
  intro pod hpod
  exact decide_eq_true (hrunning pod (List.mem_of_mem_filter hpod))

/-- One round of waiting is enough for the pods. -/
theorem returns_poll_isPodRunning {w : World} (h : Calm w) (hglobal : p.cr.spec.global.isSome)
    (deploymentName : String) (tries : ℕ) :
    Returns (poll (tries + 2) (p.isPodRunning deploymentName)) w := by
  obtain ⟨running, hrun, -⟩ := p.isPodRunning_calm h hglobal deploymentName
  rw [poll, Returns, bind_ok hrun]
  split
  · exact returns_pure ()
  · let w₁ : World := (sleep w).next
    have hsleep : sleep w = .ok () w₁ := rfl
    obtain ⟨running', hrun', htrue⟩ :=
      p.isPodRunning_calm (h.touches ((sleep_touches (T := ∅)).ok hsleep)) hglobal deploymentName
    have hpods : ∀ pod ∈ w₁.pods, pod.phase = "Running" :=
      (h.cooperative w.clock (w.objects .deployment)).1
    rw [bind_ok hsleep, poll, bind_ok hrun', if_pos (htrue hpods)]
    exact returns_pure ()

/-- After a wait, a Deployment that is there is ready. -/
theorem returns_sleep_poll_isDeploymentReady {w : World} (h : Calm w) {name : String}
    (hn : (w.get? .deployment name).isSome) (tries : ℕ) :
    Returns (do sleep; poll (tries + 1) (isDeploymentReady name)) w := by
  obtain ⟨d, hd⟩ := Option.isSome_iff_exists.mp hn
  let w₁ : World := (sleep w).next
  have hsleep : sleep w = .ok () w₁ := rfl
  have hcalm := h.touches ((sleep_touches (T := ∅)).ok hsleep)
  have hready : d.replicas =
    min (w₁.statuses name).readyReplicas (w₁.statuses name).updatedReplicas :=
    (h.cooperative w.clock (w.objects .deployment)).2 name d hd
  have hrun : isDeploymentReady name w₁ = .ok true w₁ := by
    refine recover_ok ((bind_ok (clientGet_calm hcalm hd)).trans ?_)
    exact congrArg (fun b => Outcome.ok b w₁) (decide_eq_true hready)
  rw [Returns, bind_ok hsleep, poll, bind_ok hrun]
  exact returns_pure ()

/-- Waiting for a server ends, as its Deployment is there. -/
theorem returns_awaitServer {w : World} (h : Calm w) (hglobal : p.cr.spec.global.isSome)
    (rolling : Bool) {serverId : ℕ}
    (hn : (w.get? .deployment (serverName p.cr.name serverId)).isSome) :
    Returns (p.awaitServer rolling serverId) w := by
  refine (p.returns_poll_isPodRunning h hglobal _ 28).bind fun _ t ht => ?_
  have htouch := (poll_touches (T := ∅) (p.isPodRunning_touches _) _).ok ht
  refine (returns_whenever_iff fun _ => iff_true_intro ?_).mpr fun _ => trivial
  refine returns_sleep_poll_isDeploymentReady (h.touches htouch) ?_ 29
  rwa [htouch.get? (Set.notMem_empty _)]

theorem returns_writePolicies {w : World} (h : Calm w) (vault : VaultSecretManagement)
    (secret : Secret) : Returns (p.writePolicies vault secret) w := by
  refine (returns_ensureVaultPolicy h _ _ _).bind fun _ t ht => ?_
  have h₁ := h.touches ((ensureVaultPolicy_touches (T := {.vault}) rfl _ _ _).ok ht)
  refine (returns_ensureVaultRole h₁ _ _ _ _).bind fun _ t₂ ht₂ => ?_
  have h₂ := h₁.touches ((ensureVaultRole_touches (T := {.vault}) rfl _ _ _ _).ok ht₂)
  exact returns_ensureVaultPolicy h₂ _ _ _

/-- The steps before the cleaning always return; what they leave is ready for it. -/
theorem returns_processVaultSecrets_iff {w : World} (h : Calm w) (vault : VaultSecretManagement)
    {secret : Secret}
    (hstored : secret.metadata.name ≠ "" → (w.get? .secret secret.metadata.name).isSome) :
    Returns (p.processVaultSecrets vault secret) w ↔ CleanApplies secret := by
  refine returns_bind_iff_of_returns (returns_update _) fun _ t ht => ?_
  obtain rfl := update_ok_inv ht
  -- the map of versions is made first, so that no version is written into a nil map
  have ht₀ : Touches {.secretVersions} w { w with status := { w.status with
      secretVersions := some (w.status.secretVersions.getD ∅) } } :=
    touches_secretVersions w _ rfl
  have h₀ := h.touches ht₀
  have hpolicies : Returns (whenever vault.writePolicies (p.writePolicies vault secret)) _ :=
    (returns_whenever_iff fun _ => iff_true_intro (p.returns_writePolicies h₀ vault secret)).mpr
      fun _ => trivial
  refine returns_bind_iff_of_returns hpolicies fun _ t₁ hrun₁ => ?_
  have ht₁ := (p.writePolicies_touches (T := {.vault}) rfl vault secret).whenever.ok hrun₁
  obtain ⟨generator, t₂, hrun₂, husable⟩ := newPasswordGenerator_calm (h₀.touches ht₁) p.cr vault
  have ht₂ := (newPasswordGenerator_touches (T := {.vault}) rfl p.cr vault).ok hrun₂
  refine returns_bind_iff_of_returns ⟨generator, t₂, hrun₂⟩ fun generator' t₂' hrun₂' => ?_
  obtain ⟨rfl, rfl⟩ : generator = generator' ∧ t₂ = t₂' := by
    rw [hrun₂] at hrun₂'
    cases hrun₂'
    exact ⟨rfl, rfl⟩
  have hstart := trans_of (Touches {.vault}) ht₁ ht₂
  have h₂ : VaultReady generator t₂ := ⟨h₀.touches hstart, husable,
    Eq.trans (hstart.same .secretVersions (by simp)) rfl⟩
  refine returns_bind_iff_of_returns (returns_processUserCredentials h₂ _ _ _ _)
    fun _ t₃ hrun₃ => ?_
  have ht₃ := (processUserCredentials_touches (T := {.vault}) rfl _ _ _ _ _).ok hrun₃
  refine returns_bind_iff_of_returns (returns_processUserCredentials (h₂.touches ht₃) _ _ _ _)
    fun _ t₄ hrun₄ => ?_
  have ht₄ := trans_of (Touches {.vault}) ht₃
    ((processUserCredentials_touches (T := {.vault}) rfl _ _ _ _ _).ok hrun₄)
  refine returns_bind_iff_of_returns
    (returns_processAdditionalUsersCredentials (h₂.touches ht₄) _ _ _) fun _ t₅ hrun₅ => ?_
  have ht₅ := trans_of (Touches {.vault}) ht₄
    ((processAdditionalUsersCredentials_touches (T := {.vault}) rfl _ _ _ _).ok hrun₅)
  refine returns_cleanSecret_iff (h₂.touches ht₅).calm _ fun hne => ?_
  rw [(trans_of (Touches {.vault}) hstart ht₅).get? (by simp), ht₀.get? (by simp)]
  exact hstored hne

/-- Vault's part of the pass returns exactly if the Secret can be cleaned, or Vault is off. -/
theorem returns_applyVault_iff {w : World} (h : Calm w) {secret : Secret}
    (hstored : secret.metadata.name ≠ "" → (w.get? .secret secret.metadata.name).isSome) :
    Returns (p.applyVault secret) w ↔ (p.cr.vault?.isSome → CleanApplies secret) := by
  unfold applyVault
  rcases p.cr.vault? with - | vault
  · exact iff_of_true (returns_pure _) (by rintro ⟨⟩)
  · exact (p.returns_processVaultSecrets_iff h vault hstored).trans
      ⟨fun h _ => h, fun h => h rfl⟩

end ZooKeeperResourceProvider

end QubershipZookeeper.Operator
