import QubershipZookeeper.ClaimMerges

/-!
# The annotations of claims over runs

The record of the annotations that were wanted last speaks about all claims, but a call visits only
those of the servers there are. When the annotations are edited while there are claims of servers
that were scaled away, the record moves on without them; and as long as the record is the same
as what is wanted, no claim is looked at again. A call that fails has a similar effect:
it may leave claims with annotations that the record does not know.

A run in which neither happens (`ClaimRuns.Session.Careful`) keeps the claims as they should be:
`ClaimRuns.alwaysManages_of_careful`.
-/

namespace QubershipZookeeper.Operator

open Proc

/-- The custom resource with other annotations for claims, and another number of servers. -/
def ZooKeeperService.withClaims (cr : ZooKeeperService) (annotations : StringMap) (replicas : ℤ) :
    ZooKeeperService :=
  { cr with spec := { cr.spec with
    global := cr.spec.global.map fun g => { g with pvcAnnotations := annotations }
    zooKeeper := cr.spec.zooKeeper.map fun z => { z with replicas := replicas } } }

/-- A claim with an annotation set, or removed. -/
def PersistentVolumeClaim.annotate (claim : PersistentVolumeClaim) (key : String)
    (value : Option String) : PersistentVolumeClaim :=
  let annotations := value.elim (claim.wanted.erase key) fun v => claim.wanted.insert key v
  { claim with metadata := { claim.metadata with annotations := storedAnnotations annotations } }

/-- A user who annotates a claim leaves its other annotations alone. -/
theorem lookup_annotate (claim : PersistentVolumeClaim) {key k : String} (value : Option String)
    (h : k ≠ key) : (claim.annotate key value).wanted.lookup k = claim.wanted.lookup k := by
  rw [PersistentVolumeClaim.annotate, wanted_of_storedAnnotations rfl]
  rcases value with - | v
  · exact Finmap.lookup_erase_ne h
  · exact Finmap.lookup_insert_of_ne _ h

/-- Somebody else sets an annotation of a claim, or removes it. -/
def World.annotate (w : World) (claimName key : String) (value : Option String) : World :=
  match w.get? .persistentVolumeClaim claimName with
  | none => w
  | some claim => w.store .persistentVolumeClaim (claim.annotate key value)

/-- The annotations with other keys stay, and no claim comes or goes. -/
theorem annotationsOf_annotate {w : World} {claimName key : String} {value : Option String}
    {name : String} {m : StringMap}
    (h : (w.annotate claimName key value).annotationsOf name = some m) :
    ∃ m', w.annotationsOf name = some m' ∧ ∀ k, k ≠ key → m.lookup k = m'.lookup k := by
  unfold World.annotate at h
  split at h
  · exact ⟨m, h, fun _ _ => rfl⟩
  next claim hclaim =>
    have hname : (claim.annotate key value).metadata.name = claimName := Store.name_of_get? hclaim
    by_cases hn : name = (claim.annotate key value).metadata.name
    · rw [hn, annotationsOf_store_self] at h
      obtain rfl := Option.some.inj h
      rw [hn, hname]
      exact ⟨claim.wanted, congrArg _ hclaim, fun k hk => lookup_annotate claim value hk⟩
    · rw [annotationsOf_store_of_ne w hn] at h
      exact ⟨m, h, fun _ _ => rfl⟩

/-- Annotating comes to one write, or to nothing where there is no claim. -/
theorem annotate_eq (w : World) (claimName key : String) (value : Option String) :
    w.annotate claimName key value = w ∨
      ∃ claim, w.annotate claimName key value = w.store .persistentVolumeClaim claim := by
  unfold World.annotate
  split
  · exact .inl rfl
  · exact .inr ⟨_, rfl⟩

namespace ClaimRuns

/-! ## Runs -/

/-- What others do between the calls of `Reconcile`. -/
inductive Deed where
  /-- the annotations and the number of servers are edited -/
  | edit (annotations : StringMap) (replicas : ℤ)
  /-- somebody else annotates a claim, with a key of their own -/
  | annotate (claimName key : String) (value : Option String)

/-- The cluster and the controller, with the history of the calls. -/
structure Session where
  /-- the cluster and the controller -/
  world : World
  /-- the keys that were wanted at some call -/
  managed : Finset String
  /-- the annotations that were wanted at the last call, if there was one -/
  last : Option StringMap
  /-- did the last call return nil? -/
  returned : Bool

namespace Session

variable (s : Session)

/-- The annotations that are wanted. -/
def wanted : StringMap := s.world.cr.elim ∅ claimAnnotations

/-- The record of the annotations that were wanted last. -/
def recorded : StringMap := s.world.storedStatus.pvcAnnotations

/-- Before the first call: nothing is remembered or recorded, and the servers have no claims. -/
structure Fresh : Prop where
  hash : s.world.resourceHashes.lookup globalHashName = none
  recorded : s.recorded = ∅
  managed : s.managed = ∅
  last : s.last = none
  claims : ∀ p : ZooKeeperResourceProvider, s.world.cr = some p.cr →
    ∀ i, s.world.get? .persistentVolumeClaim (p.dataClaimName i) = none

/-- What a call of `Reconcile` that returns nil should do to the claims it builds for the servers:
they have the wanted annotations, none that were wanted earlier and are not wanted any more, and
all others as before. -/
def Manages (call : Call) : Prop :=
  ∀ p : ZooKeeperResourceProvider, s.world.cr = some p.cr →
    ∀ w', reconcile (call.start s.world) = .ok () w' →
      ∀ i ∈ p.serverIds, ∀ claim, p.newZooKeeperPersistentVolumeClaimForCR i = .ok (some claim) →
        ∀ stored, w'.get? .persistentVolumeClaim claim.metadata.name = some stored →
          (∀ k ∈ s.wanted, stored.wanted.lookup k = s.wanted.lookup k) ∧
          (∀ k ∈ s.managed, k ∉ s.wanted → k ∉ stored.wanted) ∧
          ∀ k ∉ s.managed, k ∉ s.wanted →
            ∀ before, s.world.get? .persistentVolumeClaim claim.metadata.name = some before →
              stored.wanted.lookup k = before.wanted.lookup k

/-- The annotations are those of the last call, unless it returned nil. -/
def Steady : Prop := s.last = none ∨ s.returned = true ∨ s.last = some s.wanted

/-- The wanted annotations are the recorded ones, or there is no claim of a server that was scaled
away. -/
def Complete : Prop :=
  s.recorded = s.wanted ∨ ∀ p : ZooKeeperResourceProvider, s.world.cr = some p.cr →
    ∀ i : ℕ, p.spec.replicas < i → s.world.get? .persistentVolumeClaim (p.dataClaimName i) = none

end Session

/-- Edits and annotations, and calls of `Reconcile`. -/
def interplay : Interplay Session Deed Call where
  others s
    | .edit annotations replicas =>
      { s with world := { s.world with
          cr := s.world.cr.map fun cr => cr.withClaims annotations replicas } }
    | .annotate claimName key value =>
      if key ∈ s.managed then s else { s with world := s.world.annotate claimName key value }
  call s call :=
    { world := (reconcile (call.start s.world)).next
      managed := s.managed ∪ s.wanted.keys
      last := some s.wanted
      returned := (reconcile (call.start s.world)).returned }

namespace Session

/-- All calls of a run do what they should. -/
def AlwaysManages : Session → List (Turn Deed Call) → Prop := interplay.EveryCall Manages

/-- `Reconcile` is only called when both hold. -/
def Careful : Session → List (Turn Deed Call) → Prop :=
  interplay.EveryCall fun s _ => s.Steady ∧ s.Complete

/-! ## The invariant -/

/-- The annotations of a global section. -/
def annotationsIn (global : Option Global) : StringMap := global.elim ∅ Global.pvcAnnotations

/-- The invariant. The claims are as the last call wanted them, or they are a merge away from it
that the next call makes; and a remembered hash of the global section of the last call stands for a
record that has been written. -/
structure Sound (s : Session) (p : ZooKeeperResourceProvider) : Prop where
  claims : ∀ i, 1 ≤ i → p.DataProvided i → ∀ m ∈ s.world.annotationsOf (p.dataClaimName i),
    ThreeWayMerge.Pending s.managed (s.last.getD ∅) s.recorded m
  recorded_of_returned : s.last = none ∨ s.returned = true → s.recorded = s.last.getD ∅
  recorded_of_hash : ∀ g, s.world.resourceHashes.lookup globalHashName = some (.global g) →
    s.last = some (annotationsIn g) → s.recorded = annotationsIn g
  last_of_hash : ∀ g, s.world.resourceHashes.lookup globalHashName = some (.global g) →
    s.last = none ∨ s.returned = true → s.last = some (annotationsIn g)
  recordedKeys : ∀ k ∈ s.recorded, k ∈ s.managed
  lastKeys : ∀ k ∈ s.last.getD ∅, k ∈ s.managed

variable {s : Session} {p : ZooKeeperResourceProvider}

/-- Before the first call there are no claims and nothing is on record, so nothing is wrong. -/
theorem Fresh.sound (h : s.Fresh) (hcr : s.world.cr = some p.cr) : s.Sound p where
  claims i _ _ m hm := by
    rw [World.annotationsOf, h.claims p hcr i] at hm
    cases hm
  recorded_of_returned _ := by
    rw [h.recorded, h.last]
    rfl
  recorded_of_hash g hg := by
    rw [h.hash] at hg
    cases hg
  last_of_hash g hg := by
    rw [h.hash] at hg
    cases hg
  recordedKeys k hk := by
    rw [h.recorded] at hk
    exact absurd hk Finmap.notMem_empty
  lastKeys k hk := by
    rw [h.last] at hk
    exact absurd hk Finmap.notMem_empty

/-- The provider before an edit. -/
theorem provider_of_withClaims {cr : ZooKeeperService} {annotations : StringMap} {replicas : ℤ}
    (h : cr.withClaims annotations replicas = p.cr) :
    ∃ q : ZooKeeperResourceProvider, q.cr = cr ∧ q.cr.name = p.cr.name ∧
      q.spec.storage = p.spec.storage := by
  have hspec : cr.spec.zooKeeper.map (fun z => { z with replicas := replicas }) = some p.spec :=
    (congrArg (fun c => c.spec.zooKeeper) h).trans p.spec_eq
  obtain ⟨z, hz, hp⟩ := Option.map_eq_some_iff.mp hspec
  exact ⟨⟨cr, z, hz⟩, rfl, congrArg (fun c => c.name) h, congrArg (fun z => z.storage) hp⟩

/-- An edit changes neither the claims nor the record, nor which servers have claims. -/
theorem sound_edit (h : ∀ q : ZooKeeperResourceProvider, s.world.cr = some q.cr → s.Sound q)
    (annotations : StringMap) (replicas : ℤ)
    (hcr : (interplay.others s (.edit annotations replicas)).world.cr = some p.cr) :
    (interplay.others s (.edit annotations replicas)).Sound p := by
  obtain ⟨cr, hcr, hp⟩ := Option.map_eq_some_iff.mp hcr
  obtain ⟨q, rfl, hname, hstorage⟩ := provider_of_withClaims hp
  refine { h q hcr with claims := fun i hi hprovided => ?_ }
  have hprovided' : q.DataProvided i := by
    rw [ZooKeeperResourceProvider.DataProvided, hstorage]
    exact hprovided
  have hclaims := (h q hcr).claims i hi hprovided'
  rw [ZooKeeperResourceProvider.dataClaimName, hname] at hclaims
  exact hclaims

/-- Others keep to keys of their own. -/
theorem Sound.annotate (h : s.Sound p) (claimName key : String) (value : Option String) :
    (interplay.others s (.annotate claimName key value)).Sound p := by
  simp only [interplay]
  by_cases hkey : key ∈ s.managed
  · rw [if_pos hkey]
    exact h
  rw [if_neg hkey]
  have hclaims : ∀ i, 1 ≤ i → p.DataProvided i →
      ∀ m ∈ (s.world.annotate claimName key value).annotationsOf (p.dataClaimName i),
        ThreeWayMerge.Pending s.managed (s.last.getD ∅) s.recorded m := by
    intro i hi hprovided m hm
    obtain ⟨m', hm', hsame⟩ := annotationsOf_annotate hm
    refine (h.claims i hi hprovided m' hm').congr fun k hk => hsame k ?_
    rintro rfl
    exact hkey hk
  rcases annotate_eq s.world claimName key value with heq | ⟨claim, heq⟩
  · rw [heq]
    exact h
  · rw [heq] at hclaims ⊢
    exact { h with claims := hclaims }

theorem cr_annotate (claimName key : String) (value : Option String) :
    (interplay.others s (.annotate claimName key value)).world.cr = s.world.cr := by
  simp only [interplay]
  split
  · rfl
  · rcases annotate_eq s.world claimName key value with heq | ⟨claim, heq⟩ <;> rw [heq]
    rfl

/-! ## Calls -/

theorem wanted_eq (hcr : s.world.cr = some p.cr) : s.wanted = claimAnnotations p.cr := by
  rw [wanted, hcr]
  rfl

/-- Before a careful call, the claims are as they should be, or a merge away from it. -/
theorem Sound.pending (h : s.Sound p) (hsteady : s.Steady) {i : ℕ}
    (hi : 1 ≤ i) (hprovided : p.DataProvided i) {m : StringMap}
    (hm : m ∈ s.world.annotationsOf (p.dataClaimName i)) :
    ThreeWayMerge.Pending ↑(s.managed ∪ s.wanted.keys) s.wanted s.recorded m := by
  have hpending := h.claims i hi hprovided m hm
  -- when the annotations are those of the last call, there is nothing new
  have hsame : s.last.getD ∅ = s.wanted →
      ThreeWayMerge.Pending ↑(s.managed ∪ s.wanted.keys) s.wanted s.recorded m := by
    intro hlast
    have hkeys : s.managed ∪ s.wanted.keys = s.managed := by
      refine Finset.union_eq_left.mpr fun k hk => h.lastKeys k ?_
      rw [hlast]
      exact Finmap.mem_keys.mp hk
    rwa [hkeys, ← hlast]
  by_cases hlast : s.last.getD ∅ = s.wanted
  · exact hsame hlast
  -- otherwise the last call has returned, and written the record
  have hrecorded : s.recorded = s.last.getD ∅ := by
    rcases hsteady with hnone | hreturned | hlast'
    · exact h.recorded_of_returned (.inl hnone)
    · exact h.recorded_of_returned (.inr hreturned)
    · rw [hlast'] at hlast
      exact absurd rfl hlast
  rw [hrecorded] at hpending ⊢
  refine hpending.next (Ne.symm hlast) fun k hk hnew => ?_
  rw [Finset.coe_union] at hk
  exact Finmap.mem_keys.mp (hk.resolve_left hnew)

/-- Before a careful call, a remembered hash of the present global section stands for a record that
has been written. -/
theorem Sound.recorded_of_remembered (h : s.Sound p) (hsteady : s.Steady)
    (hcr : s.world.cr = some p.cr)
    (hhash : s.world.resourceHashes.lookup globalHashName = some (.global p.cr.spec.global)) :
    s.recorded = s.wanted := by
  have hwanted : s.wanted = annotationsIn p.cr.spec.global := wanted_eq hcr
  rw [hwanted]
  refine h.recorded_of_hash _ hhash ?_
  rcases hsteady with hnone | hreturned | hlast
  · exact h.last_of_hash _ hhash (.inl hnone)
  · exact h.last_of_hash _ hhash (.inr hreturned)
  · rw [hlast, hwanted]

/-- After the visits of a careful call, the claims of all servers are in sync. -/
theorem Sound.inSync (h : s.Sound p) (hsteady : s.Steady) (hcomplete : s.Complete)
    (hcr : s.world.cr = some p.cr) {w' : World}
    (hclaims : ∀ n, ThreeWayMerge.MergesTo s.wanted s.recorded (s.world.annotationsOf n)
      (w'.annotationsOf n))
    (hmerged : ∀ n ∈ p.visitedNames s.world,
      ThreeWayMerge.Merged s.wanted s.recorded (w'.annotationsOf n)) {i : ℕ} (hi : 1 ≤ i)
    (hprovided : p.DataProvided i) :
    ∀ m ∈ w'.annotationsOf (p.dataClaimName i),
      ThreeWayMerge.InSync ↑(s.managed ∪ s.wanted.keys) s.wanted m := by
  have hpending := (hclaims (p.dataClaimName i)).pending fun m hm =>
    h.pending hsteady hi hprovided hm
  by_cases hrecorded : s.recorded = s.wanted
  · intro m hm
    exact (hpending m hm).resolve_right fun hne => hne.1 hrecorded.symm
  by_cases hR : (i : ℤ) ≤ p.spec.replicas
  · -- the claim of a server that is there has been visited
    refine (hmerged _ ⟨fun hhash => hrecorded ?_, i, ?_, hprovided, rfl⟩).inSync hpending
    · exact h.recorded_of_remembered hsteady hcr hhash
    · exact p.mem_serverIds.mpr ⟨hi, by omega⟩
  · -- any other claim is a new one
    have hnone : s.world.annotationsOf (p.dataClaimName i) = none := by
      rw [World.annotationsOf, hcomplete.resolve_left hrecorded p hcr i (not_le.mp hR)]
      rfl
    intro m hm
    rcases hclaims (p.dataClaimName i) with heq | ⟨-, heq⟩ | ⟨-, found, hfound, -⟩
    · rw [heq, hnone] at hm
      cases hm
    · rw [heq] at hm
      cases hm
      exact fun _ _ => rfl
    · rw [hnone] at hfound
      cases hfound

/-- A careful call that returns nil keeps the invariant. -/
theorem Sound.reconcile_ok (h : s.Sound p) (hsteady : s.Steady) (hcomplete : s.Complete)
    (hcr : s.world.cr = some p.cr) {w' : World} (hcall : p.CallManaged s.world w') :
    Sound ⟨w', s.managed ∪ s.wanted.keys, some s.wanted, true⟩ p := by
  have hwanted : s.wanted = claimAnnotations p.cr := wanted_eq hcr
  have hstored : w'.storedStatus.pvcAnnotations = s.wanted := hcall.stored.trans hwanted.symm
  have hlast : ∀ g, w'.resourceHashes.lookup globalHashName = some (.global g) →
      s.wanted = annotationsIn g := by
    intro g hg
    cases hcall.hash.symm.trans hg
    exact hwanted
  refine ⟨fun i hi hprovided m hm => ?_, fun _ => hstored, fun g hg _ => ?_, fun g hg _ => ?_,
    fun k hk => ?_, fun k hk => ?_⟩
  · refine .inl (h.inSync hsteady hcomplete hcr (fun n => ?_) (fun n hn => ?_) hi hprovided m hm)
    · exact hwanted ▸ hcall.claims n
    · exact hwanted ▸ hcall.merged n hn
  · exact hstored.trans (hlast g hg)
  · exact congrArg some (hlast g hg)
  · have hk : k ∈ s.wanted := hstored ▸ hk
    exact Finset.mem_union_right _ (Finmap.mem_keys.mpr hk)
  · exact Finset.mem_union_right _ (Finmap.mem_keys.mpr hk)

/-- And so does one that fails. -/
theorem Sound.reconcile_raised (h : s.Sound p) (hsteady : s.Steady) (hcomplete : s.Complete)
    (hcr : s.world.cr = some p.cr) {w' : World} (hcall : p.CallBroken s.world w') :
    Sound ⟨w', s.managed ∪ s.wanted.keys, some s.wanted, false⟩ p := by
  have hwanted : s.wanted = claimAnnotations p.cr := wanted_eq hcr
  have hclaims : ∀ n, ThreeWayMerge.MergesTo s.wanted s.recorded (s.world.annotationsOf n)
      (w'.annotationsOf n) := fun n => hwanted ▸ hcall.claims n
  have hrecorded_of_hash : ∀ g, w'.resourceHashes.lookup globalHashName = some (.global g) →
      s.wanted = annotationsIn g → s.recorded = s.wanted := by
    intro g hg hlast
    rw [hcall.hash] at hg
    rw [hlast]
    refine h.recorded_of_hash g hg ?_
    rcases hsteady with hnone | hreturned | hsame
    · exact h.last_of_hash g hg (.inl hnone)
    · exact h.last_of_hash g hg (.inr hreturned)
    · rw [hsame, hlast]
  have hlastKeys : ∀ k ∈ s.wanted, k ∈ s.managed ∪ s.wanted.keys := fun k hk =>
    Finset.mem_union_right _ (Finmap.mem_keys.mpr hk)
  have hfailed : ¬ ((some s.wanted : Option StringMap) = none ∨ false = true) := by simp
  rcases hcall.stored with hkept | ⟨hwritten, hmerged⟩
  · -- the record is the old one
    have hkept : w'.storedStatus.pvcAnnotations = s.recorded := hkept
    refine ⟨fun i hi hprovided m hm => ?_, fun h => absurd h hfailed, fun g hg hlast => ?_,
      fun g hg h => absurd h hfailed, fun k hk => ?_, hlastKeys⟩
    · have hpending := (hclaims (p.dataClaimName i)).pending (fun m hm =>
        h.pending hsteady hi hprovided hm) m hm
      rw [← hkept] at hpending
      exact hpending
    · have hlast : s.wanted = annotationsIn g := Option.some.inj hlast
      exact hkept.trans ((hrecorded_of_hash g hg hlast).trans hlast)
    · have hk : k ∈ s.recorded := hkept ▸ hk
      exact Finset.mem_union_left _ (h.recordedKeys k hk)
  · -- the record is the new one, and all claims have been visited
    have hwritten : w'.storedStatus.pvcAnnotations = s.wanted := hwritten.trans hwanted.symm
    refine ⟨fun i hi hprovided m hm => ?_, fun h => absurd h hfailed, fun g hg hlast => ?_,
      fun g hg h => absurd h hfailed, fun k hk => ?_, hlastKeys⟩
    · exact .inl (h.inSync hsteady hcomplete hcr hclaims (fun n hn => hwanted ▸ hmerged n hn) hi
        hprovided m hm)
    · exact hwritten.trans (Option.some.inj hlast)
    · have hk : k ∈ s.wanted := hwritten ▸ hk
      exact hlastKeys k hk

/-- A careful call keeps the invariant, however it ends. -/
theorem sound_call (h : ∀ q : ZooKeeperResourceProvider, s.world.cr = some q.cr → s.Sound q)
    (hsteady : s.Steady) (hcomplete : s.Complete) (call : Call)
    (hcr : (interplay.call s call).world.cr = some p.cr) : (interplay.call s call).Sound p := by
  have hsame := (reconcile_touches (call.start s.world)).evolves.cr
  have hcr' : s.world.cr = some p.cr := hsame.symm.trans hcr
  have hbefore : (call.start s.world).cr = some p.cr := hcr'
  have hcall := p.controller_managing (call.start s.world) _ ⟨hbefore, rfl⟩
  revert hcall
  simp only [interplay]
  rcases reconcile (call.start s.world) with ⟨u, w'⟩ | ⟨e, w'⟩
  · intro hcall
    exact (h p hcr').reconcile_ok hsteady hcomplete hcr'
      ⟨hcall.claims, hcall.merged, hcall.stored, hcall.hash⟩
  · intro hcall
    exact (h p hcr').reconcile_raised hsteady hcomplete hcr'
      ⟨hcall.claims, hcall.stored, hcall.hash⟩

/-- A careful call does what it should. -/
theorem Sound.manages (h : ∀ q : ZooKeeperResourceProvider, s.world.cr = some q.cr → s.Sound q)
    (hsteady : s.Steady) (hcomplete : s.Complete) (call : Call) : s.Manages call := by
  intro p hcr w' hrun i hi claim hbuilt stored hstored
  have hwanted : s.wanted = claimAnnotations p.cr := wanted_eq hcr
  have hsound := h p hcr
  have hstart : (call.start s.world).cr = some p.cr := hcr
  have hcall := (p.controller_managing (call.start s.world)).ok ⟨hstart, rfl⟩ hrun
  obtain ⟨hprovided, hname⟩ :=
    (p.name_newZooKeeperPersistentVolumeClaimForCR hbuilt claim.metadata.name).mp ⟨claim, rfl, rfl⟩
  rw [hname] at hstored
  have hsync := hsound.inSync hsteady hcomplete hcr (fun n => hwanted ▸ hcall.claims n)
    (fun n hn => hwanted ▸ hcall.merged n hn) (p.mem_serverIds.mp hi).1 hprovided stored.wanted
    (congrArg _ hstored)
  refine ⟨fun k hk => ?_, fun k hk hunwanted => ?_, fun k hk hunwanted before hbefore => ?_⟩
  · exact hsync k (Finset.mem_union_right _ (Finmap.mem_keys.mpr hk))
  · rw [← Finmap.lookup_eq_none, hsync k (Finset.mem_union_left _ hk),
      Finmap.lookup_eq_none.mpr hunwanted]
  · rw [hname] at hbefore
    have hevolves := hcall.claims (p.dataClaimName i)
    have hbefore' : (call.start s.world).annotationsOf (p.dataClaimName i) =
        some before.wanted := congrArg _ hbefore
    have hstored' : w'.annotationsOf (p.dataClaimName i) = some stored.wanted := congrArg _ hstored
    rw [hbefore', hstored', ← hwanted] at hevolves
    exact hevolves.lookup_other hunwanted fun hk' => hk (hsound.recordedKeys k hk')

end Session

/-- The invariant, for whichever provider there is. -/
theorem invariant_sound : interplay.Invariant (fun s _ => s.Steady ∧ s.Complete)
    fun s => ∀ p : ZooKeeperResourceProvider, s.world.cr = some p.cr → s.Sound p where
  others
    | _, .edit annotations replicas, hsound, _, hcr =>
      Session.sound_edit hsound annotations replicas hcr
    | _, .annotate claimName key value, hsound, p, hcr =>
      (hsound p (Session.cr_annotate claimName key value ▸ hcr)).annotate claimName key value
  call _ call hsound hcareful _ hcr := Session.sound_call hsound hcareful.1 hcareful.2 call hcr

/-- **The annotations of claims are right in every careful run.** From a controller and servers
without claims on, whatever fails on the way: if the annotations are only edited after a call
that returned nil, and only while there are no claims of servers that were scaled away, then after
every call that returns nil the claims of the servers have the wanted annotations, none that were
wanted earlier, and those of others as they were. -/
theorem alwaysManages_of_careful {s : Session} (hfresh : s.Fresh) (turns : List (Turn Deed Call))
    (hcareful : s.Careful turns) : s.AlwaysManages turns :=
  invariant_sound.everyCall
    (fun _ call hsound hcareful => Session.Sound.manages hsound hcareful.1 hcareful.2 call)
    (fun _ hcr => hfresh.sound hcr) hcareful

/-! ### A run that is careful, and one that is not -/

/-- Different servers have different claims. -/
theorem persistentVolumeClaimPattern_injective (name : String) :
    Function.Injective (persistentVolumeClaimPattern name) :=
  serverName_injective ("pvc-" ++ name)

/-- All claims there are belong to the servers that are wanted. -/
def Session.OnlyServers (s : Session) : Prop :=
  ∀ cr ∈ s.world.cr, ∀ z ∈ cr.spec.zooKeeper, ∀ n ∈ (s.world.objects .persistentVolumeClaim).keys,
    ∃ i ∈ List.range' 1 z.replicas.toNat, n = persistentVolumeClaimPattern cr.name i

instance (s : Session) : Decidable s.OnlyServers :=
  inferInstanceAs (Decidable (∀ cr ∈ s.world.cr, ∀ z ∈ cr.spec.zooKeeper,
    ∀ n ∈ (s.world.objects .persistentVolumeClaim).keys,
      ∃ i ∈ List.range' 1 z.replicas.toNat, n = persistentVolumeClaimPattern cr.name i))

/-- If there are no other claims than those of the wanted servers, no server that comes back has
one. -/
theorem Session.OnlyServers.complete {s : Session} (h : s.OnlyServers) : s.Complete := by
  refine .inr fun p hcr i hi => ?_
  rw [World.get?, Store.get?, Option.map_eq_none_iff, Finmap.lookup_eq_none, ← Finmap.mem_keys]
  intro hmem
  obtain ⟨j, hj, hname⟩ := h p.cr hcr p.spec p.spec_eq _ hmem
  have hij : i = j := persistentVolumeClaimPattern_injective p.cr.name hname
  rw [List.mem_range'_1] at hj
  omega

/-- A section on servers whose volumes come from a storage class. -/
def sampleZooKeeper (replicas : ℤ) : ZooKeeper :=
  { HashGate.sampleZooKeeper "zookeeper:1" with
    replicas := replicas
    storage := { size := .of "1Gi", className := ["standard"] } }

/-- A custom resource with two servers and an annotation for their claims. -/
def sampleResource : ZooKeeperService :=
  { HashGate.sampleResource with
    spec := { global := some { pvcAnnotations := .ofList [("owner", "storage")] }
              zooKeeper := some (sampleZooKeeper 2) } }

/-- A cluster with the Secret of ZooKeeper and nothing else, and a fresh controller. -/
def sampleSession : Session where
  world := { HashGate.sampleSession.world with cr := some sampleResource }
  managed := ∅
  last := none
  returned := false

theorem fresh_sampleSession : sampleSession.Fresh where
  hash := rfl
  recorded := rfl
  managed := rfl
  last := rfl
  claims _ _ _ := rfl

/-- The annotations are replaced while both servers are there. -/
def editedRun : List (Turn Deed Call) :=
  [.call ⟨[], HashGate.calm⟩, .others (.annotate "pvc-zookeeper-2" "note" (some "mine")),
   .others (.edit (.ofList [("tier", "gold")]) 2), .call ⟨[], HashGate.calm⟩]

/-- They are replaced while the second server is away. -/
def scaledRun : List (Turn Deed Call) :=
  [.call ⟨[], HashGate.calm⟩, .others (.edit (.ofList [("tier", "gold")]) 1),
   .call ⟨[], HashGate.calm⟩, .others (.edit (.ofList [("tier", "gold")]) 2),
   .call ⟨[], HashGate.calm⟩]

/-- An edit while both servers are there reaches both claims. -/
theorem alwaysManages_editedRun :
    sampleSession.Fresh ∧ sampleSession.Careful editedRun ∧
      sampleSession.AlwaysManages editedRun := by
  have hfirst : sampleSession.OnlyServers := by decide +kernel
  have hsteady : (interplay.run sampleSession (editedRun.take 3)).returned = true := by
    decide +kernel
  have hsecond : (interplay.run sampleSession (editedRun.take 3)).OnlyServers := by decide +kernel
  have hcareful : sampleSession.Careful editedRun :=
    ⟨⟨.inl rfl, hfirst.complete⟩, ⟨.inr (.inl hsteady), hsecond.complete⟩, trivial⟩
  exact ⟨fresh_sampleSession, hcareful, alwaysManages_of_careful fresh_sampleSession _ hcareful⟩

/-- **An edit while a server is away does not reach its claim.** The server comes back with the
claim it had, and the last call returns nil; but the claim still has the annotation that was
wanted first, and not the one that is wanted. -/
theorem not_alwaysManages_scaledRun :
    sampleSession.Fresh ∧ ¬ sampleSession.AlwaysManages scaledRun := by
  refine ⟨fresh_sampleSession, ?_⟩
  rintro ⟨-, -, hlast, -⟩
  -- the state before the last call, which returns
  let last := interplay.run sampleSession (scaledRun.take 4)
  let p : ZooKeeperResourceProvider :=
    ⟨sampleResource.withClaims (.ofList [("tier", "gold")]) 2, sampleZooKeeper 2, rfl⟩
  have hcr : last.world.cr = some p.cr := by decide +kernel
  obtain ⟨u, w', hrun⟩ := Outcome.returned_iff.mp
    (show (reconcile (Call.start ⟨[], HashGate.calm⟩ last.world)).returned = true by decide +kernel)
  have hserver : 2 ∈ p.serverIds := by decide
  obtain ⟨claim, hclaim, hname⟩ : ∃ claim, p.newZooKeeperPersistentVolumeClaimForCR 2 =
      .ok (some claim) ∧ claim.metadata.name = "pvc-zookeeper-2" := by
    have hname : (p.newZooKeeperPersistentVolumeClaimForCR 2).toOption.join.map
        (fun claim => claim.metadata.name) = some "pvc-zookeeper-2" := by decide +kernel
    rcases h : p.newZooKeeperPersistentVolumeClaimForCR 2 with e | - | claim <;> rw [h] at hname
    · cases hname
    · cases hname
    · exact ⟨claim, rfl, Option.some.inj hname⟩
  have hlookup : ((reconcile (Call.start ⟨[], HashGate.calm⟩ last.world)).next.annotationsOf
      "pvc-zookeeper-2").map (fun m => m.lookup "tier") = some none := by decide +kernel
  rw [hrun, Outcome.next_ok, World.annotationsOf, Option.map_map, Option.map_eq_some_iff] at hlookup
  obtain ⟨stored, hstored, hnone⟩ := hlookup
  rw [← hname] at hstored
  have htier : stored.wanted.lookup "tier" = last.wanted.lookup "tier" :=
    (hlast p hcr w' hrun 2 hserver claim hclaim stored hstored).1 "tier" (by decide +kernel)
  have hsome : (last.wanted.lookup "tier").isSome = true := by decide +kernel
  rw [← htier, show stored.wanted.lookup "tier" = none from hnone] at hsome
  cases hsome

end ClaimRuns

end QubershipZookeeper.Operator
