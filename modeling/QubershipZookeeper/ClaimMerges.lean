import QubershipZookeeper.MountedClaims
import QubershipZookeeper.WatchedSecrets

/-!
# The annotations of claims in a call

`updatePersistentVolumeClaim` is a three-way merge: the annotations that the custom resource asks
for, those of the claim that was found, and those that were asked for the last time. There is one
record of the last time, in the status of the custom resource, for all claims together. A call
writes it (`updateStatus`) after the passes of the components.

This module follows the claims through a call, whatever becomes of it: every claim stays, is
created, or is merged (`Managing`), and the call either writes the record, after it has visited the
claims of all the servers, or leaves it (`reconcile_managing`).
-/

namespace QubershipZookeeper.Operator

open Proc

/-- The annotations of the stored claim with a name. -/
def World.annotationsOf (w : World) (name : String) : Option StringMap :=
  (w.get? .persistentVolumeClaim name).map PersistentVolumeClaim.wanted

theorem annotationsOf_congr {w w' : World} {name : String}
    (h : w'.get? .persistentVolumeClaim name = w.get? .persistentVolumeClaim name) :
    w'.annotationsOf name = w.annotationsOf name :=
  congrArg _ h

/-- A stored claim has the annotations it asks for. -/
theorem annotationsOf_store_self (w : World) (claim : PersistentVolumeClaim) :
    (w.store .persistentVolumeClaim claim).annotationsOf claim.metadata.name = some claim.wanted :=
  congrArg _ (w.get?_store_self .persistentVolumeClaim claim)

theorem annotationsOf_store_of_ne (w : World) {claim : PersistentVolumeClaim} {name : String}
    (h : name ≠ claim.metadata.name) :
    (w.store .persistentVolumeClaim claim).annotationsOf name = w.annotationsOf name :=
  annotationsOf_congr (w.get?_store_of_ne (.inr h))

/-! ## Merges -/

/-- From `w₀` to `w`, claims have only been created with the wanted annotations, or merged; the
record of the annotations wanted last is still the same, in memory and stored. The claims in
`visited` have had their turn. -/
structure Managing (wanted previous : StringMap) (w₀ : World) (visited : Set String) (w : World) :
    Prop where
  claims : ∀ n, ThreeWayMerge.MergesTo wanted previous (w₀.annotationsOf n) (w.annotationsOf n)
  merged : ∀ n ∈ visited, ThreeWayMerge.Merged wanted previous (w.annotationsOf n)
  recorded : w.status.pvcAnnotations = previous
  stored : w.storedStatus.pvcAnnotations = previous

namespace Managing

variable {wanted previous : StringMap} {w₀ w w' : World} {visited : Set String}

/-- The state of the merges is kept by steps aside of claims and record. -/
theorem of_touches {T : Set Field} (h : Managing wanted previous w₀ visited w)
    (ht : Touches T w w') (hclaims : ∀ n, .object .persistentVolumeClaim n ∉ T)
    (hstored : .storedAnnotations ∉ T) : Managing wanted previous w₀ visited w' := by
  have hsame : ∀ n, w'.annotationsOf n = w.annotationsOf n := fun n =>
    annotationsOf_congr (ht.get? (hclaims n))
  obtain ⟨hrecorded, hlast⟩ := ht.same .storedAnnotations hstored
  refine ⟨fun n => hsame n ▸ h.claims n, fun n hn => hsame n ▸ h.merged n hn,
    hrecorded.trans h.recorded, ?_⟩
  rcases hlast with hlast | hlast
  · exact hlast.trans h.stored
  · exact hlast.trans h.recorded

theorem withoutClaims (h : Managing wanted previous w₀ visited w)
    (ht : Touches ZooKeeperResourceProvider.withoutClaims.fields w w') :
    Managing wanted previous w₀ visited w' :=
  h.of_touches ht (fun _ => id) id

/-- And by requests that come to nothing. -/
theorem stable : Stable (Managing wanted previous w₀ visited) :=
  fun _ _ ht h => h.of_touches ht (fun _ => Set.notMem_empty _) (Set.notMem_empty _)

/-- More claims count as visited if they have been merged as well. -/
theorem mono {more : Set String} (h : Managing wanted previous w₀ visited w)
    (hmore : ∀ n ∈ more, n ∈ visited ∨ ThreeWayMerge.Merged wanted previous (w.annotationsOf n)) :
    Managing wanted previous w₀ more w :=
  { h with merged := fun n hn => (hmore n hn).elim (h.merged n) id }

/-- Storing a claim that comes from what is there by a merge. -/
theorem store (claim : PersistentVolumeClaim) (h : Managing wanted previous w₀ visited w)
    (hclaim : ThreeWayMerge.MergesTo wanted previous (w.annotationsOf claim.metadata.name)
      (some claim.wanted)) :
    Managing wanted previous w₀ visited (w.store .persistentVolumeClaim claim) := by
  have hstep : ∀ n, ThreeWayMerge.MergesTo wanted previous (w.annotationsOf n)
      ((w.store .persistentVolumeClaim claim).annotationsOf n) := by
    intro n
    by_cases hn : n = claim.metadata.name
    · rw [hn, annotationsOf_store_self]
      exact hclaim
    · rw [annotationsOf_store_of_ne w hn]
      exact .refl _
  exact ⟨fun n => (h.claims n).trans (hstep n), fun n hn => (h.merged n hn).mergesTo (hstep n),
    h.recorded, h.stored⟩

end Managing

section Claims

variable {wanted previous : StringMap} {w₀ : World} {visited : Set String}

/-- What `createPersistentVolumeClaim` leaves: a claim that asks for the wanted annotations has had
its turn. -/
def Visits (wanted previous : StringMap) (w₀ : World) (visited : Set String)
    (claim : PersistentVolumeClaim) (w : World) : Prop :=
  Managing wanted previous w₀ visited w ∧ (claim.wanted = wanted →
    ThreeWayMerge.Merged wanted previous (w.annotationsOf claim.metadata.name))

/-- Updating a claim that was found: one that asks for the wanted annotations, or the found one
itself. -/
theorem updatePersistentVolumeClaim_managing {found claim : PersistentVolumeClaim}
    (hname : found.metadata.name = claim.metadata.name)
    (hclaim : claim.wanted = wanted ∨ found = claim) :
    Triple (fun w => Managing wanted previous w₀ visited w ∧
        w.get? .persistentVolumeClaim claim.metadata.name = some found)
      (updatePersistentVolumeClaim found claim)
      (fun _ => Visits wanted previous w₀ visited claim) fun _ =>
        Managing wanted previous w₀ visited := by
  have hthere {w : World} (hget : w.get? .persistentVolumeClaim claim.metadata.name = some found) :
      w.annotationsOf claim.metadata.name = some found.wanted := congrArg _ hget
  -- the record in memory is the one that the merge is about
  refine Triple.bind (Q := fun recorded w => (Managing wanted previous w₀ visited w ∧
      w.get? .persistentVolumeClaim claim.metadata.name = some found) ∧ recorded = previous)
    (triple_observe fun w hw => ⟨hw, hw.1.recorded⟩) fun recorded => ?_
  refine Triple.of_fact (fun _ hw => hw.2) ?_
  rintro rfl
  refine Triple.whenever (fun hne => ?_) fun heq w hw => ⟨hw.1.1, ?_⟩
  · have hne : claim.wanted ≠ recorded := of_decide_eq_true hne
    refine Triple.bind (Q := fun annotations w => (Managing wanted recorded w₀ visited w ∧
        w.get? .persistentVolumeClaim claim.metadata.name = some found) ∧
        updatedAnnotations found.metadata.annotations claim.wanted recorded = .ok annotations)
      (triple_build (fun annotations w hbuilt hw => ⟨hw.1, hbuilt⟩) fun _ _ hw => hw.1.1)
      fun annotations => ?_
    refine Triple.of_fact (fun _ hw => hw.2) fun hbuilt => ?_
    have hmerge := updatedAnnotations_merge hbuilt
    -- what is stored comes from what was found, and a second merge would not change it
    have hstep : ThreeWayMerge.MergesTo wanted recorded (some found.wanted)
        (some (annotations.getD ∅)) := by
      rw [hmerge]
      rcases hclaim with hwanted | rfl
      · exact .inr (.inr ⟨hwanted ▸ hne, _, rfl, hwanted ▸ rfl⟩)
      · exact .inl (congrArg some (ThreeWayMerge.merge_self _ _))
    have hmerged : claim.wanted = wanted →
        ThreeWayMerge.Merged wanted recorded (some (annotations.getD ∅)) := by
      rintro rfl
      refine ⟨_, rfl, fun _ => ?_⟩
      rw [hmerge]
      exact ThreeWayMerge.merge_merge _ _ _
    refine Triple.bind (Q := fun _ => Visits wanted recorded w₀ visited claim)
      (clientUpdate_triple (fun w w' ht hw => ?_) (fun w stored hw hstored hsame => ?_)
        (fun w stored hw _ => ?_) (fun _ hw => hw.1.1) fun _ _ hw => hw.1)
      fun _ => triple_pure fun _ hw => hw
    · exact ⟨⟨Managing.stable _ _ ht hw.1.1, (ht.get? (Set.notMem_empty _)).trans hw.1.2⟩, hw.2⟩
    · refine ⟨hw.1.1, fun hwanted => ?_⟩
      have hget : w.annotationsOf claim.metadata.name = some (annotations.getD ∅) := by
        rw [← hname, World.annotationsOf]
        refine (congrArg _ hstored).trans ?_
        rw [← hsame]
        rfl
      exact hget ▸ hmerged hwanted
    · have hget := hthere hw.1.2
      rw [← hname] at hget
      let updated : PersistentVolumeClaim :=
        { found with metadata := { found.metadata with annotations := annotations } }
      refine ⟨hw.1.1.store updated (hget ▸ hstep), fun hwanted => ?_⟩
      rw [← hname]
      exact (annotationsOf_store_self w updated).symm ▸ hmerged hwanted
  · rintro rfl
    exact ⟨_, hthere hw.1.2, fun hne => absurd hne (of_decide_eq_false heq)⟩

/-- **Creating or updating a claim**: one that is made for the custom resource, or one that is
there. -/
theorem createPersistentVolumeClaim_managing (claim : PersistentVolumeClaim) :
    Triple (fun w => Managing wanted previous w₀ visited w ∧ (claim.wanted = wanted ∨
        w.get? .persistentVolumeClaim claim.metadata.name = some claim))
      (createPersistentVolumeClaim claim) (fun _ => Visits wanted previous w₀ visited claim)
      fun _ => Managing wanted previous w₀ visited := by
  have hstable : Stable fun w => Managing wanted previous w₀ visited w ∧ (claim.wanted = wanted ∨
      w.get? .persistentVolumeClaim claim.metadata.name = some claim) := fun w w' ht hw =>
    ⟨Managing.stable _ _ ht hw.1, hw.2.imp_right fun h => (ht.get? (Set.notMem_empty _)).trans h⟩
  have hnote (w : World) : Touches ({.claimed} : Set Field) w _ :=
    noteClaim_touches claim.metadata.name (Set.mem_singleton _) w
  refine ((findObject_triple hstable .persistentVolumeClaim claim.metadata.name).conseq
    (fun _ h => h) (fun _ _ h => h) fun _ _ h => h.1).bind fun found => ?_
  rcases found with - | found
  · -- a claim that is missing was not found, so it was built with the wanted annotations
    refine Triple.of_fact (c := claim.wanted = wanted) (fun w hw => ?_) ?_
    · rcases hw.1.2 with hwanted | hthere
      · exact hwanted
      · cases hw.2.symm.trans hthere
    rintro rfl
    refine Triple.bind (Q := fun _ => Visits claim.wanted previous w₀ visited claim)
      (clientCreate_triple (fun w w' ht hw => ⟨hstable w w' ht hw.1,
          (ht.get? (Set.notMem_empty _)).trans hw.2⟩)
        (fun w hw hnone => ⟨hw.1.1.store claim (.inr (.inl ⟨?_, rfl⟩)), fun _ => ?_⟩)
        (fun _ hw => hw.1.1) fun _ _ hw => hw.1) fun _ => triple_update fun w hw => ?_
    · exact congrArg _ hw.2
    · rw [annotationsOf_store_self]
      exact ⟨_, rfl, fun _ => ThreeWayMerge.merge_self _ _⟩
    · exact ⟨hw.1.of_touches (hnote w) (by simp) (by simp), hw.2⟩
  · refine Triple.of_fact (c := found.metadata.name = claim.metadata.name ∧
      (claim.wanted = wanted ∨ found = claim)) (fun w hw => ⟨Store.name_of_get? hw.2, ?_⟩) ?_
    · exact hw.1.2.imp_right fun hthere => Option.some.inj (hw.2.symm.trans hthere)
    rintro ⟨hname, hclaim⟩
    refine Triple.bind (triple_update fun w hw => ?_)
      fun _ => updatePersistentVolumeClaim_managing hname hclaim
    exact ⟨hw.1.1.of_touches (hnote w) (by simp) (by simp), hw.2⟩

/-- Steps that leave the claims alone. -/
theorem quiet_managing {α : Type} {m : Op α}
    (h : Within (Touches ZooKeeperResourceProvider.withoutClaims.fields) m) :
    Triple (Managing wanted previous w₀ visited) m (fun _ => Managing wanted previous w₀ visited)
      fun _ => Managing wanted previous w₀ visited :=
  h.triple fun _ _ hw ht => hw.withoutClaims ht

/-- The claim for snapshots or backups. -/
theorem applySnapshotsClaim_managing (storage : SnapshotStorage) (cr : ZooKeeperService) :
    Triple (Managing (claimAnnotations cr) previous w₀ visited) (applySnapshotsClaim storage cr)
      (fun _ => Managing (claimAnnotations cr) previous w₀ visited)
      fun _ => Managing (claimAnnotations cr) previous w₀ visited := by
  refine (processSnapshotsPersistentVolumeClaim_triple Managing.stable storage cr).bind
    fun claim => ?_
  rcases claim with - | claim
  · exact triple_pure fun _ hw => hw.1
  · refine (createPersistentVolumeClaim_managing claim).conseq (fun w hw => ⟨hw.1, ?_⟩)
      (fun _ _ hw => hw.1) fun _ _ hw => hw
    exact (hw.2 claim rfl).imp_left fun hmade => wanted_of_storedAnnotations hmade.annotations

end Claims

/-! ## The passes -/

namespace ZooKeeperResourceProvider

variable (p : ZooKeeperResourceProvider) {previous : StringMap} {w₀ : World}

/-- The names of the claims of some servers, where a volume, a label or a class is given. -/
def dataClaimNames (serverIds : List ℕ) : Set String :=
  {name | ∃ i ∈ serverIds, p.DataProvided i ∧ name = p.dataClaimName i}

/-- A round of the loop visits the claim of its server. -/
theorem applyServer_managing (rolling : Bool) (secret : Secret) (done : List ℕ) (i : ℕ) :
    Triple (Managing (claimAnnotations p.cr) previous w₀ (p.dataClaimNames done))
      (p.applyServer rolling secret i)
      (fun _ => Managing (claimAnnotations p.cr) previous w₀ (p.dataClaimNames (done ++ [i])))
      fun _ => Managing (claimAnnotations p.cr) previous w₀ ∅ := by
  have hquiet {α : Type} {m : Op α} {visited : Set String}
      (hm : Within (Touches withoutClaims.fields) m) :
      Triple (Managing (claimAnnotations p.cr) previous w₀ visited) m
        (fun _ => Managing (claimAnnotations p.cr) previous w₀ visited)
        fun _ => Managing (claimAnnotations p.cr) previous w₀ ∅ :=
    (quiet_managing hm).conseq (fun _ h => h) (fun _ _ h => h) fun _ _ h => h.mono (by simp)
  refine (hquiet (applyService_touches _ _)).bind fun _ => ?_
  refine Triple.bind (Q := fun claim w =>
      Managing (claimAnnotations p.cr) previous w₀ (p.dataClaimNames done) w ∧
        p.newZooKeeperPersistentVolumeClaimForCR i = .ok claim)
    (triple_build (fun _ _ hclaim hw => ⟨hw, hclaim⟩) fun _ _ hw => hw.mono (by simp))
    fun claim => Triple.of_fact (fun _ hw => hw.2) fun hbuilt => ?_
  -- the one name that is new is that of the claim built for this server
  have hnames : ∀ name ∈ p.dataClaimNames (done ++ [i]), name ∈ p.dataClaimNames done ∨
      ∃ c ∈ claim, name = c.metadata.name := by
    rintro name ⟨j, hj, hname⟩
    rcases List.mem_append.mp hj with hj | hj
    · exact .inl ⟨j, hj, hname⟩
    · obtain rfl := List.mem_singleton.mp hj
      exact .inr ((p.name_newZooKeeperPersistentVolumeClaimForCR hbuilt name).mpr hname)
  refine Triple.bind (Q := fun _ => Managing (claimAnnotations p.cr) previous w₀
    (p.dataClaimNames (done ++ [i]))) ?_ fun _ => ?_
  · rcases claim with - | claim
    · refine triple_pure fun w hw => hw.1.mono fun name hname => .inl ?_
      exact (hnames name hname).resolve_right (by rintro ⟨c, ⟨⟩, -⟩)
    · have hwanted := wanted_of_storedAnnotations
        (p.made_newZooKeeperPersistentVolumeClaimForCR hbuilt).annotations
      refine (createPersistentVolumeClaim_managing claim).conseq (fun w hw => ⟨hw.1, .inl hwanted⟩)
        (fun _ w hw => hw.1.mono fun name hname => ?_) fun _ _ hw => hw.mono (by simp)
      refine (hnames name hname).imp_right ?_
      rintro ⟨c, ⟨⟩, rfl⟩
      exact hw.2 hwanted
  refine (hquiet (createServiceAccount_touches ⟨trivial, by simp⟩)).bind fun _ => ?_
  refine (hquiet (p.applyVault_touches (owns_withoutClaims secret))).bind fun secret' => ?_
  refine (hquiet (applyDeployment_touches _ _ fun _ _ => trivial)).bind fun _ => ?_
  exact (hquiet (p.awaitServer_touches _ _)).bind fun _ => triple_pure fun _ hw => hw

/-- The apply branch visits the claims of all servers. -/
theorem apply_managing (secret : Secret) :
    Triple (Managing (claimAnnotations p.cr) previous w₀ ∅) (p.apply secret)
      (fun _ => Managing (claimAnnotations p.cr) previous w₀ (p.dataClaimNames p.serverIds))
      fun _ => Managing (claimAnnotations p.cr) previous w₀ ∅ := by
  have hquiet {α : Type} {m : Op α} (hm : Within (Touches withoutClaims.fields) m) :
      Triple (Managing (claimAnnotations p.cr) previous w₀ ∅) m
        (fun _ => Managing (claimAnnotations p.cr) previous w₀ ∅)
        fun _ => Managing (claimAnnotations p.cr) previous w₀ ∅ := quiet_managing hm
  have hnone : p.dataClaimNames [] = ∅ := by
    refine Set.eq_empty_of_forall_notMem ?_
    rintro name ⟨i, ⟨⟩, -⟩
  refine Triple.bind (Q := fun _ => Managing (claimAnnotations p.cr) previous w₀
    (p.dataClaimNames p.serverIds)) ?_ fun secret' => ?_
  · split
    · refine (Triple.whenever (fun _ => applySnapshotsClaim_managing _ _)
        fun _ _ hw => hw).bind fun _ => ?_
      refine (hquiet (applyService_touches _ _)).bind fun _ => ?_
      refine (hquiet (applyService_touches _ _)).bind fun _ => ?_
      refine (hquiet p.getCurrentDeploymentsCount_touches).bind fun currentReplicas => ?_
      refine (hquiet (p.scaleDown_touches _ fun _ _ => trivial)).bind fun _ => ?_
      refine (foldEach_triple (I := fun done _ => Managing (claimAnnotations p.cr) previous w₀
        (p.dataClaimNames done))
          (fun done i rest s _ => p.applyServer_managing _ s done i) secret).conseq
        (fun _ hw => ?_) (fun _ _ hw => hw) fun _ _ hw => hw
      rwa [hnone]
    next hR =>
      have hids : p.serverIds = [] := by
        rw [serverIds, Int.toNat_of_nonpos (not_lt.mp hR)]
        rfl
      refine triple_pure fun _ hw => ?_
      rwa [hids, hnone]
  · exact ((quiet_managing p.updateZooKeeperStatus_touches).conseq (fun _ h => h) (fun _ _ h => h)
      fun _ _ h => h.mono (by simp)).bind fun _ => triple_pure fun _ hw => hw

/-- **The pass of ZooKeeper** visits the claims of all servers, unless the hash of the global
section is the remembered one. -/
theorem reconcile_managing (remembered : Option Digest) :
    Triple (fun w => Managing (claimAnnotations p.cr) previous w₀ ∅ w ∧
        w.resourceHashes.lookup globalHashName = remembered ∧ GlobalHashed p.cr w) p.reconcile
      (fun _ => Managing (claimAnnotations p.cr) previous w₀
        {name | remembered ≠ some (.global p.cr.spec.global) ∧ name ∈ p.dataClaimNames p.serverIds})
      fun _ => Managing (claimAnnotations p.cr) previous w₀ ∅ := by
  have hquiet {α : Type} {m : Op α} {visited : Set String}
      (hm : Within (Touches withoutClaims.fields) m) :
      Triple (Managing (claimAnnotations p.cr) previous w₀ visited) m
        (fun _ => Managing (claimAnnotations p.cr) previous w₀ visited)
        fun _ => Managing (claimAnnotations p.cr) previous w₀ ∅ :=
    (quiet_managing hm).conseq (fun _ h => h) (fun _ _ h => h) fun _ _ h => h.mono (by simp)
  refine Triple.bind
    (Triple.bind (Q := fun _ w => Managing (claimAnnotations p.cr) previous w₀ ∅ w ∧
    w.resourceHashes.lookup globalHashName = remembered ∧ GlobalHashed p.cr w) ?_ fun secret => ?_)
    fun secret => hquiet (remember_touches _ trivial fun s _ => owns_withoutClaims s)
  · refine ((watchOwnSecret_writes (T := {.object .secret p.spec.secretName}) p.cr
      ⟨rfl, by simp⟩).triple fun w w' hw ht => ?_).conseq (fun _ h => h) (fun _ _ h => h)
      fun _ _ h => h.1
    exact ⟨hw.1.of_touches ht (by simp) (by simp),
      Eq.trans (ht.same (.recordedHash globalHashName) (by simp)) hw.2.1,
      hw.2.2.of_touches ht (by simp)⟩
  refine (testChanged_triple (T := Managing (claimAnnotations p.cr) previous w₀ ∅)
    (F := Managing (claimAnnotations p.cr) previous w₀
      {name | remembered ≠ some (.global p.cr.spec.global) ∧ name ∈ p.dataClaimNames p.serverIds})
    (fun w hw _ => { hw.1 with }) fun w hw hsame => ?_).bind fun isChanged => ?_
  · -- both parts of the test that concern the hash of the global section agree
    simp only [changed, Bool.or_eq_false_iff, ne_eq, decide_eq_false_iff_not, not_not] at hsame
    have hhash : remembered = some (.global p.cr.spec.global) :=
      hw.2.1.symm.trans (hsame.1.2.trans hw.2.2)
    exact { hw.1 with merged := fun name hname => absurd hhash hname.1 }
  refine Triple.bind (Q := fun _ => Managing (claimAnnotations p.cr) previous w₀
      {name | remembered ≠ some (.global p.cr.spec.global) ∧
        name ∈ p.dataClaimNames p.serverIds}) ?_
    fun secret' => (hquiet (p.markRestarts_touches _ fun _ => trivial)).bind fun _ =>
      triple_pure fun _ hw => hw
  cases isChanged with
  | true =>
    exact (p.apply_managing secret).conseq (fun _ h => h)
      (fun _ _ h => h.mono fun name hname => .inl hname.2) fun _ _ h => h
  | false => exact triple_pure fun _ hw => hw

end ZooKeeperResourceProvider

/-- The pass of the backup daemon. -/
theorem BackupDaemonResourceProvider.reconcile_managing (p : BackupDaemonResourceProvider)
    {previous : StringMap} {w₀ : World} {visited : Set String} :
    Triple (Managing (claimAnnotations p.cr) previous w₀ visited) p.reconcile
      (fun _ => Managing (claimAnnotations p.cr) previous w₀ visited)
      fun _ => Managing (claimAnnotations p.cr) previous w₀ visited := by
  have hquiet {α : Type} {m : Op α}
      (hm : Within (Touches ZooKeeperResourceProvider.withoutClaims.fields) m) :
      Triple (Managing (claimAnnotations p.cr) previous w₀ visited) m
        (fun _ => Managing (claimAnnotations p.cr) previous w₀ visited)
        fun _ => Managing (claimAnnotations p.cr) previous w₀ visited := quiet_managing hm
  have howns := ZooKeeperResourceProvider.owns_withoutClaims
  refine (hquiet (watchOwnSecret_touches p.cr trivial)).bind fun secret => ?_
  refine (hquiet (watchOtherSecret_touches p.cr fun _ _ => trivial)).bind fun s3Secret => ?_
  refine (hquiet p.findS3Aliases_touches).bind fun s3AliasesSecret => ?_
  refine (hquiet (testChanged_touches (howns secret).nonempty _ _ _)).bind fun isChanged => ?_
  refine Triple.bind (Q := fun _ => Managing (claimAnnotations p.cr) previous w₀ visited) ?_
    fun secret' => ?_
  · split
    · refine (Triple.whenever (fun _ => applySnapshotsClaim_managing _ _)
        fun _ _ hw => hw).bind fun _ => ?_
      refine (hquiet (applyService_touches _ _)).bind fun _ => ?_
      refine (hquiet (createServiceAccount_touches ⟨trivial, by simp⟩)).bind fun _ => ?_
      refine (hquiet (p.applyVault_touches (howns secret))).bind fun secret' => ?_
      refine (hquiet (applyDeployment_touches _ _ fun _ _ => trivial)).bind fun _ => ?_
      exact (hquiet p.updateBackupDaemonStatus_touches).bind fun _ => triple_pure fun _ hw => hw
    · exact triple_pure fun _ hw => hw
  · refine (hquiet (updateDeploymentSecretRestartAnnotations_touches _
      ⟨trivial, fun _ => ⟨p.getServiceName, trivial⟩⟩)).bind fun _ => ?_
    exact hquiet (remember_touches _ trivial fun s _ => howns s)

/-- The other passes make no difference to what has been visited. -/
theorem otherReconcilers_managing {cr : ZooKeeperService} {r : Reconciler}
    (hr : r ∈ otherReconcilers cr) {previous : StringMap} {w₀ : World} {visited : Set String} :
    Triple (Managing (claimAnnotations cr) previous w₀ visited) r.reconcile
      (fun _ => Managing (claimAnnotations cr) previous w₀ visited)
      fun _ => Managing (claimAnnotations cr) previous w₀ visited := by
  simp only [otherReconcilers, List.mem_append, Option.mem_toList, Option.map_eq_some_iff] at hr
  rcases hr with (⟨q, hq, rfl⟩ | ⟨q, hq, rfl⟩) | ⟨tests, -, rfl⟩
  · exact q.reconcile_touches.triple fun w w' hw ht => hw.of_touches ht (fun _ => id) id
  · obtain rfl := cr_of_backupDaemonProvider? hq
    exact q.reconcile_managing
  · exact triple_pure fun _ hw => hw

/-! ## The call -/

/-- The claims have been visited, and the record in memory has been replaced; the stored one may
have been, too. -/
structure Recording (wanted previous : StringMap) (w₀ : World) (visited : Set String) (w : World) :
    Prop where
  claims : ∀ n, ThreeWayMerge.MergesTo wanted previous (w₀.annotationsOf n) (w.annotationsOf n)
  merged : ∀ n ∈ visited, ThreeWayMerge.Merged wanted previous (w.annotationsOf n)
  recorded : w.status.pvcAnnotations = wanted
  stored : w.storedStatus.pvcAnnotations = previous ∨ w.storedStatus.pvcAnnotations = wanted

section Call

variable {wanted previous : StringMap} {w₀ w w' : World} {visited : Set String}

/-- A record that was written stays while it is not touched. -/
theorem Recording.of_touches {T : Set Field} (h : Recording wanted previous w₀ visited w)
    (ht : Touches T w w') (hclaims : ∀ n, .object .persistentVolumeClaim n ∉ T)
    (hstored : .storedAnnotations ∉ T) : Recording wanted previous w₀ visited w' := by
  have hsame : ∀ n, w'.annotationsOf n = w.annotationsOf n := fun n =>
    annotationsOf_congr (ht.get? (hclaims n))
  obtain ⟨hrecorded, hlast⟩ := ht.same .storedAnnotations hstored
  refine ⟨fun n => hsame n ▸ h.claims n, fun n hn => hsame n ▸ h.merged n hn,
    hrecorded.trans h.recorded, ?_⟩
  rcases hlast with hlast | hlast
  · rw [hlast]
    exact h.stored
  · exact .inr (hlast.trans h.recorded)

/-- Storing the status, when there is a custom resource to store it in. -/
theorem statusUpdate_triple {P E : World → Prop} {Q : World → Prop} (hP : Stable P)
    (h : ∀ w, P w → Q { w with storedStatus := w.status }) (hPE : ∀ w, P w → E w)
    (hQE : ∀ w, Q w → E w) : Triple P statusUpdate (fun _ => Q) fun _ => E := by
  refine request_triple hP (fun w hw => ?_) hPE fun _ w hw => hQE w hw
  rcases hcr : w.cr with - | cr
  · exact hPE w hw
  · simpa only [hcr] using h w hw

/-- Writing the record. -/
theorem updateStatus_recording (cr : ZooKeeperService) :
    Triple (Managing (claimAnnotations cr) previous w₀ visited) (updateStatus cr)
      (fun _ w => Recording (claimAnnotations cr) previous w₀ visited w ∧
        w.storedStatus.pvcAnnotations = claimAnnotations cr)
      fun _ w => Managing (claimAnnotations cr) previous w₀ ∅ w ∨
        Recording (claimAnnotations cr) previous w₀ visited w := by
  refine Triple.bind (Q := fun global w => Managing (claimAnnotations cr) previous w₀ visited w ∧
      claimAnnotations cr = global.pvcAnnotations)
    (triple_build (fun _ _ hg hw => ⟨hw, claimAnnotations_eq hg⟩) fun _ _ hw =>
    .inl (hw.mono (by simp)))
    fun global => Triple.of_fact (fun _ hw => hw.2) fun hglobal => ?_
  rw [← hglobal]
  refine Triple.bind (Q := fun recorded w => Managing (claimAnnotations cr) previous w₀ visited w ∧
      recorded = previous) (triple_observe fun w hw => ⟨hw.1, hw.1.recorded⟩)
    fun recorded => Triple.of_fact (fun _ hw => hw.2) ?_
  rintro rfl
  refine Triple.whenever (fun _ => ?_) fun heq w hw => ?_
  · refine Triple.bind (Q := fun _ => Recording (claimAnnotations cr) recorded w₀ visited)
      (triple_update fun w hw => ⟨hw.1.claims, hw.1.merged, rfl, .inl hw.1.stored⟩) fun _ => ?_
    refine statusUpdate_triple (fun w w' ht hw => hw.of_touches ht (fun _ => Set.notMem_empty _)
      (Set.notMem_empty _)) (fun w hw => ?_) (fun _ hw => .inr hw) fun _ hw => .inr hw.1
    exact ⟨⟨hw.claims, hw.merged, hw.recorded, .inr hw.recorded⟩, hw.recorded⟩
  · have hsame : recorded = claimAnnotations cr := not_not.mp (of_decide_eq_false heq)
    exact ⟨⟨hw.1.claims, hw.1.merged, hw.1.recorded.trans hsame, .inl hw.1.stored⟩,
      hw.1.stored.trans hsame⟩

end Call

/-- No component remembers the hash of the global section. -/
theorem globalHash_notMem_footprint (r : Reconciler) :
    .recordedHash globalHashName ∉ r.footprint.fields := by
  cases r with
  | zooKeeper p => exact show globalHashName ≠ hashName .zooKeeper by decide
  | monitoring p => exact show globalHashName ≠ hashName .monitoring by decide
  | backupDaemon p => exact show globalHashName ≠ hashName .backupDaemon by decide
  | integrationTests tests => exact Set.notMem_empty globalHashName

namespace ZooKeeperResourceProvider

variable (p : ZooKeeperResourceProvider)

/-- The names of the claims that a call visits for certain: those of all servers, unless the hash
of the global section is the remembered one. -/
def visitedNames (w₀ : World) : Set String :=
  {name | w₀.resourceHashes.lookup globalHashName ≠ some (.global p.cr.spec.global) ∧
    name ∈ p.dataClaimNames p.serverIds}

/-- What a call of `Reconcile` that returns nil does to the claims. -/
structure CallManaged (w₀ w : World) : Prop where
  claims : ∀ n, ThreeWayMerge.MergesTo (claimAnnotations p.cr) w₀.storedStatus.pvcAnnotations
    (w₀.annotationsOf n) (w.annotationsOf n)
  merged : ∀ n ∈ p.visitedNames w₀, ThreeWayMerge.Merged (claimAnnotations p.cr)
    w₀.storedStatus.pvcAnnotations (w.annotationsOf n)
  stored : w.storedStatus.pvcAnnotations = claimAnnotations p.cr
  hash : w.resourceHashes.lookup globalHashName = some (.global p.cr.spec.global)

/-- What a call that fails does to them: the record is replaced only after the visits. -/
structure CallBroken (w₀ w : World) : Prop where
  claims : ∀ n, ThreeWayMerge.MergesTo (claimAnnotations p.cr) w₀.storedStatus.pvcAnnotations
    (w₀.annotationsOf n) (w.annotationsOf n)
  stored : w.storedStatus.pvcAnnotations = w₀.storedStatus.pvcAnnotations ∨
    w.storedStatus.pvcAnnotations = claimAnnotations p.cr ∧
      ∀ n ∈ p.visitedNames w₀, ThreeWayMerge.Merged (claimAnnotations p.cr)
        w₀.storedStatus.pvcAnnotations (w.annotationsOf n)
  hash : w.resourceHashes.lookup globalHashName = w₀.resourceHashes.lookup globalHashName

/-- **A call of `Reconcile`**, and the claims. -/
theorem controller_managing (w₀ : World) :
    Triple (fun w => w.cr = some p.cr ∧ w = w₀) Operator.reconcile (fun _ => p.CallManaged w₀)
      fun _ => p.CallBroken w₀ := by
  let wanted := claimAnnotations p.cr
  let previous := w₀.storedStatus.pvcAnnotations
  let Hashed (w : World) := w.resourceHashes.lookup globalHashName =
    w₀.resourceHashes.lookup globalHashName
  -- the first pass is that of ZooKeeper, so after any pass the claims have been visited
  let I (done : List Reconciler) (w : World) := Managing wanted previous w₀
    {name | done ≠ [] ∧ name ∈ p.visitedNames w₀} w ∧ Hashed w
  -- after an error: the record is replaced only when the claims have been visited
  let E (w : World) := (Managing wanted previous w₀ ∅ w ∨
    Recording wanted previous w₀ (p.visitedNames w₀) w) ∧ Hashed w
  let U (w : World) := (Recording wanted previous w₀ (p.visitedNames w₀) w ∧
    w.storedStatus.pvcAnnotations = wanted) ∧ Hashed w
  have hhashed {T : Set Field} {w w' : World} (hw : Hashed w) (ht : Touches T w w')
      (hT : .recordedHash globalHashName ∉ T) : Hashed w' :=
    Eq.trans (ht.same (.recordedHash globalHashName) hT) hw
  have hfetch : Triple (fun w => ∃ faults, w = { w₀ with faults := faults }) getInstance
      (fun _ => I []) fun _ => p.CallBroken w₀ := by
    have hbroken : ∀ w, (∃ faults, w = { w₀ with faults := faults }) → p.CallBroken w₀ w := by
      rintro _ ⟨faults, rfl⟩
      exact ⟨fun _ => .refl _, .inl rfl, rfl⟩
    refine request_triple_of_faults ?_ (fun w hw => ?_) hbroken fun _ w hw =>
      ⟨hw.1.claims, .inl hw.1.stored, hw.2⟩
    · rintro _ faults - ⟨_, rfl⟩
      exact ⟨faults, rfl⟩
    · obtain ⟨faults, rfl⟩ := hw
      rcases hcr : w₀.cr with - | cr
      · simpa only [hcr] using hbroken { w₀ with faults := faults } ⟨faults, rfl⟩
      · exact ⟨⟨fun _ => .refl _, by simp, rfl, rfl⟩, rfl⟩
  have hpass : ∀ done r rest, buildReconcilers p.cr = done ++ r :: rest →
      Triple (fun w => I done w ∧ GlobalHashed p.cr w) r.reconcile (fun _ => I (done ++ [r]))
        fun _ => E := by
    intro done r rest hlist
    have hhash := r.reconcile_touches.triple fun w w' (hw : Hashed w) ht => hhashed hw ht
      (globalHash_notMem_footprint r)
    rw [buildReconcilers_eq p] at hlist
    rcases done with - | ⟨first, done⟩
    · obtain ⟨rfl, -⟩ := List.cons.inj hlist
      refine ((p.reconcile_managing (w₀.resourceHashes.lookup globalHashName)).and hhash).conseq
        (fun w hw => ⟨⟨hw.1.1.mono (by simp), hw.1.2, hw.2⟩, hw.1.2⟩) (fun _ w hw => ?_)
        fun _ w hw => ⟨.inl hw.1, hw.2⟩
      exact ⟨hw.1.mono fun name hname => .inl hname.2, hw.2⟩
    · obtain ⟨-, hlist⟩ := List.cons.inj hlist
      have hr : r ∈ otherReconcilers p.cr := hlist ▸ List.mem_append_right _ (List.mem_cons_self ..)
      refine ((otherReconcilers_managing hr).and hhash).conseq (fun w hw => hw.1) (fun _ w hw => ?_)
        fun _ w hw => ⟨.inl (hw.1.mono (by simp)), hw.2⟩
      exact ⟨hw.1.mono fun name hname => .inl ⟨by simp, hname.2⟩, hw.2⟩
  have hstatus : Triple (I (buildReconcilers p.cr)) (updateStatus p.cr) (fun _ => U)
    fun _ => E := by
    have hhash := (updateStatus_touches (T := statusFields) p.cr (by simp [statusFields])
      (by simp [statusFields])).triple fun w w' (hw : Hashed w) ht => hhashed hw ht
        (by simp [statusFields])
    refine ((updateStatus_recording p.cr).and hhash).conseq (fun w hw => ⟨hw.1.mono ?_, hw.2⟩)
      (fun _ _ hw => hw) fun _ _ hw => hw
    exact fun name hname => .inl ⟨by simp [buildReconcilers_eq p], hname⟩
  refine (reconcile_triple_staged (I := I) (U := U) (E := E) hfetch (fun done w w' hw ht => ?_)
    (fun w w' hw ht => ?_) (fun done w hw => ⟨.inl (hw.1.mono (by simp)), hw.2⟩) hpass hstatus
    (fun w w' hw ht => ?_) (fun w hw => ⟨.inr hw.1.1, hw.2⟩) (fun w hw => ?_)
    fun w hw => ?_).conseq (fun w hw => ⟨hw.1, w.faults, hw.2 ▸ rfl⟩) (fun _ _ h => h)
    fun _ _ h => h
  · exact ⟨hw.1.of_touches ht (by simp) (by simp), hhashed hw.2 ht (by simp)⟩
  · exact ⟨hw.1.imp (fun h => h.of_touches ht (by simp) (by simp))
      fun h => h.of_touches ht (by simp) (by simp), hhashed hw.2 ht (by simp)⟩
  · have hkept := hw.1.1.of_touches ht (by simp) (by simp)
    refine ⟨⟨hkept, ?_⟩, hhashed hw.2 ht (by simp)⟩
    -- storing the status again stores the same record
    obtain ⟨-, hlast⟩ := ht.same .storedAnnotations (by simp)
    exact hlast.elim (fun h => h.trans hw.1.2) fun h => h.trans hw.1.1.recorded
  · rcases hw.1 with h | h
    · exact ⟨h.claims, .inl h.stored, hw.2⟩
    · exact ⟨h.claims, h.stored.imp_right fun hstored => ⟨hstored, h.merged⟩, hw.2⟩
  · exact ⟨hw.1.1.claims, hw.1.1.merged, hw.1.2, Finmap.lookup_insert _⟩

end ZooKeeperResourceProvider

end QubershipZookeeper.Operator
