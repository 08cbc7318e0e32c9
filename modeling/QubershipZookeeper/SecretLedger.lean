import QubershipZookeeper.WatchedSecrets
import QubershipZookeeper.HashGate

/-!
# The ledger of Secret versions

Every component tests the versions of its Secrets against the remembered ones, and goes through
its apply branch — with Vault on, also through `processVaultSecrets` — when one of them is new.
A version makes its **passage** that way. This module shows that whatever a component remembers
has made its passage, wherever its pass breaks off (`Reconciler.reconcile_books`).

The versions are remembered in one map for all components, under the name of the Secret. So this
takes that no two components have a Secret of the same name in their change tests.
-/

namespace QubershipZookeeper.Operator

open Proc

/-! ## The ledger -/

/-- The own Secret of a component. -/
def ZooKeeperService.ownSecretName (cr : ZooKeeperService) : Component → Option String
  | .zooKeeper => cr.spec.zooKeeper.map (·.secretName)
  | .monitoring => cr.spec.monitoring.map (·.secretName)
  | .backupDaemon => cr.spec.backupDaemon.map (·.secretName)

/-- The version has been through the apply branch of the component; the version of the
component's own Secret, with Vault on, also through `processVaultSecrets`. -/
structure Passage.Through (cr : ZooKeeperService) (π : Passage) (w : World) : Prop where
  applied : π ∈ w.applied
  vaulted : cr.vault?.isSome = true → cr.ownSecretName π.component = some π.secret → π ∈ w.vaulted

/-- What a component remembers has made its passage. -/
def Recorded (cr : ZooKeeperService) (c : Component) (names : List String) (w : World) : Prop :=
  ∀ n ∈ names, n ≠ "" → ∀ v, w.resourceVersions.lookup n = some v →
    Passage.Through cr ⟨c, n, v⟩ w

/-- What the running call has tested has made its passage. -/
def TestedThrough (cr : ZooKeeperService) (w : World) : Prop := ∀ π ∈ w.tested, π.Through cr w

variable {cr : ZooKeeperService} {c : Component} {names : List String}
  {w w' : World} {T : Set Field}

/-- A passage that was made stays made: the records of the branches only grow. -/
theorem Passage.Through.of_subset {π : Passage} (h : π.Through cr w)
    (happlied : w.applied ⊆ w'.applied) (hvaulted : w.vaulted ⊆ w'.vaulted) : π.Through cr w' where
  applied := happlied h.applied
  vaulted hon hown := hvaulted (h.vaulted hon hown)

theorem Passage.Through.of_evolves {π : Passage} (h : π.Through cr w) (hw : Evolves w w') :
    π.Through cr w' :=
  h.of_subset hw.applied hw.vaulted

/-- What the books say is kept by every step that leaves the versions of these Secrets alone. -/
theorem Recorded.of_touches (h : Recorded cr c names w) (ht : Touches T w w')
    (hT : ∀ n ∈ names, n ≠ "" → .recordedVersion n ∉ T) : Recorded cr c names w' := by
  intro n hn hne v hv
  rw [show w'.resourceVersions.lookup n = w.resourceVersions.lookup n from
    ht.same _ (hT n hn hne)] at hv
  exact (h n hn hne v hv).of_evolves ht.evolves

/-- The same for the versions that were tested. -/
theorem TestedThrough.of_touches (h : TestedThrough cr w) (ht : Touches T w w') (hT : .tested ∉ T) :
    TestedThrough cr w' := by
  intro π hπ
  rw [show w'.tested = w.tested from ht.same _ hT] at hπ
  exact (h π hπ).of_evolves ht.evolves

/-! ### The stations of a pass -/

/-- At any time: what is remembered has made its passage. -/
structure Accounted (cr : ZooKeeperService) (c : Component) (names : List String) (w : World) :
    Prop where
  recorded : Recorded cr c names w
  versioned : w.Versioned

/-- Between the passes: what has been tested has made its passage as well. -/
structure Ledger (cr : ZooKeeperService) (c : Component) (names : List String) (w : World) :
    Prop extends Accounted cr c names w where
  tested : TestedThrough cr w

/-- Before the credentials step: the Secrets in hand are in the apply branch. -/
structure Entered (cr : ZooKeeperService) (c : Component) (names : List String)
    (secrets : List (Option Secret)) (w : World) : Prop extends Accounted cr c names w where
  tested : ∀ π ∈ w.tested, π.Through cr w ∨ π ∈ passagesOf c secrets
  applied : passagesOf c secrets ⊆ w.applied

/-- Afterwards: the Secrets in hand have made their passage. -/
structure Passed (cr : ZooKeeperService) (c : Component) (names : List String)
    (secrets : List (Option Secret)) (w : World) : Prop extends Ledger cr c names w where
  through : ∀ π ∈ passagesOf c secrets, π.Through cr w

theorem Accounted.of_touches (h : Accounted cr c names w) (ht : Touches T w w')
    (hT : ∀ n ∈ names, n ≠ "" → .recordedVersion n ∉ T) : Accounted cr c names w' :=
  ⟨h.recorded.of_touches ht hT, ht.evolves.versioned h.versioned⟩

theorem Ledger.of_touches (h : Ledger cr c names w) (ht : Touches T w w')
    (hT : ∀ n ∈ names, n ≠ "" → .recordedVersion n ∉ T) (htested : .tested ∉ T) :
    Ledger cr c names w' :=
  ⟨h.toAccounted.of_touches ht hT, h.tested.of_touches ht htested⟩

variable {secrets : List (Option Secret)}

theorem Entered.of_touches (h : Entered cr c names secrets w) (ht : Touches T w w')
    (hT : ∀ n ∈ names, n ≠ "" → .recordedVersion n ∉ T) (htested : .tested ∉ T) :
    Entered cr c names secrets w' where
  toAccounted := h.toAccounted.of_touches ht hT
  tested π hπ := by
    rw [show w'.tested = w.tested from ht.same _ htested] at hπ
    exact (h.tested π hπ).imp_left fun h => h.of_evolves ht.evolves
  applied := List.Subset.trans h.applied ht.evolves.applied

theorem Passed.of_touches (h : Passed cr c names secrets w) (ht : Touches T w w')
    (hT : ∀ n ∈ names, n ≠ "" → .recordedVersion n ∉ T) (htested : .tested ∉ T) :
    Passed cr c names secrets w' where
  toLedger := h.toLedger.of_touches ht hT htested
  through π hπ := (h.through π hπ).of_evolves ht.evolves

/-- What has passed was entered before. -/
theorem Passed.entered (h : Passed cr c names secrets w) : Entered cr c names secrets w where
  toAccounted := h.toAccounted
  tested π hπ := .inl (h.tested π hπ)
  applied π hπ := (h.through π hπ).applied

/-- With Vault off the apply branch is all there is. -/
theorem Entered.passed (h : Entered cr c names secrets w) (hoff : cr.vault? = none) :
    Passed cr c names secrets w := by
  have hthrough : ∀ π ∈ passagesOf c secrets, π.Through cr w := fun π hπ =>
    ⟨h.applied hπ, fun hon => by rw [hoff] at hon; cases hon⟩
  exact ⟨⟨h.toAccounted, fun π hπ => (h.tested π hπ).elim id (hthrough π)⟩, hthrough⟩

/-- The passages that a change test asks for: one for each Secret with a name. -/
theorem mem_passagesOf {π : Passage} : π ∈ passagesOf c secrets ↔
    ∃ s, some s ∈ secrets ∧ s.metadata.name ≠ "" ∧
      π = ⟨c, s.metadata.name, s.metadata.resourceVersion⟩ := by
  simp only [passagesOf, List.mem_flatMap]
  constructor
  · rintro ⟨- | s, hs, hπ⟩
    · cases hπ
    · simp only [Option.elim_some, passageOf] at hπ
      split at hπ
      · cases hπ
      · exact ⟨s, hs, ‹_›, List.mem_singleton.mp hπ⟩
  · rintro ⟨s, hs, hne, rfl⟩
    exact ⟨some s, hs, by simp [passageOf, hne]⟩

/-! ### The change test -/

/-- A version that looks old is the remembered one. -/
theorem lookup_of_not_changed {digest : Digest} {s : Secret} (hs : some s ∈ secrets)
    (hne : s.metadata.name ≠ "") (hpos : 0 < s.metadata.resourceVersion)
    (h : changed c digest secrets w = false) :
    w.resourceVersions.lookup s.metadata.name = some s.metadata.resourceVersion := by
  simp only [changed, Bool.or_eq_false_iff, List.any_eq_false] at h
  have hsame := h.2 _ hs
  simp only [secretVersionChanged, Bool.and_eq_true, decide_eq_true_eq, not_and, not_not] at hsame
  have hget := hsame hne
  rcases hlookup : w.resourceVersions.lookup s.metadata.name with - | v <;> rw [hlookup] at hget
  · exact absurd hget hpos.ne
  · exact congrArg some hget

/-- The first Secret in hand is the own one, if it is there, and the others are not. -/
structure OwnFirst (own : String) (secret : Secret) (others : List (Option Secret)) : Prop where
  first : secret.metadata.name ≠ "" → secret.metadata.name = own
  rest : ∀ s, some s ∈ others → s.metadata.name ≠ own

/-- Before the credentials step of a component. -/
def Before (cr : ZooKeeperService) (c : Component) (own : String) (names : List String)
    (others : List (Option Secret)) (secret : Secret) (w : World) : Prop :=
  OwnFirst own secret others ∧ Entered cr c names (some secret :: others) w

/-- After the credentials step of a component. -/
def After (cr : ZooKeeperService) (c : Component) (own : String) (names : List String)
    (others : List (Option Secret)) (secret : Secret) (w : World) : Prop :=
  OwnFirst own secret others ∧ Passed cr c names (some secret :: others) w

/-- The Secrets that go into the change test are stored ones, under the names of the component. -/
def Stored (names : List String) (secrets : List (Option Secret)) (w : World) : Prop :=
  ∀ s, some s ∈ secrets → s.metadata.name ≠ "" →
    s.metadata.name ∈ names ∧ w.get? .secret s.metadata.name = some s

/-- A test enters the versions of its Secrets, and if it says that nothing has changed they had
passed before. -/
theorem testChanged_enters {own : String} {secret : Secret} {others : List (Option Secret)}
    (digest : Digest) {P : World → Prop}
    (hP : ∀ w, P w → OwnFirst own secret others ∧ Stored names (some secret :: others) w) :
    Triple (fun w => P w ∧ Ledger cr c names w) (testChanged c digest (some secret :: others))
      (fun isChanged w => if isChanged then Before cr c own names others secret w
        else After cr c own names others secret w) fun _ => Accounted cr c names := by
  refine testChanged_triple (fun w hw _ => ?_) fun w hw hsame => ?_
  · have hgrown (π : Passage) (h : π.Through cr w) : π.Through cr { w with
        tested := passagesOf c (some secret :: others) ++ w.tested
        applied := passagesOf c (some secret :: others) ++ w.applied } :=
      h.of_subset (List.subset_append_right _ _) (List.Subset.refl _)
    refine ⟨(hP w hw.1).1, ⟨fun n hn hne v hv => hgrown _ (hw.2.recorded n hn hne v hv),
      hw.2.versioned⟩, fun π hπ => ?_, List.subset_append_left _ _⟩
    rcases List.mem_append.mp hπ with hπ | hπ
    · exact .inr hπ
    · exact .inl (hgrown π (hw.2.tested π hπ))
  · -- what looks old has made its passage when it was remembered
    have hthrough : ∀ π ∈ passagesOf c (some secret :: others), π.Through cr w := by
      intro π hπ
      obtain ⟨s, hs, hne, rfl⟩ := mem_passagesOf.mp hπ
      obtain ⟨hname, hstored⟩ := (hP w hw.1).2 s hs hne
      exact hw.2.recorded _ hname hne _
        (lookup_of_not_changed hs hne (hw.2.versioned _ _ hstored).1 hsame)
    have hkept (π : Passage) (h : π.Through cr w) : π.Through cr { w with
        tested := passagesOf c (some secret :: others) ++ w.tested } := ⟨h.applied, h.vaulted⟩
    refine ⟨(hP w hw.1).1, ⟨⟨fun n hn hne v hv => hkept _ (hw.2.recorded n hn hne v hv),
      hw.2.versioned⟩, fun π hπ => ?_⟩, fun π hπ => hkept π (hthrough π hπ)⟩
    exact hkept π ((List.mem_append.mp hπ).elim (hthrough π) (hw.2.tested π))

/-! ### The credentials step -/

/-- The passage through `processVaultSecrets`, up to the cleaning. -/
theorem Entered.vaulted {own : String} {secret : Secret} {others : List (Option Secret)}
    (h : Entered cr c names (some secret :: others) w) (hown : cr.ownSecretName c = some own)
    (hfirst : OwnFirst own secret others) :
    Passed cr c names (some secret :: others)
      { w with vaulted := passageOf c secret ++ w.vaulted } := by
  have hkept (π : Passage) (h : π.Through cr w) : π.Through cr
      { w with vaulted := passageOf c secret ++ w.vaulted } :=
    h.of_subset (List.Subset.refl _) (List.subset_append_right _ _)
  have hthrough : ∀ π ∈ passagesOf c (some secret :: others), π.Through cr
      { w with vaulted := passageOf c secret ++ w.vaulted } := by
    intro π hπ
    refine ⟨h.applied hπ, fun _ hname => ?_⟩
    obtain ⟨s, hs, hne, rfl⟩ := mem_passagesOf.mp hπ
    rcases List.mem_cons.mp hs with hs | hs
    · obtain rfl := Option.some.inj hs
      exact List.mem_append_left _ (by simp [passageOf, hne])
    · exact absurd (Option.some.inj (hname.symm.trans hown)) (hfirst.rest s hs)
  exact ⟨⟨⟨fun n hn hne v hv => hkept _ (h.recorded n hn hne v hv), h.versioned⟩,
    fun π hπ => (h.tested π hπ).elim (hkept π) (hthrough π)⟩, hthrough⟩

/-- Remembering the version that the cleaning has made, which has made its passage with the one
before it. -/
theorem Passed.cleaned {secret stored : Secret} {others : List (Option Secret)}
    (h : Passed cr c names (some secret :: others) w) :
    Passed cr c names (some stored :: others) { w with
      resourceVersions :=
        w.resourceVersions.insert stored.metadata.name stored.metadata.resourceVersion
      applied := passageOf c stored ++ w.applied
      vaulted := passageOf c stored ++ w.vaulted } := by
  set t : World := { w with
    resourceVersions :=
      w.resourceVersions.insert stored.metadata.name stored.metadata.resourceVersion
    applied := passageOf c stored ++ w.applied
    vaulted := passageOf c stored ++ w.vaulted }
  have hkept (π : Passage) (h : π.Through cr w) : π.Through cr t :=
    h.of_subset (List.subset_append_right _ _) (List.subset_append_right _ _)
  have hstored : ∀ π ∈ passageOf c stored, π.Through cr t := fun π hπ =>
    ⟨List.mem_append_left _ hπ, fun _ _ => List.mem_append_left _ hπ⟩
  refine ⟨⟨⟨fun n hn hne v hv => ?_, h.versioned⟩, fun π hπ => hkept π (h.tested π hπ)⟩,
    fun π hπ => ?_⟩
  · -- the version that is remembered is the one the cleaning has made
    by_cases hname : n = stored.metadata.name
    · subst hname
      obtain rfl := Option.some.inj ((Finmap.lookup_insert _).symm.trans hv)
      exact hstored _ (by simp [passageOf, hne])
    · rw [show t.resourceVersions.lookup n = w.resourceVersions.lookup n from
        Finmap.lookup_insert_of_ne _ hname] at hv
      exact hkept _ (h.recorded n hn hne v hv)
  · rcases List.mem_append.mp
      (show π ∈ passageOf c stored ++ passagesOf c others from hπ) with hπ | hπ
    · exact hstored π hπ
    · exact hkept π (h.through π (List.mem_append_right (passageOf c secret) hπ))

/-- The new version that cleaning makes passes together with the one that came from Vault's part. -/
theorem cleanSecret_passes {own : String} {others : List (Option Secret)}
    (hown : cr.ownSecretName c = some own) (secret : Secret) :
    Triple (Before cr c own names others secret) (cleanSecret c secret)
      (After cr c own names others) fun _ => Accounted cr c names := by
  refine Triple.bind (Q := fun _ => After cr c own names others secret)
    (triple_update fun w hw => ⟨hw.1, hw.2.vaulted hown hw.1⟩) fun _ => ?_
  by_cases hneed : needToCleanSecret secret = true
  · rw [if_pos hneed]
    refine Triple.bind (Q := fun cleaned w => cleaned.metadata.name = secret.metadata.name ∧
        After cr c own names others secret w)
      (triple_build (fun cleaned w hcleaned hw => ⟨name_cleanedSecret hcleaned, hw⟩)
        fun _ _ hw => hw.2.toAccounted) fun cleaned => ?_
    -- storing the cleaned Secret touches nothing the ledger speaks about
    have hupdate : Within (Touches {.object .secret cleaned.metadata.name})
        (clientUpdate .secret cleaned) := clientUpdate_touches rfl ⟨rfl, by simp⟩
    refine Triple.bind (Q := fun stored w => OwnFirst own stored others ∧
      Passed cr c names (some secret :: others) w) ?_ fun stored => ?_
    · intro w hw
      rcases hrun : clientUpdate .secret cleaned w with ⟨stored, t⟩ | ⟨e, t⟩
      · have hname : stored.metadata.name = cleaned.metadata.name :=
          clientUpdate_yields .secret cleaned w stored t hrun
        refine ⟨⟨fun hne => ?_, hw.2.1.rest⟩, hw.2.2.of_touches (hupdate.ok hrun) ?_ ?_⟩
        · rw [hname, hw.1] at hne ⊢
          exact hw.2.1.first hne
        · simp
        · simp
      · exact hw.2.2.toAccounted.of_touches (hupdate.raised hrun) (by simp)
    · exact Triple.bind (Q := fun _ => After cr c own names others stored)
        (triple_update fun w hw => ⟨hw.1, hw.2.cleaned⟩) fun _ => triple_pure fun _ hw => hw
  · rw [if_neg hneed]
    exact triple_pure fun _ hw => hw

/-- The credentials step. -/
theorem applyVault_passes {own : String} {secret : Secret} {others : List (Option Secret)}
    {process : VaultSecretManagement → Op Secret} (hown : cr.ownSecretName c = some own)
    (hprocess : ∀ vault, LeadsTo (Touches credentialsFields) (process vault)
      (cleanSecret c secret)) :
    Triple (Before cr c own names others secret) (cr.vault?.elim (pure secret) process)
      (After cr c own names others) fun _ => Accounted cr c names := by
  refine applyVault_triple hprocess (fun w w' hw ht => ⟨hw.1, hw.2.of_touches ht ?_ ?_⟩)
    (fun w hw => hw.2.toAccounted) (fun hoff w hw => ⟨hw.1, hw.2.passed hoff⟩)
    fun _ => cleanSecret_passes hown secret
  · simp [credentialsFields]
  · simp [credentialsFields]

/-! ### Watching -/

/-- The stored Secrets. -/
def secretObjects : Set Field
  | .object .secret _ => True
  | _ => False

variable (cr c names) in
/-- Watching Secrets leaves the ledger alone. -/
theorem with_ledger {α : Type} {P : World → Prop} {m : Op α} {Q : α → World → Prop}
    (h : Triple P m Q fun _ _ => True) (ht : Within (Touches secretObjects) m) :
    Triple (fun w => P w ∧ Ledger cr c names w) m (fun a w => Q a w ∧ Ledger cr c names w)
      fun _ => Accounted cr c names :=
  (h.and (ht.triple fun _ _ hw ht => hw.of_touches ht (fun _ _ _ h => h) fun h => h)).conseq
    (fun _ h => h) (fun _ _ h => h) fun _ _ h => h.2.toAccounted

/-! ### Remembering -/

/-- A version that is remembered is one of these Secrets', or was remembered before. -/
theorem lookup_rememberedVersions_cases {versions : Finmap fun _ : String => ℕ} {n : String} {v : ℕ}
    (h : (rememberedVersions secrets versions).lookup n = some v) :
    (∃ s, some s ∈ secrets ∧ s.metadata.name = n ∧ s.metadata.resourceVersion = v) ∨
      versions.lookup n = some v := by
  induction secrets generalizing versions with
  | nil => exact .inr h
  | cons secret secrets ih =>
    rcases ih h with ⟨s, hs, hname⟩ | h
    · exact .inl ⟨s, List.mem_cons_of_mem _ hs, hname⟩
    · cases secret with
      | none => exact .inr h
      | some s =>
        by_cases hname : n = s.metadata.name
        · subst hname
          exact .inl ⟨s, List.mem_cons_self .., rfl,
            Option.some.inj ((Finmap.lookup_insert _).symm.trans h)⟩
        · exact .inr ((Finmap.lookup_insert_of_ne _ hname).symm.trans h)

/-- What is remembered at the end of an apply branch has passed it. -/
theorem remember_accounts (digest : Digest) :
    Triple (Passed cr c names secrets) (remember c digest secrets)
      (fun _ => Ledger cr c names) fun _ => Accounted cr c names := by
  refine triple_update fun w hw => ⟨⟨fun n hn hne v hv => ?_, hw.versioned⟩, fun π hπ =>
    (hw.tested π hπ).of_subset (List.Subset.refl _) (List.Subset.refl _)⟩
  refine Passage.Through.of_subset (w := w) ?_ (List.Subset.refl _) (List.Subset.refl _)
  rcases lookup_rememberedVersions_cases hv with ⟨s, hs, rfl, rfl⟩ | hv
  · exact hw.through _ (mem_passagesOf.mpr ⟨s, hs, hne, rfl⟩)
  · exact hw.recorded n hn hne v hv

/-! ### The components -/

variable {own : String} {others : List (Option Secret)}

variable (others) in
/-- Neither of the two conditions is disturbed by steps that leave the Secrets alone. -/
theorem aboutSecrets_before (secret : Secret) :
    AboutSecrets (Before cr c own names others secret) :=
  fun _ _ h ht => ⟨h.1, h.2.of_touches ht (fun _ _ hne h => h.elim hne id) Set.not_nonempty_empty⟩

theorem aboutSecrets_after (secret : Secret) : AboutSecrets (After cr c own names others secret) :=
  fun _ _ h ht => ⟨h.1, h.2.of_touches ht (fun _ _ hne h => h.elim hne id) Set.not_nonempty_empty⟩

/-- The own Secret in hand, with no further ones, or with ones that are stored. -/
theorem HoldsOwn.inHand {secret : Secret} (h : HoldsOwn own secret w) (hown : own ∈ names)
    (hothers : ∀ s, some s ∈ others → s.metadata.name ≠ own ∧ s.metadata.name ∈ names ∧
      w.get? .secret s.metadata.name = some s) :
    OwnFirst own secret others ∧ Stored names (some secret :: others) w := by
  refine ⟨⟨fun hne => (h.name_eq hne).1, fun s hs => (hothers s hs).1⟩, fun s hs hne => ?_⟩
  rcases List.mem_cons.mp hs with hs | hs
  · obtain rfl := Option.some.inj hs
    obtain ⟨hname, hstored⟩ := h.name_eq hne
    exact ⟨hname ▸ hown, hname ▸ hstored⟩
  · exact (hothers s hs).2

/-- A Secret of another component that is at hand is the stored one. -/
theorem HoldsOther.stored {secretName : Option String} {s : Secret}
    (h : HoldsOther secretName (some s) w) : w.get? .secret s.metadata.name = some s := by
  have hname := h.name_eq
  rw [hname] at h
  exact h.symm

namespace ZooKeeperResourceProvider

variable (p : ZooKeeperResourceProvider)

theorem ownSecretName_eq : p.cr.ownSecretName .zooKeeper = some p.spec.secretName :=
  congrArg (Option.map _) p.spec_eq

/-- The pass of ZooKeeper keeps its ledger. Without servers nothing would bring its Secret to Vault.
-/
theorem reconcile_ledger (hreplicas : p.cr.vault?.isSome = true → 0 < p.spec.replicas) :
    Triple (Ledger p.cr .zooKeeper [p.spec.secretName]) p.reconcile
      (fun _ => Ledger p.cr .zooKeeper [p.spec.secretName])
      fun _ => Accounted p.cr .zooKeeper [p.spec.secretName] := by
  have hwatch := with_ledger p.cr .zooKeeper [p.spec.secretName]
    (watchOwnSecret_holds p.spec.secretName p.cr)
    (watchOwnSecret_writes p.cr ⟨trivial, by simp⟩)
  refine p.reconcile_triple (fun s => aboutSecrets_before [] s)
    (fun s => aboutSecrets_after s) (fun s => aboutSecrets_after s)
    (fun s w h => ⟨h.1, h.2.entered⟩) (fun s w h => h.2.toAccounted) (fun s w h => h.2.toAccounted)
    (hwatch.conseq (fun _ h => ⟨trivial, h⟩) (fun _ _ h => h) fun _ _ h => h)
    (fun s => testChanged_enters _ fun w hw => hw.inHand (List.mem_singleton_self _) (by simp))
    (fun s => applyVault_passes p.ownSecretName_eq fun vault =>
    p.processVaultSecrets_leadsTo vault s)
    (fun s w hB hD => ?_) fun s => (remember_accounts _).conseq (fun _ h => h.2) (fun _ _ h => h)
      fun _ _ h => h
  -- without servers there is no credentials step: then Vault is off
  by_cases hpos : 0 < p.spec.replicas
  · exact hD hpos
  · refine ⟨hB.1, hB.2.passed (Option.not_isSome_iff_eq_none.mp fun hon => hpos (hreplicas hon))⟩

end ZooKeeperResourceProvider

namespace MonitoringResourceProvider

variable {p : MonitoringResourceProvider}

theorem ownSecretName_eq : p.cr.ownSecretName .monitoring = some p.spec.secretName :=
  congrArg (Option.map _) p.spec_eq

/-- The pass of Monitoring keeps its ledger, if its two Secrets have different names. -/
theorem reconcile_ledger (h : p.DistinctSecrets) :
    Triple (Ledger p.cr .monitoring (Reconciler.monitoring p).secretNames) p.reconcile
      (fun _ => Ledger p.cr .monitoring (Reconciler.monitoring p).secretNames)
      fun _ => Accounted p.cr .monitoring (Reconciler.monitoring p).secretNames := by
  set names := (Reconciler.monitoring p).secretNames with hnames
  have hown := with_ledger p.cr .monitoring names
    (watchOwnSecret_holds p.spec.secretName p.cr) (watchOwnSecret_writes p.cr ⟨trivial, by simp⟩)
  refine p.reconcile_triple (fun o s => aboutSecrets_before [o] s)
    (fun o s => aboutSecrets_after s) (fun o s w h => h.2.toAccounted)
    (fun o s w h => h.2.toAccounted)
    (hown.conseq (fun _ h => ⟨trivial, h⟩) (fun _ _ h => h) fun _ _ h => h)
    (fun s => with_ledger _ _ _ (watchOtherSecret_holds h s)
      (watchOtherSecret_writes p.cr fun _ _ => ⟨trivial, by simp⟩))
    (fun s o => testChanged_enters _ fun w hw => hw.own.inHand ?_ fun s' hs' => ?_)
    (fun o s => applyVault_passes ownSecretName_eq fun vault =>
    p.processVaultSecrets_leadsTo vault s)
    fun s o => (remember_accounts _).conseq (fun _ h => h.2) (fun _ _ h => h) fun _ _ h => h
  · exact List.mem_cons_self ..
  · obtain rfl := List.mem_singleton.mp hs'
    have hmem := hw.other.name_eq
    refine ⟨h _ hmem, ?_, hw.other.stored⟩
    exact List.mem_cons_of_mem _ (Option.mem_toList.mpr hmem)

end MonitoringResourceProvider

namespace BackupDaemonResourceProvider

variable {p : BackupDaemonResourceProvider}

theorem ownSecretName_eq : p.cr.ownSecretName .backupDaemon = some p.spec.secretName :=
  congrArg (Option.map _) p.spec_eq

/-- The pass of the backup daemon keeps its ledger, if its three Secrets have different names. -/
theorem reconcile_ledger (h : p.DistinctSecrets) :
    Triple (Ledger p.cr .backupDaemon (Reconciler.backupDaemon p).secretNames) p.reconcile
      (fun _ => Ledger p.cr .backupDaemon (Reconciler.backupDaemon p).secretNames)
      fun _ => Accounted p.cr .backupDaemon (Reconciler.backupDaemon p).secretNames := by
  set names := (Reconciler.backupDaemon p).secretNames with hnames
  have hown := with_ledger p.cr .backupDaemon names
    (watchOwnSecret_holds False h)
    (watchOwnSecret_writes p.cr ⟨trivial, by simp⟩)
  refine p.reconcile_triple (fun o a s => aboutSecrets_before [o, a] s)
    (fun o a s => aboutSecrets_after s) (fun o a s w h => h.2.toAccounted)
    (fun o a s w h => h.2.toAccounted)
    (hown.conseq (fun _ h => ⟨False.elim, h⟩) (fun _ _ h => h) fun _ _ h => h)
    (fun s => with_ledger _ _ _ (watchOtherSecret_holds False h s)
      (watchOtherSecret_writes p.cr fun _ _ => ⟨trivial, by simp⟩))
    (fun s o => with_ledger _ _ _ (findS3Aliases_holds o s) p.findS3Aliases_touches)
    (fun s o a => testChanged_enters _ fun w hw => hw.own.inHand ?_ fun s' hs' => ?_)
    (fun o a s => applyVault_passes ownSecretName_eq fun vault =>
    p.processVaultSecrets_leadsTo vault s)
    fun s o a => (remember_accounts _).conseq (fun _ h => h.2) (fun _ _ h => h) fun _ _ h => h
  · exact List.mem_cons_self ..
  · rcases List.mem_cons.mp hs' with hs' | hs'
    · subst hs'
      have hmem := hw.s3.name_eq
      exact ⟨(h.s3 _ hmem).1, List.mem_cons_of_mem _ (List.mem_append_left _
        (Option.mem_toList.mpr hmem)), hw.s3.stored⟩
    · obtain rfl := List.mem_singleton.mp hs'
      have hholds := hw.found.resolve_left (Option.some_ne_none _)
      have hname := Option.some.inj hholds.name_eq
      refine ⟨fun heq => h.aliases (hname.trans heq), ?_, hholds.stored⟩
      rw [← hname]
      exact List.mem_cons_of_mem _ (List.mem_append_right _ (List.mem_singleton_self _))

end BackupDaemonResourceProvider

/-! ## The books of all components -/

namespace Reconciler

/-- The component of a reconciler; the integration tests are none. -/
def component : Reconciler → Option Component
  | zooKeeper _ => some .zooKeeper
  | monitoring _ => some .monitoring
  | backupDaemon _ => some .backupDaemon
  | integrationTests _ => none

end Reconciler

/-- No two Secrets in the change tests of the components have the same name. -/
def ZooKeeperService.SeparateSecrets (cr : ZooKeeperService) : Prop :=
  (((buildReconcilers cr).flatMap Reconciler.secretNames).filter (· ≠ "")).Nodup

instance (cr : ZooKeeperService) : Decidable cr.SeparateSecrets :=
  inferInstanceAs (Decidable (List.Nodup _))

/-- With Vault on, ZooKeeper has servers, so that its apply branch has a credentials step. -/
def ZooKeeperService.ServersWithVault (cr : ZooKeeperService) : Prop :=
  cr.vault?.isSome = true → ∀ z ∈ cr.spec.zooKeeper, 0 < z.replicas

instance (cr : ZooKeeperService) : Decidable cr.ServersWithVault :=
  inferInstanceAs (Decidable (_ → _))

/-- Within one component the names are different. -/
theorem ZooKeeperService.SeparateSecrets.distinct {r : Reconciler} (h : cr.SeparateSecrets)
    (hr : r ∈ buildReconcilers cr) : r.DistinctSecrets := by
  rw [SeparateSecrets, List.filter_flatMap] at h
  exact (List.nodup_flatMap.mp h).1 r hr

/-- Names without repetitions are different for different components. -/
theorem disjoint_of_nodup {names : Reconciler → List String} {r r' : Reconciler}
    (h : (((buildReconcilers cr).flatMap names).filter (· ≠ "")).Nodup)
    (hr : r ∈ buildReconcilers cr) (hr' : r' ∈ buildReconcilers cr) (hne : r ≠ r') {n : String}
    (hn : n ∈ names r) (hempty : n ≠ "") : n ∉ names r' := by
  rw [List.filter_flatMap] at h
  have : Std.Symm (Function.onFun List.Disjoint fun r : Reconciler =>
    (names r).filter (· ≠ "")) := ⟨fun _ _ h => h.symm⟩
  intro hn'
  exact (List.nodup_flatMap.mp h).2.forall hr hr' hne
    (List.mem_filter.mpr ⟨hn, decide_eq_true hempty⟩)
    (List.mem_filter.mpr ⟨hn', decide_eq_true hempty⟩)

/-- Two components share no name. -/
theorem ZooKeeperService.SeparateSecrets.disjoint {r r' : Reconciler} (h : cr.SeparateSecrets)
    (hr : r ∈ buildReconcilers cr) (hr' : r' ∈ buildReconcilers cr) (hne : r ≠ r') {n : String}
    (hn : n ∈ r.secretNames) (hempty : n ≠ "") : n ∉ r'.secretNames :=
  disjoint_of_nodup h hr hr' hne hn hempty

/-- What the components remember has made its passage. -/
structure Books (cr : ZooKeeperService) (w : World) : Prop where
  recorded : ∀ r ∈ buildReconcilers cr, ∀ c ∈ r.component, Recorded cr c r.secretNames w
  versioned : w.Versioned

theorem Books.accounted {r : Reconciler} (h : Books cr w) (hr : r ∈ buildReconcilers cr)
    (hc : c ∈ r.component) : Accounted cr c r.secretNames w :=
  ⟨h.recorded r hr c hc, h.versioned⟩

/-- Every component of a call belongs to the custom resource of the call. -/
theorem mem_buildReconcilers {r : Reconciler} (h : r ∈ buildReconcilers cr) :
    (∃ p : ZooKeeperResourceProvider, p.cr = cr ∧ r = .zooKeeper p) ∨
      (∃ p : MonitoringResourceProvider, p.cr = cr ∧ r = .monitoring p) ∨
      (∃ p : BackupDaemonResourceProvider, p.cr = cr ∧ r = .backupDaemon p) ∨
      ∃ tests, r = .integrationTests tests := by
  simp only [buildReconcilers, List.mem_append, Option.mem_toList, Option.map_eq_some_iff] at h
  rcases h with ((⟨p, hp, rfl⟩ | ⟨p, hp, rfl⟩) | ⟨p, hp, rfl⟩) | ⟨tests, -, rfl⟩
  · refine .inl ⟨p, ?_, rfl⟩
    unfold zooKeeperProvider? at hp
    split at hp <;> cases hp
    rfl
  · exact .inr (.inl ⟨p, cr_of_monitoringProvider? hp, rfl⟩)
  · exact .inr (.inr (.inl ⟨p, cr_of_backupDaemonProvider? hp, rfl⟩))
  · exact .inr (.inr (.inr ⟨tests, rfl⟩))

/-- The pass of a component keeps its own ledger. -/
theorem Reconciler.reconcile_ledger {r : Reconciler} (hr : r ∈ buildReconcilers cr)
    (hdistinct : r.DistinctSecrets) (hservers : cr.ServersWithVault) (hc : c ∈ r.component) :
    Triple (Ledger cr c r.secretNames) r.reconcile (fun _ => Ledger cr c r.secretNames)
      fun _ => Accounted cr c r.secretNames := by
  rcases mem_buildReconcilers hr with ⟨p, rfl, rfl⟩ | ⟨p, rfl, rfl⟩ | ⟨p, rfl, rfl⟩ | ⟨tests, rfl⟩
  · cases hc
    exact p.reconcile_ledger fun hon => hservers hon p.spec p.spec_eq
  · cases hc
    exact MonitoringResourceProvider.reconcile_ledger hdistinct.monitoring
  · cases hc
    exact BackupDaemonResourceProvider.reconcile_ledger hdistinct.backupDaemon
  · cases hc

/-- **The pass of a component keeps the books of all of them**, as long as it shares no Secret
with another one. -/
theorem Reconciler.reconcile_books {r : Reconciler} (hr : r ∈ buildReconcilers cr)
    (hseparate : cr.SeparateSecrets) (hservers : cr.ServersWithVault) :
    Triple (fun w => Books cr w ∧ TestedThrough cr w) r.reconcile
      (fun _ w => Books cr w ∧ TestedThrough cr w) fun _ => Books cr := by
  intro w hw
  -- the other components remember other Secrets
  have hothers : ∀ w', Touches r.footprint.fields w w' → ∀ r' ∈ buildReconcilers cr, r' ≠ r →
      ∀ c ∈ r'.component, Recorded cr c r'.secretNames w' := by
    intro w' ht r' hr' hne c hc
    refine (hw.1.recorded r' hr' c hc).of_touches ht fun n hn hempty hmem => ?_
    refine hseparate.disjoint hr' hr hne hn hempty ((r.mem_footprint_secrets n).mp ?_)
    exact hmem.resolve_left hempty
  have hledger {c : Component} (hc : c ∈ r.component) :=
    r.reconcile_ledger hr (hseparate.distinct hr) hservers hc
  have hbefore {c : Component} (hc : c ∈ r.component) : Ledger cr c r.secretNames w :=
    ⟨hw.1.accounted hr hc, hw.2⟩
  rcases hrun : r.reconcile w with ⟨u, w'⟩ | ⟨e, w'⟩
  · have ht := r.reconcile_touches.ok hrun
    refine ⟨⟨fun r' hr' c hc => ?_, ht.evolves.versioned hw.1.versioned⟩, ?_⟩
    · by_cases hne : r' = r
      · subst hne
        exact ((hledger hc).ok (hbefore hc) hrun).recorded
      · exact hothers w' ht r' hr' hne c hc
    · rcases hc : r.component with - | c
      · cases r with
        | integrationTests tests =>
          cases hrun
          exact hw.2
        | _ => cases hc
      · exact ((hledger hc).ok (hbefore hc) hrun).tested
  · have ht := r.reconcile_touches.raised hrun
    refine ⟨fun r' hr' c hc => ?_, ht.evolves.versioned hw.1.versioned⟩
    by_cases hne : r' = r
    · subst hne
      exact ((hledger hc).raised (hbefore hc) hrun).recorded
    · exact hothers w' ht r' hr' hne c hc

end QubershipZookeeper.Operator
