import QubershipZookeeper.SecretLedger

/-!
# Requests for new credentials

A user asks for new credentials of the backup daemon by an annotation of its Secret. The pass of
the backup daemon answers when it goes through its apply branch: it writes new credentials to
Vault, and resets the annotation. A request cannot be overlooked as long as only the backup daemon
remembers versions of its Secret (`BackupDaemonResourceProvider.reconcile_refreshes`).
-/

namespace QubershipZookeeper.Operator

open Proc

variable {cr : ZooKeeperService} {c : Component} {own : String} {w w' : World} {T : Set Field}

/-! ## The request -/

/-- The stored Secret asks for new credentials. -/
def AsksRefresh (n : String) (w : World) : Prop :=
  ∃ s, w.get? .secret n = some s ∧ needToRefreshCredentials s = true

/-- The versions are in order, and a version that asks for new credentials is newer than the
remembered one. -/
structure Unseen (own : String) (w : World) : Prop where
  versioned : w.Versioned
  bounded : ∀ v, w.resourceVersions.lookup own = some v → v ≤ w.version
  newer : ∀ s, w.get? .secret own = some s → needToRefreshCredentials s = true →
    ∀ v, w.resourceVersions.lookup own = some v → v < s.metadata.resourceVersion

/-- Of the credentials that were asked for when Vault had so many versions, either newer ones have
been written, or they are still asked for. -/
structure Waiting (own path : String) (requested : Option ℕ) (w : World) : Prop
    extends Unseen own w where
  pending : ∀ n ∈ requested, n < w.credentialsVersion path ∨
    n ≤ w.credentialsVersion path ∧ AsksRefresh own w

/-- The credentials that were asked for have been written, and nobody asks for them any more. -/
structure Refreshed (own path : String) (requested : Option ℕ) (w : World) : Prop
    extends Unseen own w where
  written : ∀ n ∈ requested, n < w.credentialsVersion path
  calm : ¬ AsksRefresh own w

variable {path : String} {requested : Option ℕ}

/-- A request that was answered has nothing to wait for. -/
theorem Refreshed.waiting (h : Refreshed own path requested w) : Waiting own path requested w :=
  ⟨h.toUnseen, fun n hn => .inl (h.written n hn)⟩

/-- And a request that is not made any more was answered. -/
theorem Waiting.refreshed (h : Waiting own path requested w) (hcalm : ¬ AsksRefresh own w) :
    Refreshed own path requested w :=
  ⟨h.toUnseen, fun n hn => (h.pending n hn).resolve_right fun h => hcalm h.2, hcalm⟩

/-- A frame that has neither the Secret nor its remembered version. -/
structure SparesSecret (own : String) (T : Set Field) : Prop where
  object : .object .secret own ∉ T
  version : .recordedVersion own ∉ T

/-- Whether a Secret asks for new credentials depends on the stored Secret. -/
theorem AsksRefresh.of_touches (ht : Touches T w w') (hT : .object .secret own ∉ T) :
    AsksRefresh own w' ↔ AsksRefresh own w := by
  unfold AsksRefresh
  rw [ht.get? hT]

/-- A version that nothing remembers stays unseen while the Secret is spared. -/
theorem Unseen.of_touches (h : Unseen own w) (ht : Touches T w w') (hT : SparesSecret own T) :
    Unseen own w' := by
  have hlookup : w'.resourceVersions.lookup own = w.resourceVersions.lookup own :=
    ht.same _ hT.version
  refine ⟨ht.evolves.versioned h.versioned, fun v hv => ?_, fun s hs hneed v hv => ?_⟩
  · rw [hlookup] at hv
    exact (h.bounded v hv).trans ht.evolves.version
  · rw [hlookup] at hv
    rw [ht.get? hT.object] at hs
    exact h.newer s hs hneed v hv

/-- A request waits on while the Secret is spared. -/
theorem Waiting.of_touches (h : Waiting own path requested w) (ht : Touches T w w')
    (hT : SparesSecret own T) : Waiting own path requested w' := by
  refine ⟨h.toUnseen.of_touches ht hT, fun n hn => ?_⟩
  have hmore := ht.evolves.credentials path
  rcases h.pending n hn with hlt | ⟨hle, hasks⟩
  · exact .inl (hlt.trans_le hmore)
  · exact .inr ⟨hle.trans hmore, (AsksRefresh.of_touches ht hT.object).mpr hasks⟩

theorem Refreshed.of_touches (h : Refreshed own path requested w) (ht : Touches T w w')
    (hT : SparesSecret own T) : Refreshed own path requested w' :=
  ⟨h.toUnseen.of_touches ht hT, fun n hn => (h.written n hn).trans_le (ht.evolves.credentials path),
    fun hasks => h.calm ((AsksRefresh.of_touches ht hT.object).mp hasks)⟩

/-- A Secret that is stored has a version that nobody remembers. -/
theorem Unseen.store (h : Unseen own w) (secret : Secret) :
    Unseen own (w.store .secret secret) := by
  refine ⟨(evolves_store w .secret secret).versioned h.versioned,
    fun v hv => (h.bounded v hv).trans (Nat.le_succ _), fun s hs hneed v hv => ?_⟩
  by_cases hname : own = secret.metadata.name
  · rw [hname, show secret.metadata.name = Kind.name .secret secret from rfl,
      World.get?_store_self] at hs
    cases hs
    exact Nat.lt_succ_of_le (h.bounded v hv)
  · rw [World.get?_store_of_ne w (.inr hname)] at hs
    exact h.newer s hs hneed v hv

/-! ## Watching -/

theorem sparesSecret_empty : SparesSecret own ∅ := ⟨Set.notMem_empty _, Set.notMem_empty _⟩

/-- Watching a Secret does not take back what it asks for. -/
theorem watchSecret_waits (own : String) :
    Triple (Waiting own path requested) (watchSecret own cr)
      (fun _ => Waiting own path requested) fun _ => Waiting own path requested := by
  refine watchSecret_keeps (fun w w' ht hw => hw.of_touches ht sparesSecret_empty)
    fun w s m hw hs hname hannotations => ⟨hw.toUnseen.store _, fun n hn => ?_⟩
  rcases hw.pending n hn with hlt | ⟨hle, s', hs', hneed⟩
  · exact .inl hlt
  · -- the stored Secret has the annotations of the one before
    obtain rfl := Option.some.inj (hs.symm.trans hs')
    have hstored := w.get?_store_self .secret { s with metadata := m }
    rw [show Kind.name .secret { s with metadata := m } = own from hname] at hstored
    refine .inr ⟨hle, _, hstored, ?_⟩
    rw [needToRefreshCredentials, ← hannotations] at hneed
    exact hneed

/-- Watching the Secret does not answer its request. -/
theorem watchOwnSecret_waits (own : String) :
    Triple (Waiting own path requested) (watchOwnSecret own cr)
      (fun _ => Waiting own path requested) fun _ => Waiting own path requested := by
  refine (watchSecret_waits own).recover (fun e k hk => ?_) fun _ _ _ hw => hw
  split at hk <;> cases hk
  exact triple_pure fun _ hw => hw

/-! ## Writing and cleaning -/

/-- A write gives the credentials a newer version. -/
theorem writeVaultSecret_writes (vault : VaultSecretManagement) (name : String)
    (credentials : StringMap) (n : ℕ) :
    Triple (fun w => n ≤ w.credentialsVersion (vaultSecretPath vault.path name))
      (writeVaultSecret vault.path name credentials)
      (fun _ w => n < w.credentialsVersion (vaultSecretPath vault.path name))
      fun _ _ => True := by
  refine replied_triple (vaultRequest_triple (E := fun _ => True) _ (fun w w' ht hw =>
    hw.trans (ht.evolves.credentials _)) (fun w hw => ?_) (fun _ _ => trivial) fun _ _ _ => trivial)
    fun _ _ _ => trivial
  show n < World.credentialsVersion _ _
  rw [World.credentialsVersion, Finmap.lookup_insert]
  exact Nat.lt_succ_of_le hw

/-- A Secret that asks for new credentials gets them. -/
theorem processUserCredentials_writes {secret : Secret}
    (hneed : needToRefreshCredentials secret = true)
    (vault : VaultSecretManagement) (name key : String) (generator : PasswordGenerator) (n : ℕ) :
    Triple (fun w => n ≤ w.credentialsVersion (vaultSecretPath vault.path name))
      (processUserCredentials vault name key secret generator)
      (fun _ w => n < w.credentialsVersion (vaultSecretPath vault.path name))
      fun _ _ => True := by
  set secretPath := vaultSecretPath vault.path name
  have hquiet {α : Type} {m : Op α} (hm : Within (Touches Set.univ) m) :
      Triple (fun w => n ≤ w.credentialsVersion secretPath) m
        (fun _ w => n ≤ w.credentialsVersion secretPath) fun _ _ => True :=
    (hm.triple fun w w' (hw : n ≤ w.credentialsVersion secretPath) ht =>
      hw.trans (ht.evolves.credentials _)).conseq (fun _ h => h) (fun _ _ h => h)
        fun _ _ _ => trivial
  refine (hquiet (readVaultSecret_touches _ _)).bind fun found => ?_
  rw [hneed, Bool.or_true, whenever_true]
  refine Triple.bind (Q := fun _ w => n ≤ w.credentialsVersion secretPath) ?_ fun password => ?_
  · split
    · exact triple_pure fun _ h => h
    · exact hquiet (generate_touches generator)
  · refine (writeVaultSecret_writes vault name _ n).bind fun version => ?_
    refine ((recordSecretVersion_touches (T := Set.univ) name version).triple
      fun w w' (hw : n < w.credentialsVersion secretPath) ht =>
        hw.trans_le (ht.evolves.credentials _)).conseq (fun _ h => h) (fun _ _ h => h)
      fun _ _ _ => trivial

/-- A Secret at hand that asks for nothing is one that asks for nothing in the cluster. -/
theorem HoldsOwn.not_asksRefresh {secret : Secret} (h : HoldsOwn own secret w)
    (hneed : needToRefreshCredentials secret = false) : ¬ AsksRefresh own w := by
  rintro ⟨s, hs, hneed'⟩
  obtain rfl := h.eq_of_get? hs
  rw [hneed] at hneed'
  cases hneed'

/-- The end of the credentials step: nobody asks any more. -/
theorem cleanSecret_refreshes (hown : own ≠ "") (secret : Secret) :
    Triple (fun w => HoldsOwn own secret w ∧ Unseen own w ∧
        ∀ n ∈ requested, n < w.credentialsVersion path) (cleanSecret c secret)
      (fun _ => Refreshed own path requested) fun _ => Waiting own path requested := by
  let Ready (w : World) : Prop := Unseen own w ∧ ∀ n ∈ requested, n < w.credentialsVersion path
  have hwaiting (w : World) (hw : Ready w) : Waiting own path requested w :=
    ⟨hw.1, fun n hn => .inl (hw.2 n hn)⟩
  have hstable : Stable Ready := fun w w' ht hw => ⟨hw.1.of_touches ht sparesSecret_empty,
    fun n hn => (hw.2 n hn).trans_le (ht.evolves.credentials path)⟩
  refine Triple.bind (Q := fun _ w => HoldsOwn own secret w ∧ Ready w)
    (triple_update fun w hw => ⟨hw.1, ⟨hw.2.1.versioned, hw.2.1.bounded, hw.2.1.newer⟩, hw.2.2⟩)
    fun _ => ?_
  by_cases hclean : needToCleanSecret secret = true
  · rw [if_pos hclean]
    refine Triple.bind (Q := fun cleaned w => (cleaned.metadata.name = own ∧
      needToRefreshCredentials cleaned = false) ∧ Ready w) ?_ fun cleaned w hw => ?_
    · refine triple_build (fun cleaned w hcleaned hw => ⟨⟨?_, ?_⟩, hw.2⟩)
        fun _ w hw => hwaiting w hw.2
      · rw [name_cleanedSecret hcleaned]
        exact (hw.1.name_eq (name_ne_of_needToCleanSecret hclean)).1
      · exact needToRefreshCredentials_cleanedSecret hcleaned
    · obtain ⟨⟨rfl, hneed⟩, hw⟩ := hw
      refine Triple.bind (P := Ready) (Q := fun stored w =>
        (w.get? .secret cleaned.metadata.name = some stored ∧
          needToRefreshCredentials stored = false) ∧ Ready w) ?_ (fun stored => ?_) w hw
      · refine clientUpdate_triple hstable (fun w found hw hfound hsame => ⟨⟨hfound, ?_⟩, hw⟩)
          (fun w _ hw _ => ⟨⟨w.get?_store_self .secret cleaned, hneed⟩, hw.1.store cleaned, hw.2⟩)
          hwaiting fun _ w hw => hwaiting w hw.2
        rw [← hsame]
        exact hneed
      · refine Triple.bind (Q := fun _ => Refreshed cleaned.metadata.name path requested)
          (triple_update fun w hw => ?_) fun _ => triple_pure fun _ hw => hw
        obtain ⟨⟨hstored, hneed⟩, hready⟩ := hw
        have hcalm : ∀ s, w.get? .secret cleaned.metadata.name = some s →
            needToRefreshCredentials s = false := by
          intro s hs
          obtain rfl := Option.some.inj (hstored.symm.trans hs)
          exact hneed
        refine ⟨⟨hready.1.versioned, fun v hv => ?_, fun s hs hneed' => ?_⟩, hready.2, ?_⟩
        · have hv' : (rememberedVersions [some stored] w.resourceVersions).lookup
              cleaned.metadata.name = some v := hv
          rcases lookup_rememberedVersions_cases hv' with ⟨s, hs, -, rfl⟩ | hv
          · obtain rfl := Option.some.inj (List.mem_singleton.mp hs)
            exact (hready.1.versioned _ _ hstored).2
          · exact hready.1.bounded v hv
        · rw [hcalm s hs] at hneed'
          cases hneed'
        · rintro ⟨s, hs, hneed'⟩
          rw [hcalm s hs] at hneed'
          cases hneed'
  · rw [if_neg hclean]
    refine triple_pure fun w hw => ⟨hw.2.1, hw.2.2, hw.1.not_asksRefresh ?_⟩
    -- a Secret that asks for new credentials needs cleaning
    rw [needToCleanSecret, Bool.and_eq_true, not_and, Bool.or_eq_true, not_or] at hclean
    rcases hw.1 with hstored | ⟨rfl, -⟩
    · have hname : secret.metadata.name = own := Store.name_of_get? hstored
      exact Bool.eq_false_of_not_eq_true (hclean (decide_eq_true (hname ▸ hown))).2
    · rfl

namespace BackupDaemonResourceProvider

/-- Where the credentials of the backup daemon are in Vault. -/
def credentialsPath (p : BackupDaemonResourceProvider) (vault : VaultSecretManagement) : String :=
  vaultSecretPath vault.path (vaultSecretName p.getServiceName p.cr.namespaceName "credentials")

variable {p : BackupDaemonResourceProvider} {vault : VaultSecretManagement}

theorem sparesSecret_credentialsFields : SparesSecret own credentialsFields :=
  ⟨by simp [credentialsFields], by simp [credentialsFields]⟩

/-- Vault's part of the pass writes newer credentials first, and takes the request back with the
cleaning. -/
theorem processVaultSecrets_refreshes (hown : p.spec.secretName ≠ "") (secret : Secret) :
    Triple (fun w => HoldsOwn p.spec.secretName secret w ∧
        Waiting p.spec.secretName (p.credentialsPath vault) requested w)
      (p.processVaultSecrets vault secret)
      (fun _ => Refreshed p.spec.secretName (p.credentialsPath vault) requested)
      fun _ => Waiting p.spec.secretName (p.credentialsPath vault) requested := by
  set own := p.spec.secretName
  set path := p.credentialsPath vault with hpath
  have hT := vault_mem_credentialsFields
  have hkept {w w' : World} (hw : HoldsOwn own secret w ∧ Waiting own path requested w)
      (ht : Touches credentialsFields w w') :
      HoldsOwn own secret w' ∧ Waiting own path requested w' :=
    ⟨hw.1.of_get?_eq (ht.get? sparesSecret_credentialsFields.object),
      hw.2.of_touches ht sparesSecret_credentialsFields⟩
  have hquiet {α : Type} {m : Op α} (hm : Within (Touches credentialsFields) m) :
      Triple (fun w => HoldsOwn own secret w ∧ Waiting own path requested w) m
        (fun _ w => HoldsOwn own secret w ∧ Waiting own path requested w)
        fun _ => Waiting own path requested :=
    (hm.triple fun _ _ => hkept).conseq (fun _ h => h) (fun _ _ h => h) fun _ _ h => h.2
  refine (hquiet (p.writePolicies_touches hT vault secret).whenever).bind fun _ => ?_
  refine (hquiet (newPasswordGenerator_touches hT _ _)).bind fun generator => ?_
  refine Triple.bind (Q := fun _ w => HoldsOwn own secret w ∧ Unseen own w ∧
    ∀ n ∈ requested, n < w.credentialsVersion path) ?_ fun _ => cleanSecret_refreshes hown secret
  have hcredentials : Within (Touches credentialsFields)
    (p.processCredentials vault secret generator) :=
    processUserCredentials_touches hT _ _ _ _ _
  intro w hw
  rcases hrun : p.processCredentials vault secret generator w with ⟨u, w'⟩ | ⟨e, w'⟩
  · have hw' := hkept hw (hcredentials.ok hrun)
    refine ⟨hw'.1, hw'.2.toUnseen, fun n hn => ?_⟩
    rcases hneed : needToRefreshCredentials secret with - | -
    · -- nothing is asked for, so whatever was requested has been written before
      exact ((hw'.2.pending n hn).resolve_right fun h => hw'.1.not_asksRefresh hneed h.2)
    · -- the credentials are written in a version after the requested one
      have hle : n ≤ w.credentialsVersion path := (hw.2.pending n hn).elim le_of_lt And.left
      exact (processUserCredentials_writes hneed vault _ _ generator n).ok hle hrun
  · exact (hkept hw (hcredentials.raised hrun)).2

/-- **The pass of the backup daemon answers a request for new credentials.** -/
theorem reconcile_refreshes (h : p.DistinctSecrets) (hown : p.spec.secretName ≠ "")
    (hvault : p.cr.vault? = some vault) :
    Triple (Waiting p.spec.secretName (p.credentialsPath vault) requested) p.reconcile
      (fun _ => Refreshed p.spec.secretName (p.credentialsPath vault) requested)
      fun _ => Waiting p.spec.secretName (p.credentialsPath vault) requested := by
  set path := p.credentialsPath vault
  have hwaits (T : Set Field) (hT : SparesSecret p.spec.secretName T) {α : Type} {m : Op α}
      (hm : Within (Touches T) m) : Triple (Waiting p.spec.secretName path requested) m
        (fun _ => Waiting p.spec.secretName path requested)
        fun _ => Waiting p.spec.secretName path requested :=
    hm.triple fun _ _ hw ht => hw.of_touches ht hT
  have hquiet : SparesSecret p.spec.secretName withoutSecrets.fields :=
    ⟨fun h => h, fun h => h.elim hown id⟩
  have hs3 : SparesSecret p.spec.secretName {f | ∃ n ∈ p.s3SecretName, f = .object .secret n} := by
    refine ⟨?_, by simp⟩
    rintro ⟨n, hn, heq⟩
    cases heq
    exact (h.s3 _ hn).1 rfl
  refine p.reconcile_triple
    (B := fun o a s w => p.Holds False o a s w ∧ Waiting p.spec.secretName path requested w)
    (D := fun o a s w => p.Holds False o a s w ∧ Refreshed p.spec.secretName path requested w)
    (fun o a s w w' hw ht => ⟨aboutSecrets_holds o a s w w' hw.1 ht, hw.2.of_touches ht hquiet⟩)
    (fun o a s w w' hw ht => ⟨aboutSecrets_holds o a s w w' hw.1 ht, hw.2.of_touches ht hquiet⟩)
    (fun _ _ _ _ hw => hw.2) (fun _ _ _ _ hw => hw.2.waiting)
    (((watchOwnSecret_holds False h).and (watchOwnSecret_waits _)).conseq
      (fun _ h => ⟨False.elim, h⟩) (fun _ _ h => h) fun _ _ h => h.2)
    (fun s => ((watchOtherSecret_holds False h s).and (hwaits _ hs3 (watchOtherSecret_writes p.cr
      fun n hn => ⟨⟨n, hn, rfl⟩, by simp⟩))).conseq (fun _ h => h) (fun _ _ h => h)
        fun _ _ h => h.2)
    (fun s o => ((findS3Aliases_holds o s).and
      (hwaits ∅ sparesSecret_empty p.findS3Aliases_touches)).conseq (fun _ h => h) (fun _ _ h => h)
      fun _ _ h => h.2)
    (fun s o a => testChanged_triple (fun w hw _ => ?_) fun w hw hsame => ?_)
    (fun o a s => ?_) fun s o a => triple_update fun w hw => ?_
  · exact ⟨⟨hw.1.own, hw.1.s3, hw.1.found, hw.1.answered⟩,
      ⟨hw.2.versioned, hw.2.bounded, hw.2.newer⟩, hw.2.pending⟩
  · -- a Secret that asks for new credentials never looks old
    have hcalm : ¬ AsksRefresh p.spec.secretName w := by
      rintro ⟨s', hs', hneed⟩
      obtain rfl := hw.1.own.eq_of_get? hs'
      have hname : s.metadata.name = p.spec.secretName := Store.name_of_get? hs'
      have hseen := lookup_of_not_changed (List.mem_cons_self ..) (hname ▸ hown)
        (hw.2.versioned _ _ hs').1 hsame
      rw [hname] at hseen
      exact absurd (hw.2.newer s hs' hneed _ hseen) (lt_irrefl _)
    have hrefreshed := hw.2.refreshed hcalm
    exact ⟨⟨hw.1.own, hw.1.s3, hw.1.found, hw.1.answered⟩,
      ⟨hw.2.versioned, hw.2.bounded, hw.2.newer⟩, hrefreshed.written, hcalm⟩
  · have hprocess : Triple (fun w => HoldsOwn p.spec.secretName s w ∧
          Waiting p.spec.secretName path requested w) (p.applyVault s)
        (fun _ => Refreshed p.spec.secretName path requested)
        fun _ => Waiting p.spec.secretName path requested := by
      rw [applyVault, hvault]
      exact processVaultSecrets_refreshes hown s
    exact ((applyVault_holds h o a s).and hprocess).conseq (fun _ hw => ⟨hw.1, hw.1.own, hw.2⟩)
      (fun _ _ hw => hw) fun _ _ hw => hw.2
  · have hnone (s' : Secret) (hs' : w.get? .secret p.spec.secretName = some s')
        (hneed : needToRefreshCredentials s' = true) : False := hw.2.calm ⟨s', hs', hneed⟩
    refine ⟨⟨hw.2.versioned, fun v hv => ?_, fun s' hs' hneed => (hnone s' hs' hneed).elim⟩,
      hw.2.written, hw.2.calm⟩
    rcases lookup_rememberedVersions_cases hv with ⟨s', hs', hname, rfl⟩ | hv
    · obtain rfl := (hw.1.unique h hs').1 hname
      have hstored := (hw.1.own.name_eq (hname ▸ hown)).2
      exact (hw.2.versioned _ _ hstored).2
    · exact hw.2.bounded v hv

end BackupDaemonResourceProvider

end QubershipZookeeper.Operator
