import QubershipZookeeper.DesiredObjects
import QubershipZookeeper.Footprints

/-!
# Writes to Vault and what becomes of them

`processVaultSecrets` of a component sends writes to Vault — policies, roles, credentials, and
the password policy of the generator — and then takes the credentials out of the Kubernetes
Secret. The order matters: a Secret that is cleaned after a refused write has lost its
credentials. Every write but one ends the procedure when it is refused. The exception is the
password policy, whose error `WriteVaultPasswordPolicy` shadows.
-/

namespace QubershipZookeeper.Operator

open Proc

variable {α : Type} {w w₀ w' : World}

/-! ## The record of the writes -/

/-- Between the two worlds some writes were sent to Vault, and all of them were accepted. -/
def AllAccepted (w w' : World) : Prop :=
  ∃ sent, w'.vaultWrites = sent ++ w.vaultWrites ∧ ∀ s ∈ sent, s.accepted = true

/-- The stored Secrets are as they were. -/
def SecretsKept (w w' : World) : Prop := ∀ n, w'.get? .secret n = w.get? .secret n

/-- A procedure that can be trusted about its writes: it returns, and it changes a stored
Secret, only if Vault has accepted all that it sent. -/
structure Truthful (m : Op α) : Prop where
  returned : ∀ w a w', m w = .ok a w' → AllAccepted w w'
  cleaned : ∀ w n, (m w).next.get? .secret n ≠ w.get? .secret n → AllAccepted w (m w).next

/-- So far all is well: all writes were accepted, and no Secret was changed. -/
structure Orderly (w w' : World) : Prop where
  accepted : AllAccepted w w'
  kept : SecretsKept w w'

theorem Orderly.refl (w : World) : Orderly w w :=
  ⟨⟨[], rfl, fun _ hs => absurd hs List.not_mem_nil⟩, fun _ => rfl⟩

/-- Neither a write nor a change of a Secret. -/
structure Still (w w' : World) : Prop where
  writes : w'.vaultWrites = w.vaultWrites
  kept : SecretsKept w w'

instance : Std.Refl Still := ⟨fun _ => ⟨rfl, fun _ => rfl⟩⟩

instance : IsTrans World Still :=
  ⟨fun _ _ _ h h' => ⟨h'.writes.trans h.writes, fun n => (h'.kept n).trans (h.kept n)⟩⟩

/-- Whether all writes were accepted is a question of the record. -/
theorem AllAccepted.of_writes (h : AllAccepted w₀ w) (heq : w'.vaultWrites = w.vaultWrites) :
    AllAccepted w₀ w' := by
  obtain ⟨sent, hsent, hall⟩ := h
  exact ⟨sent, heq.trans hsent, hall⟩

/-- A step without writes keeps the order. -/
theorem Orderly.still (h : Orderly w₀ w) (hs : Still w w') : Orderly w₀ w' :=
  ⟨h.accepted.of_writes hs.writes, fun n => (hs.kept n).trans (h.kept n)⟩

/-- A step that keeps order: a run that returns leaves all well, and one that fails has at least
not changed a Secret. -/
def KeepsOrder (m : Op α) : Prop :=
  ∀ w₀, Triple (Orderly w₀) m (fun _ => Orderly w₀) fun _ => SecretsKept w₀

theorem keepsOrder_of_still {m : Op α} (h : Within Still m) : KeepsOrder m :=
  fun _ => (h.triple fun _ _ ho hs => Orderly.still ho hs).conseq (fun _ hw => hw)
    (fun _ _ hw => hw)
    fun _ _ hw => hw.kept

/-- Steps that keep the order do so one after the other. -/
theorem KeepsOrder.bind {β : Type} {m : Op α} {f : α → Op β} (hm : KeepsOrder m)
    (hf : ∀ a, KeepsOrder (f a)) : KeepsOrder (m >>= f) :=
  fun w₀ => (hm w₀).bind fun a => hf a w₀

theorem KeepsOrder.whenever {b : Bool} {m : Op Unit} (hm : KeepsOrder m) :
    KeepsOrder (Proc.whenever b m) :=
  fun w₀ => Triple.whenever (fun _ => hm w₀) fun _ _ hw => hw

/-! ## Requests -/

/-- A request without writes is still, refused or served. -/
theorem request_still {serve : Op α} (h : Within Still serve) : Within Still (request serve) := by
  intro w
  have hdrop (faults : List Fault) : Still w { w with faults := faults } := ⟨rfl, fun _ => rfl⟩
  unfold request
  split
  · exact h w
  · exact trans_of Still (hdrop _) (h _)
  · exact trans_of Still (hdrop _) (h _)
  · exact hdrop _
  · exact trans_of Still (hdrop _) (h _)

/-- A request that has returned was served. -/
theorem servesNext_of_ok {serve : Op α} {a : α} (h : request serve w = .ok a w') :
    w.servesNext = true := by
  rw [World.servesNext]
  split
  next hfaults =>
    simp only [request, hfaults] at h
    cases h
  next => rfl

/-- **A refused write is an error.** So if the write returns, it has been accepted. -/
theorem vaultRequest_keepsOrder {serve : Op α} (write : VaultWrite) (h : Within Still serve) :
    KeepsOrder (vaultRequest write serve) := by
  intro w₀ w hw
  let noted : World := { w with vaultWrites := ⟨write, w.servesNext⟩ :: w.vaultWrites }
  have hrun : vaultRequest write serve w = request serve noted := rfl
  have hstill := request_still h noted
  rw [hrun]
  rcases hr : request serve noted with ⟨a, t⟩ | ⟨e, t⟩ <;> rw [hr] at hstill
  · have hserved : noted.servesNext = true := servesNext_of_ok hr
    change w.servesNext = true at hserved
    obtain ⟨sent, hsent, hall⟩ := hw.accepted
    refine ⟨⟨⟨write, true⟩ :: sent, ?_, ?_⟩, fun n => (hstill.kept n).trans (hw.kept n)⟩
    · rw [show t.vaultWrites = noted.vaultWrites from hstill.writes]
      simp only [noted, hserved, hsent, List.cons_append]
    · intro s hs
      rcases List.mem_cons.mp hs with rfl | hs
      · rfl
      · exact hall s hs
  · exact fun n => (hstill.kept n).trans (hw.kept n)

/-- Reading the answer comes after the write. -/
theorem replied_keepsOrder {m : Op α} (p : Panic) (h : KeepsOrder m) : KeepsOrder (replied p m) :=
  fun w₀ => replied_triple (h w₀) fun _ _ hw => hw.kept

/-! ## The steps before the cleaning -/

section Steps

theorem still_of_vault (w : World) (vault : Vault) : Still w { w with vault := vault } :=
  ⟨rfl, fun _ => rfl⟩

/-- Every write hands its error on at once, so nothing is written after a refused one. -/
theorem writeVaultPolicy_keepsOrder (policyName policy : String) :
    KeepsOrder (writeVaultPolicy policyName policy) :=
  vaultRequest_keepsOrder _ fun w => still_of_vault w _

theorem writeVaultAuthRole_keepsOrder (roleName : String) (role : VaultRole)
    (vault : VaultSecretManagement) : KeepsOrder (writeVaultAuthRole roleName role vault) :=
  vaultRequest_keepsOrder _ fun w => still_of_vault w _

theorem writeVaultSecret_keepsOrder (path secretName : String) (secret : StringMap) :
    KeepsOrder (writeVaultSecret path secretName secret) :=
  replied_keepsOrder _ (vaultRequest_keepsOrder _ fun w => still_of_vault w _)

theorem read_keepsOrder (f : World → α) : KeepsOrder (request (observe f)) :=
  keepsOrder_of_still (request_still (within_observe f))

/-- Reads are still. -/
theorem readVaultSecret_keepsOrder (path secretName : String) :
    KeepsOrder (readVaultSecret path secretName) :=
  replied_keepsOrder _ (read_keepsOrder _)

theorem pure_keepsOrder (a : α) : KeepsOrder (pure a : Op α) :=
  keepsOrder_of_still (within_pure a)

theorem ensureVaultPolicy_keepsOrder (policyName policy : String) (secret : Secret) :
    KeepsOrder (ensureVaultPolicy policyName policy secret) :=
  (read_keepsOrder _).bind fun _ => (writeVaultPolicy_keepsOrder _ _).whenever

theorem ensureVaultRole_keepsOrder (roleName : String) (role : VaultRole)
    (vault : VaultSecretManagement) (secret : Secret) :
    KeepsOrder (ensureVaultRole roleName role vault secret) :=
  (read_keepsOrder _).bind fun _ => (writeVaultAuthRole_keepsOrder _ _ _).whenever

theorem generate_keepsOrder (generator : PasswordGenerator) : KeepsOrder generator.generate := by
  apply keepsOrder_of_still
  have hnext : Within Still nextPassword := fun w => ⟨rfl, fun _ => rfl⟩
  cases generator with
  | operator => exact hnext
  | vault policyName =>
    refine request_still fun w => ?_
    split
    · exact hnext w
    · exact refl_of Still w

theorem recordSecretVersion_keepsOrder (secretName : String) (version : ℕ) :
    KeepsOrder (recordSecretVersion secretName version) := by
  refine keepsOrder_of_still fun w => ?_
  unfold recordSecretVersion
  split
  · exact ⟨rfl, fun _ => rfl⟩
  · exact refl_of Still w

/-- The credentials of a user: a read, and a write if it is due. -/
theorem processUserCredentials_keepsOrder (vault : VaultSecretManagement)
    (credentialsSecretName usernameKey : String) (secret : Secret) (generator : PasswordGenerator) :
    KeepsOrder (processUserCredentials vault credentialsSecretName usernameKey secret
      generator) := by
  refine (readVaultSecret_keepsOrder _ _).bind fun found => KeepsOrder.whenever ?_
  refine KeepsOrder.bind ?_ fun password => ?_
  · split
    · exact pure_keepsOrder _
    · exact generate_keepsOrder generator
  · exact (writeVaultSecret_keepsOrder _ _ _).bind fun _ => recordSecretVersion_keepsOrder _ _

/-- A loop keeps the order if its rounds do. -/
theorem foldEach_keepsOrder {β : Type} {xs : List α} {f : β → α → Op β}
    (h : ∀ b x, KeepsOrder (f b x)) (b : β) : KeepsOrder (foldEach xs b f) :=
  fun w₀ => foldEach_triple (fun _ x _ b _ => h b x w₀) b

theorem processAdditionalUsersCredentials_keepsOrder (cr : ZooKeeperService)
    (vault : VaultSecretManagement) (secret : Secret) (generator : PasswordGenerator) :
    KeepsOrder (processAdditionalUsersCredentials cr vault secret generator) := by
  refine (readVaultSecret_keepsOrder _ _).bind fun found => KeepsOrder.whenever ?_
  refine KeepsOrder.bind ?_ fun users => ?_
  · exact foldEach_keepsOrder (fun _ _ => (generate_keepsOrder generator).bind fun _ =>
      pure_keepsOrder _) _
  · exact (writeVaultSecret_keepsOrder _ _ _).bind fun _ => recordSecretVersion_keepsOrder _ _

/-- Only the operator's own generator comes without a write whose error is lost. -/
theorem newPasswordGenerator_keepsOrder (cr : ZooKeeperService) {vault : VaultSecretManagement}
    (h : vault.passwordGenerationMechanism ≠ "vault") :
    KeepsOrder (newPasswordGenerator cr vault) := by
  rw [newPasswordGenerator, if_neg h]
  exact pure_keepsOrder _

end Steps

/-! ## The cleaning -/

/-- Nothing is sent to Vault. -/
def NoWrites (w w' : World) : Prop := w'.vaultWrites = w.vaultWrites

instance : Std.Refl NoWrites := ⟨fun _ => rfl⟩

instance : IsTrans World NoWrites := ⟨fun _ _ _ h h' => h'.trans h⟩

theorem request_noWrites {serve : Op α} (h : Within NoWrites serve) :
    Within NoWrites (request serve) := by
  intro w
  unfold request
  split
  · exact h w
  · exact h { w with faults := _ }
  · exact h { w with faults := _ }
  · rfl
  · exact h { w with faults := _ }

/-- Cleaning the Secret writes nothing to Vault. -/
theorem cleanSecret_noWrites (c : Component) (secret : Secret) :
    Within NoWrites (cleanSecret c secret) := by
  refine Within.bind (fun w => rfl) fun _ => ?_
  split
  · refine (within_lift _).bind fun cleaned => Within.bind ?_ fun stored => ?_
    · refine request_noWrites fun w => ?_
      split
      · rfl
      · split <;> rfl
    · exact Within.bind (fun w => rfl) fun _ => within_pure _
  · exact within_pure _

/-- After an orderly beginning, the rest can be trusted. -/
def Concludes (k : Op α) : Prop :=
  ∀ w₀, Triple (Orderly w₀) k (fun _ => AllAccepted w₀)
    fun _ w' => SecretsKept w₀ w' ∨ AllAccepted w₀ w'

/-- After the last write a procedure may fail or return. -/
theorem concludes_of_noWrites {k : Op α} (h : Within NoWrites k) : Concludes k := by
  intro w₀ w hw
  have hwrites := h w
  rcases hr : k w with ⟨a, t⟩ | ⟨e, t⟩ <;> rw [hr] at hwrites
  · exact hw.accepted.of_writes hwrites
  · exact .inr (hw.accepted.of_writes hwrites)

/-- Steps that keep the order may come first. -/
theorem KeepsOrder.concludes {β : Type} {m : Op α} {f : α → Op β} (hm : KeepsOrder m)
    (hf : ∀ a, Concludes (f a)) : Concludes (m >>= f) := by
  intro w₀
  refine Triple.bind ?_ fun a => hf a w₀
  exact (hm w₀).conseq (fun _ h => h) (fun _ _ h => h) fun _ _ h => .inl h

/-- A procedure that concludes says the truth: it returns, and changes a Secret, only if all writes
were accepted. -/
theorem Concludes.truthful {m : Op α} (h : Concludes m) : Truthful m where
  returned w _ _ hr := (h w).ok (Orderly.refl w) hr
  cleaned w n hn := by
    rcases hr : m w with ⟨b, u⟩ | ⟨e, u⟩
    · exact (h w).ok (Orderly.refl w) hr
    · rw [hr] at hn
      exact ((h w).raised (Orderly.refl w) hr).resolve_left fun hkept => hn (hkept n)

/-! ## The components -/

/-- A component with its part of the custom resource. -/
inductive VaultUser where
  /-- the servers -/
  | zooKeeper (p : ZooKeeperResourceProvider)
  /-- the monitoring agent -/
  | monitoring (p : MonitoringResourceProvider)
  /-- the backup daemon -/
  | backupDaemon (p : BackupDaemonResourceProvider)

namespace VaultUser

/-- `processVaultSecrets` of the component. -/
def processVaultSecrets : VaultUser → VaultSecretManagement → Secret → Op Secret
  | zooKeeper p => p.processVaultSecrets
  | monitoring p => p.processVaultSecrets
  | backupDaemon p => p.processVaultSecrets

/-- Does the component choose a password generator? -/
def generatesPasswords : VaultUser → Bool
  | monitoring _ => false
  | _ => true

end VaultUser

section Trusted

variable (vault : VaultSecretManagement) (secret : Secret)

/-- The passes of the three components, where the error of the password policy is not lost. -/
theorem zooKeeper_concludes (p : ZooKeeperResourceProvider)
    (h : vault.passwordGenerationMechanism ≠ "vault") :
    Concludes (p.processVaultSecrets vault secret) := by
  have hversions : KeepsOrder (Proc.update fun w : World => { w with status := { w.status with
      secretVersions := some (w.status.secretVersions.getD ∅) } } : Op Unit) :=
    keepsOrder_of_still fun w => ⟨rfl, fun _ => rfl⟩
  have hpolicies : KeepsOrder (p.writePolicies vault secret) :=
    (ensureVaultPolicy_keepsOrder _ _ _).bind fun _ =>
      (ensureVaultRole_keepsOrder _ _ _ _).bind fun _ => ensureVaultPolicy_keepsOrder _ _ _
  refine hversions.concludes fun _ => hpolicies.whenever.concludes fun _ => ?_
  refine (newPasswordGenerator_keepsOrder p.cr h).concludes fun generator => ?_
  refine (processUserCredentials_keepsOrder _ _ _ _ _).concludes fun _ => ?_
  refine (processUserCredentials_keepsOrder _ _ _ _ _).concludes fun _ => ?_
  refine (processAdditionalUsersCredentials_keepsOrder _ _ _ _).concludes fun _ => ?_
  exact concludes_of_noWrites (cleanSecret_noWrites _ _)

theorem monitoring_concludes (p : MonitoringResourceProvider) :
    Concludes (p.processVaultSecrets vault secret) := by
  have hpolicies : KeepsOrder (p.writePolicies vault secret) :=
    (ensureVaultPolicy_keepsOrder _ _ _).bind fun _ => ensureVaultRole_keepsOrder _ _ _ _
  refine hpolicies.whenever.concludes fun _ => ?_
  exact concludes_of_noWrites (cleanSecret_noWrites _ _)

theorem backupDaemon_concludes (p : BackupDaemonResourceProvider)
    (h : vault.passwordGenerationMechanism ≠ "vault") :
    Concludes (p.processVaultSecrets vault secret) := by
  have hpolicies : KeepsOrder (p.writePolicies vault secret) :=
    (ensureVaultPolicy_keepsOrder _ _ _).bind fun _ => ensureVaultRole_keepsOrder _ _ _ _
  refine hpolicies.whenever.concludes fun _ => ?_
  refine (newPasswordGenerator_keepsOrder p.cr h).concludes fun generator => ?_
  refine (processUserCredentials_keepsOrder _ _ _ _ _).concludes fun _ => ?_
  exact concludes_of_noWrites (cleanSecret_noWrites _ _)

end Trusted

/-! ## The write whose refusal goes unnoticed -/

section Unnoticed

/-- A map with one value for every name of a list. -/
def named {β : Type} (names : List String) (value : β) : Finmap fun _ : String => β :=
  names.foldr (fun n m => m.insert n value) ∅

theorem lookup_named {β : Type} {names : List String} {n : String} (h : n ∈ names) (value : β) :
    (named names value).lookup n = some value := by
  induction names with
  | nil => cases h
  | cons m names ih =>
    rw [named, List.foldr_cons, ← named]
    by_cases hn : n = m
    · rw [hn, Finmap.lookup_insert]
    · rw [Finmap.lookup_insert_of_ne _ hn]
      exact ih ((List.mem_cons.mp h).resolve_left hn)

/-- What the rest of a run depends on, and the writes so far. -/
structure Stage (vault : Vault) (faults : List Fault) (writes : List SentWrite) (w : World) :
    Prop where
  vault : w.vault = vault
  faults : w.faults = faults
  writes : w.vaultWrites = writes

variable {v : Vault} {faults : List Fault} {writes : List SentWrite} {secret : Secret}

/-- A read is served if the next fault is none, or if there are no more faults. -/
inductive Serves : List Fault → List Fault → Prop where
  | next (faults : List Fault) : Serves (.none :: faults) faults
  | always : Serves [] []

/-- A read on the way to the refused write is served. -/
theorem read_stage {faults' : List Fault} (h : Serves faults faults') (f : Vault → α) :
    Triple (Stage v faults writes) (request (observe fun w => f w.vault))
      (fun a w => a = f v ∧ Stage v faults' writes w) fun _ _ => False := by
  rintro w ⟨rfl, hfaults, rfl⟩
  cases h with
  | next =>
    simp only [request, hfaults, observe_apply]
    exact ⟨trivial, rfl, rfl, rfl⟩
  | always =>
    simp only [request, hfaults, observe_apply]
    exact ⟨trivial, rfl, hfaults, rfl⟩

/-- When there are no more faults, answers lack nothing. -/
theorem readVaultSecret_stage (path name : String) :
    Triple (Stage v [] writes) (readVaultSecret path name)
      (fun a w => a = (v.secrets.lookup (vaultSecretPath path name)).map Prod.fst ∧
        Stage v [] writes w) fun _ _ => False := by
  refine Triple.bind (triple_observe (Q := fun hollow w => hollow = false ∧ Stage v [] writes w)
    fun w hw => ⟨by rw [hw.faults]; rfl, hw⟩) fun hollow => ?_
  refine Triple.of_fact (c := hollow = false) (fun _ hw => hw.1) ?_
  rintro rfl
  refine Triple.bind
    ((read_stage .always fun v => (v.secrets.lookup (vaultSecretPath path name)).map
    Prod.fst).conseq (fun _ hw => hw.2) (fun _ _ hw => hw) fun _ _ hw => hw) fun a => ?_
  exact triple_pure fun _ hw => hw

/-- A part of `processVaultSecrets` that finds what it would write. -/
theorem found_stage {faults' : List Fault} {read : Op α} {found : α} {m : α → Op Unit}
    (hread : Triple (Stage v faults writes) read (fun a w => a = found ∧ Stage v faults' writes w)
      fun _ _ => False)
    (needed : α → Bool) (hfound : needed found = false) :
    Triple (Stage v faults writes) (read >>= fun a => Proc.whenever (needed a) (m a))
      (fun _ => Stage v faults' writes) fun _ _ => False := by
  refine hread.bind fun a => Triple.of_fact (c := a = found) (fun _ hw => hw.1) ?_
  rintro rfl
  rw [hfound]
  exact triple_pure fun _ hw => hw.2

/-- What is there already is read and not written. -/
theorem ensureVaultPolicy_stage {policyName : String} (policy : String)
    (hfound : v.policies.get policyName ≠ "") (hs : needToRefreshCredentials secret = false)
    (faults : List Fault) :
    Triple (Stage v (.none :: faults) writes) (ensureVaultPolicy policyName policy secret)
      (fun _ => Stage v faults writes) fun _ _ => False :=
  found_stage (read_stage (.next faults) fun v => v.policies.get policyName)
    (fun found => found = "" || needToRefreshCredentials secret) (by simp [hfound, hs])

theorem ensureVaultRole_stage {roleName : String} (role : VaultRole)
    {vault : VaultSecretManagement}
    (hfound : v.roles.lookup (vault.method ++ "/" ++ roleName) ≠ none)
    (hs : needToRefreshCredentials secret = false) (faults : List Fault) :
    Triple (Stage v (.none :: faults) writes) (ensureVaultRole roleName role vault secret)
      (fun _ => Stage v faults writes) fun _ _ => False :=
  found_stage (read_stage (.next faults) fun v => v.roles.lookup (vault.method ++ "/" ++ roleName))
    (fun found => found = none || needToRefreshCredentials secret) (by simp [hfound, hs])

/-- Credentials that are there already are read and not written. -/
theorem processUserCredentials_stage {vault : VaultSecretManagement} {name : String}
    (hfound : v.secrets.lookup (vaultSecretPath vault.path name) ≠ none)
    (hs : needToRefreshCredentials secret = false) (key : String) (generator : PasswordGenerator) :
    Triple (Stage v [] writes) (processUserCredentials vault name key secret generator)
      (fun _ => Stage v [] writes) fun _ _ => False :=
  found_stage (readVaultSecret_stage _ _)
    (fun found => found = none || needToRefreshCredentials secret) (by simp [hfound, hs])

theorem processAdditionalUsersCredentials_stage {cr : ZooKeeperService}
    {vault : VaultSecretManagement}
    (hfound : v.secrets.lookup (vaultSecretPath vault.path
      (vaultSecretName cr.name cr.namespaceName "additional-users")) ≠ none)
    (hs : needToRefreshCredentials secret = false) (generator : PasswordGenerator) :
    Triple (Stage v [] writes) (processAdditionalUsersCredentials cr vault secret generator)
      (fun _ => Stage v [] writes) fun _ _ => False :=
  found_stage (readVaultSecret_stage _ _)
    (fun found => found = none || needToRefreshCredentials secret) (by simp [hfound, hs])

/-- A refused write is on record, and raises its error. -/
theorem vaultRequest_refused {serve : Op α} {why : Failure} (write : VaultWrite)
    (h : w.faults = .refused why :: faults) :
    vaultRequest write serve w = .raised why.error
      { w with faults := faults, vaultWrites := ⟨write, false⟩ :: w.vaultWrites } := by
  have hserves : w.servesNext = false := by rw [World.servesNext, h]
  show request serve { w with vaultWrites := ⟨write, w.servesNext⟩ :: w.vaultWrites } = _
  rw [hserves]
  simp only [request, h]

/-- **The refusal that is not noticed.** -/
theorem writeVaultPasswordPolicy_stage (policyName policy : String) :
    Triple (Stage v (.refused .unavailable :: faults) writes)
      (writeVaultPasswordPolicy policyName policy)
      (fun _ => Stage v faults (⟨.passwordPolicy policyName, false⟩ :: writes))
      fun _ _ => False := by
  rintro w ⟨rfl, hfaults, rfl⟩
  have hrun : writeVaultPasswordPolicy policyName policy w = .ok () { w with
      faults := faults, vaultWrites := ⟨.passwordPolicy policyName, false⟩ :: w.vaultWrites } :=
    recover_handled (vaultRequest_refused _ hfaults) rfl
  rw [hrun]
  exact ⟨rfl, rfl, rfl⟩

/-- The refused write of the password policy is only logged: the step returns all the same. -/
theorem newPasswordGenerator_stage (cr : ZooKeeperService) {vault : VaultSecretManagement}
    (h : vault.passwordGenerationMechanism = "vault") :
    Triple (Stage v [.refused .unavailable] []) (newPasswordGenerator cr vault)
      (fun _ => Stage v [] [⟨.passwordPolicy
        (cr.name ++ "." ++ cr.namespaceName ++ "-password-policy"), false⟩])
      fun _ _ => False := by
  rw [newPasswordGenerator, if_pos h]
  exact (writeVaultPasswordPolicy_stage _ _).bind fun _ => triple_pure fun _ hw => hw

/-- A Secret without data is not cleaned. -/
theorem cleanSecret_stage (c : Component) (hs : needToCleanSecret secret = false) :
    Triple (Stage v faults writes) (cleanSecret c secret) (fun _ => Stage v faults writes)
      fun _ _ => False := by
  have hnote : Triple (Stage v faults writes) (noteVaulted c secret)
      (fun _ => Stage v faults writes) fun _ _ => False :=
    triple_update fun w hw => ⟨hw.vault, hw.faults, hw.writes⟩
  refine hnote.bind fun _ => ?_
  rw [hs]
  exact triple_pure fun _ hw => hw

theorem get_named {names : List String} {n : String} (h : n ∈ names) :
    StringMap.get (named names "policy") n ≠ "" := by
  rw [StringMap.get, lookup_named h]
  decide

theorem lookup_named_ne_none {β : Type} {names : List String} {n : String} (h : n ∈ names)
    (value : β) : (named names value).lookup n ≠ none := by
  rw [lookup_named h]
  exact Option.some_ne_none _

/-- Passwords are to come from Vault, and there are policies to check or not: a run on a Vault
that has all it needs reads so often, and then its one write is refused. -/
def refusalAfter (vault : VaultSecretManagement) (reads : List Fault) : List Fault :=
  (if vault.writePolicies then reads else []) ++ [.refused .unavailable]

/-- The part about policies is there or not, as the custom resource says; the reads in front of the
refused write are counted with it. -/
theorem writePolicies_stage {vault : VaultSecretManagement} {reads : List Fault} {m : Op Unit}
    (h : Triple (Stage v (reads ++ [.refused .unavailable]) []) m
      (fun _ => Stage v [.refused .unavailable] []) fun _ _ => False) :
    Triple (Stage v (refusalAfter vault reads) []) (Proc.whenever vault.writePolicies m)
      (fun _ => Stage v [.refused .unavailable] []) fun _ _ => False := by
  unfold refusalAfter
  refine Triple.whenever (fun hw => ?_) fun hw t ht => ?_
  · rw [hw, if_pos rfl]
    exact h
  · rw [hw] at ht
    exact ht

/-- Vault with all that the servers need. -/
def ZooKeeperResourceProvider.settledVault (p : ZooKeeperResourceProvider)
    (vault : VaultSecretManagement) : Vault where
  policies := named [p.cr.name ++ "." ++ p.cr.namespaceName ++ "-admin-policy",
    p.cr.name ++ "." ++ p.cr.namespaceName ++ "-client-policy"] "policy"
  roles := named [vault.method ++ "/" ++ (p.cr.name ++ "." ++ p.cr.namespaceName ++ "-role")]
    ⟨"", "", [], ""⟩
  secrets := named (["admin-credentials", "client-credentials", "additional-users"].map fun s =>
    vaultSecretPath vault.path (vaultSecretName p.cr.name p.cr.namespaceName s)) (∅, 1)

/-- Vault with all that the backup daemon needs. -/
def BackupDaemonResourceProvider.settledVault (p : BackupDaemonResourceProvider)
    (vault : VaultSecretManagement) : Vault where
  policies := named [p.getServiceName ++ "." ++ p.cr.namespaceName ++ "-policy"] "policy"
  roles := named [vault.method ++ "/" ++ (p.getServiceName ++ "." ++ p.cr.namespaceName ++ "-role")]
    ⟨"", "", [], ""⟩
  secrets := named [vaultSecretPath vault.path
    (vaultSecretName p.getServiceName p.cr.namespaceName "credentials")] (∅, 1)

variable {vault : VaultSecretManagement}

/-- With passwords from Vault, the servers' part returns although its write was refused. -/
theorem zooKeeper_unnoticed (p : ZooKeeperResourceProvider)
    (h : vault.passwordGenerationMechanism = "vault") :
    Triple (Stage (p.settledVault vault) (refusalAfter vault [.none, .none, .none]) [])
      (p.processVaultSecrets vault {})
      (fun _ w => ∃ write, w.vaultWrites = [⟨write, false⟩]) fun _ _ => False := by
  have hs : needToRefreshCredentials {} = false := by decide
  have hclean : needToCleanSecret {} = false := by decide
  have hpolicies : Triple
      (Stage (p.settledVault vault) ([.none, .none, .none] ++ [.refused .unavailable]) [])
      (p.writePolicies vault {})
      (fun _ => Stage (p.settledVault vault) [.refused .unavailable] []) fun _ _ => False := by
    refine (ensureVaultPolicy_stage _ (get_named (by simp)) hs _).bind fun _ => ?_
    refine (ensureVaultRole_stage _ (lookup_named_ne_none (by simp) _) hs _).bind fun _ => ?_
    exact ensureVaultPolicy_stage _ (get_named (by simp)) hs _
  -- making the map of versions is no request
  have hversions : Triple
    (Stage (p.settledVault vault) (refusalAfter vault [.none, .none, .none]) [])
      (Proc.update fun w : World => { w with status := { w.status with
        secretVersions := some (w.status.secretVersions.getD ∅) } } : Op Unit)
      (fun _ => Stage (p.settledVault vault) (refusalAfter vault [.none, .none, .none]) [])
      fun _ _ => False :=
    triple_update fun w hw => ⟨hw.vault, hw.faults, hw.writes⟩
  refine hversions.bind fun _ => (writePolicies_stage hpolicies).bind fun _ => ?_
  refine (newPasswordGenerator_stage p.cr h).bind fun generator => ?_
  refine (processUserCredentials_stage (lookup_named_ne_none (by simp) _) hs _ _).bind fun _ => ?_
  refine (processUserCredentials_stage (lookup_named_ne_none (by simp) _) hs _ _).bind fun _ => ?_
  refine (processAdditionalUsersCredentials_stage (lookup_named_ne_none (by simp) _) hs _).bind
    fun _ => ?_
  exact (cleanSecret_stage _ hclean).conseq (fun _ hw => hw) (fun _ _ hw => ⟨_, hw.writes⟩)
    fun _ _ hf => hf

/-- With passwords from Vault, the backup daemon's part returns although its write was refused. -/
theorem backupDaemon_unnoticed (p : BackupDaemonResourceProvider)
    (h : vault.passwordGenerationMechanism = "vault") :
    Triple (Stage (p.settledVault vault) (refusalAfter vault [.none, .none]) [])
      (p.processVaultSecrets vault {})
      (fun _ w => ∃ write, w.vaultWrites = [⟨write, false⟩]) fun _ _ => False := by
  have hs : needToRefreshCredentials {} = false := by decide
  have hclean : needToCleanSecret {} = false := by decide
  have hpolicies : Triple
      (Stage (p.settledVault vault) ([.none, .none] ++ [.refused .unavailable]) [])
      (p.writePolicies vault {})
      (fun _ => Stage (p.settledVault vault) [.refused .unavailable] []) fun _ _ => False := by
    refine (ensureVaultPolicy_stage _ (get_named (by simp)) hs _).bind fun _ => ?_
    exact ensureVaultRole_stage _ (lookup_named_ne_none (by simp) _) hs _
  refine (writePolicies_stage hpolicies).bind fun _ => ?_
  refine (newPasswordGenerator_stage p.cr h).bind fun generator => ?_
  refine (processUserCredentials_stage (lookup_named_ne_none (by simp) _) hs _ _).bind fun _ => ?_
  exact (cleanSecret_stage _ hclean).conseq (fun _ hw => hw) (fun _ _ hw => ⟨_, hw.writes⟩)
    fun _ _ hf => hf

/-- A run that returns after a refused write cannot be trusted. -/
theorem not_truthful_of_unnoticed {m : Op Secret}
    (h : Triple (Stage v faults []) m (fun _ w => ∃ write, w.vaultWrites = [⟨write, false⟩])
      fun _ _ => False) : ¬ Truthful m := by
  intro htruthful
  let start : World :=
    { cr := none, vault := v, faults := faults
      environment :=
        { observe := fun _ _ => { pods := [], statuses := fun _ => {} }, password := fun _ => "" } }
  obtain ⟨a, w', hrun, write, hwrite⟩ := h.returns (s := start) ⟨rfl, rfl, rfl⟩
  obtain ⟨sent, hsent, hall⟩ := htruthful.returned start a w' hrun
  rw [hwrite, show start.vaultWrites = [] from rfl, List.append_nil] at hsent
  have := hall ⟨write, false⟩ (by rw [← hsent]; exact List.mem_singleton_self _)
  cases this

end Unnoticed

/-- **When the components can be trusted about Vault.** Whatever requests fail, they return and
clean their Secret only after writes that were all accepted — unless passwords are to be
generated by Vault, whose password policy is written without a look at the result. -/
theorem truthful_iff (u : VaultUser) (vault : VaultSecretManagement) :
    (∀ secret, Truthful (u.processVaultSecrets vault secret)) ↔
      (u.generatesPasswords = true → vault.passwordGenerationMechanism ≠ "vault") := by
  cases u with
  | monitoring p =>
    exact iff_of_true (fun secret => (monitoring_concludes vault secret p).truthful)
      fun h => by cases h
  | zooKeeper p =>
    refine ⟨fun h _ hm => not_truthful_of_unnoticed (zooKeeper_unnoticed p hm) (h {}), fun h => ?_⟩
    exact fun secret => (zooKeeper_concludes vault secret p (h rfl)).truthful
  | backupDaemon p =>
    refine ⟨fun h _ hm =>
      not_truthful_of_unnoticed (backupDaemon_unnoticed p hm) (h {}), fun h => ?_⟩
    exact fun secret => (backupDaemon_concludes vault secret p (h rfl)).truthful

/-! ## A Secret that is cleaned too early -/

section Sample

/-- Passwords come from Vault. -/
def vaultPasswords : VaultSecretManagement where
  dockerImage := "vault-env"
  enabled := true
  path := "secret"
  method := "kubernetes"
  passwordGenerationMechanism := "vault"

/-- A Secret of the backup daemon with a user name. -/
def filledSecret : Secret where
  metadata := { name := "backup-daemon-secret", resourceVersion := 1,
                annotations := some (Finmap.insert refreshCredentialsAnnotation "false" ∅) }
  data := some (.ofList [("username", "backup")])

/-- Vault has a password policy of an earlier version and refuses the new one. -/
def refusingWorld : World where
  cr := none
  environment :=
    { observe := fun _ _ => { pods := [], statuses := fun _ => {} }, password := fun _ => "p1_" }
  objects := Function.update (fun _ => ∅) .secret (Store.put (k := .secret) ∅ filledSecret)
  version := 1
  status := { secretVersions := some ∅ }
  vault := { passwordPolicies := .ofList [("zookeeper.zk-password-policy", "length = 4")] }
  faults := [.refused .unavailable]

/-- The call returns, and the Secret is cleaned, with a password by the old policy. -/
theorem not_truthful_refusingWorld :
    let run := (VaultUser.backupDaemon
      ⟨sampleBackedUp, sampleBackupDaemon, rfl⟩).processVaultSecrets
      vaultPasswords filledSecret refusingWorld
    run.returned = true ∧
      run.next.vaultWrites = [⟨.secret "secret/data/zookeeper-backup-daemon.zk/credentials", true⟩,
        ⟨.passwordPolicy "zookeeper.zk-password-policy", false⟩] ∧
      (run.next.get? .secret "backup-daemon-secret").map Secret.data = some none ∧
      ¬ AllAccepted refusingWorld run.next := by
  intro run
  have hreturned : run.returned = true := by decide +kernel
  have hwrites : run.next.vaultWrites =
      [⟨.secret "secret/data/zookeeper-backup-daemon.zk/credentials", true⟩,
        ⟨.passwordPolicy "zookeeper.zk-password-policy", false⟩] := by decide +kernel
  refine ⟨hreturned, hwrites, by decide +kernel, ?_⟩
  rintro ⟨sent, hsent, hall⟩
  rw [hwrites, show refusingWorld.vaultWrites = [] from rfl, List.append_nil] at hsent
  have := hall ⟨.passwordPolicy "zookeeper.zk-password-policy", false⟩ (by rw [← hsent]; simp)
  cases this

end Sample

end QubershipZookeeper.Operator
