import Mathlib.Data.List.TakeWhile
import QubershipZookeeper.ShellText
import QubershipZookeeper.VaultWrites

/-!
# User names through refreshes of the credentials

After the first call of `processVaultSecrets` the Secret of the servers is empty, and Vault is
the only place that knows the users. A refresh of the credentials generates new passwords, and
has to find the names again: in the Secret if a user has filled it in, or else in what Vault has —
for additional users, in the very text that the refresh before has put together.
-/

namespace QubershipZookeeper.Operator

open Proc

/-! ## Lists of users -/

section Users

/-- The names in a list of users, without the empty ones. -/
def userNames (users : String) : List String := (extractUserNames users).filter (· ≠ "")

/-- One user with a password. -/
def userEntry (e : String × String) : String := e.1 ++ ":" ++ e.2

/-- A name that can be read back out of a list. -/
structure ProperName (name : String) : Prop where
  nonempty : name ≠ ""
  colon : ':' ∉ name.toList
  comma : ',' ∉ name.toList

/-- A name that was listed has no separator in it. -/
theorem properName_of_mem {users name : String} (h : name ∈ userNames users) : ProperName name := by
  obtain ⟨hname, hne⟩ := List.mem_filter.mp h
  obtain ⟨item, hitem, rfl⟩ := List.mem_map.mp hname
  have hpart (c : Char) : c ∈ item.takeWhile (· ≠ ':') → c ∈ item :=
    fun hc => (List.takeWhile_sublist _).subset hc
  refine ⟨of_decide_eq_true hne, fun hc => ?_, fun hc => ?_⟩ <;> rw [String.toList_ofList] at hc
  · have := List.mem_takeWhile_imp hc
    simp at this
  · exact Text.notMem_of_mem_splitOn hitem (hpart _ hc)

/-- The name is read back from its entry. -/
theorem takeWhile_userEntry {e : String × String} (h : ProperName e.1) :
    String.ofList ((userEntry e).toList.takeWhile (· ≠ ':')) = e.1 := by
  have hall : ∀ c ∈ e.1.toList, decide (c ≠ ':') = true := by
    intro c hc
    rw [decide_eq_true_eq]
    rintro rfl
    exact h.colon hc
  have hentry : (userEntry e).toList = e.1.toList ++ ':' :: e.2.toList := by
    simp [userEntry]
  rw [hentry, List.takeWhile_append_of_pos hall]
  simp

/-- **The round trip.** What is written for a list of proper names reads as these names. -/
theorem userNames_intercalate {entries : List (String × String)}
    (hnames : ∀ e ∈ entries, ProperName e.1) (hcomma : ∀ e ∈ entries, ',' ∉ e.2.toList) :
    userNames (",".intercalate (entries.map userEntry)) = entries.map Prod.fst := by
  rcases entries with - | ⟨first, rest⟩
  · decide
  · have hsplit : ((",".intercalate ((first :: rest).map userEntry)).toList.splitOn ',')
        = (first :: rest).map fun e => (userEntry e).toList := by
      rw [String.toList_intercalate, List.map_map]
      refine List.splitOn_intercalate ',' (fun item hitem => ?_) (by simp)
      obtain ⟨e, he, rfl⟩ := List.mem_map.mp hitem
      have hname := (hnames e he).comma
      have hpassword := hcomma e he
      simp [userEntry, hname, hpassword]
    have hread : extractUserNames (",".intercalate ((first :: rest).map userEntry))
        = (first :: rest).map Prod.fst := by
      rw [extractUserNames, hsplit, List.map_map]
      exact List.map_congr_left fun e he => takeWhile_userEntry (hnames e he)
    rw [userNames, hread, List.filter_eq_self.mpr]
    intro name hname
    obtain ⟨e, he, rfl⟩ := List.mem_map.mp hname
    exact decide_eq_true (hnames e he).nonempty

end Users

/-! ## What happens in Vault

Triples about the contents of Vault. What the operator generates comes out of the environment,
so the rules keep that as well. -/

section OnVault

variable {α : Type} {environment : Environment} {V V' : Vault → Prop}

/-- The contents of Vault are as `V` says, in the given environment. -/
structure OnVault (environment : Environment) (V : Vault → Prop) (w : World) : Prop where
  environment : w.environment = environment
  vault : V w.vault

/-- Vault and the environment are as they were. -/
structure VaultKept (w w' : World) : Prop where
  environment : w'.environment = w.environment
  vault : w'.vault = w.vault

/-- A fact about Vault survives steps that leave it alone. -/
theorem VaultKept.onVault {w w' : World} (h : VaultKept w w') (hw : OnVault environment V w) :
    OnVault environment V w' :=
  ⟨h.environment.trans hw.environment, h.vault ▸ hw.vault⟩

theorem Touches.vaultKept {T : Set Field} {w w' : World} (h : Touches T w w') (hT : .vault ∉ T) :
    VaultKept w w' :=
  ⟨h.evolves.environment, h.same .vault hT⟩

/-- The rule for such steps. -/
theorem kept_onVault {m : Op α} (h : Within VaultKept m) :
    Triple (OnVault environment V) m (fun _ => OnVault environment V)
      fun _ => OnVault environment V :=
  h.triple fun _ _ hw hk => hk.onVault hw

/-- A read of Vault says what it has. -/
theorem read_onVault (f : Vault → α) :
    Triple (OnVault environment V) (request (observe fun w => f w.vault))
      (fun a => OnVault environment fun v => V v ∧ a = f v) fun _ _ => True := by
  refine request_triple_of_faults (fun w faults _ hw => ⟨hw.environment, hw.vault⟩)
    (triple_observe fun w hw => ⟨hw.environment, hw.vault, rfl⟩) (fun _ _ => trivial)
    fun _ _ _ => trivial

/-- A write to Vault that returns has been made. -/
theorem write_onVault {serve : Op α} (write : VaultWrite)
    (h : Triple (OnVault environment V) serve (fun _ => OnVault environment V') fun _ _ => True) :
    Triple (OnVault environment V) (vaultRequest write serve) (fun _ => OnVault environment V')
      fun _ _ => True := by
  refine Triple.bind (Q := fun _ => OnVault environment V) ?_ fun _ => ?_
  · exact triple_update fun w hw => ⟨hw.environment, hw.vault⟩
  · exact request_triple_of_faults (fun w faults _ hw => ⟨hw.environment, hw.vault⟩) h
      (fun _ _ => trivial) fun _ _ _ => trivial

/-- A generated password comes from the environment. -/
theorem generate_onVault (generator : PasswordGenerator) :
    Triple (OnVault environment V) generator.generate
      (fun password w => OnVault environment V w ∧ ∃ n, password = environment.password n)
      fun _ _ => True := by
  have hnext : Triple (OnVault environment V) nextPassword
      (fun password w => OnVault environment V w ∧ ∃ n, password = environment.password n)
      fun _ _ => True :=
    fun w hw => ⟨⟨hw.environment, hw.vault⟩, w.generated, by rw [hw.environment]⟩
  cases generator with
  | operator => exact hnext
  | vault policyName =>
    refine request_triple_of_faults (fun w faults _ hw => ⟨hw.environment, hw.vault⟩)
      (fun w hw => ?_) (fun _ _ => trivial) fun _ _ _ => trivial
    rcases w.vault.passwordPolicies.lookup policyName with - | policy
    · trivial
    · exact hnext w hw

theorem recordSecretVersion_onVault (secretName : String) (version : ℕ) :
    Triple (OnVault environment V) (recordSecretVersion secretName version)
      (fun _ => OnVault environment V) fun _ => OnVault environment V :=
  kept_onVault fun w => (recordSecretVersion_touches (T := ∅) secretName version w).vaultKept
    (Set.notMem_empty _)

/-- The contents of the secret at a path. -/
def Vault.secretAt (v : Vault) (path : String) : Option StringMap :=
  (v.secrets.lookup path).map Prod.fst

/-- Store a secret in Vault. -/
def Vault.withSecret (v : Vault) (path : String) (secret : StringMap) (version : ℕ) : Vault :=
  { v with secrets := v.secrets.insert path (secret, version) }

/-- A written secret is there with its next version. -/
theorem writeVaultSecret_onVault {path secretName : String} {secret : StringMap}
    (h : ∀ v version, V v → V' (v.withSecret (vaultSecretPath path secretName) secret version)) :
    Triple (OnVault environment V) (writeVaultSecret path secretName secret)
      (fun _ => OnVault environment V') fun _ _ => True :=
  replied_triple (write_onVault _ fun w hw => ⟨hw.environment, h w.vault _ hw.vault⟩)
    fun _ _ _ => trivial

/-- What is read is what is there. -/
theorem readVaultSecret_onVault (path secretName : String) :
    Triple (OnVault environment V) (readVaultSecret path secretName)
      (fun a => OnVault environment fun v => V v ∧ a = v.secretAt (vaultSecretPath path secretName))
      fun _ _ => True :=
  replied_triple (read_onVault fun v => v.secretAt (vaultSecretPath path secretName))
    fun _ _ _ => trivial

end OnVault

/-! ## The credentials of one user, and the additional users -/

section Credentials

variable {environment : Environment} {V V' : Vault → Prop} {secret : Secret}

/-- The generated passwords are passwords. -/
structure ProperPasswords (environment : Environment) : Prop where
  nonempty : ∀ n, environment.password n ≠ ""
  comma : ∀ n, ',' ∉ (environment.password n).toList

/-- The credentials of a user: stored for the name, or not yet stored. -/
def UserAt (path name : String) (v : Vault) : Prop :=
  match v.secretAt path with
  | none => name = ""
  | some m => m.get "username" = name ∧ (m.get "password" ≠ "" ↔ name ≠ "")

/-- The name that a Secret gives, if it gives one. -/
def nextValue (secret : Secret) (key last : String) : String :=
  if secretContainsKey secret key then (secret.data.getD ∅).get key else last

/-- The name that is used next: the one in the Secret, or else the one in Vault. -/
theorem secretOrVaultValue_of_userAt {path name : String} {v : Vault} (h : UserAt path name v)
    (key : String) :
    secretOrVaultValue secret key (v.secretAt path) "username" = nextValue secret key name := by
  unfold secretOrVaultValue nextValue
  unfold UserAt at h
  rcases hfound : v.secretAt path with - | m <;> rw [hfound] at h
  · rw [h]
    rfl
  · rw [Option.getD_some, h.1]

/-- **New credentials keep the name.** -/
theorem processUserCredentials_onVault (hpasswords : ProperPasswords environment)
    {vault : VaultSecretManagement} {name key user : String} (generator : PasswordGenerator)
    (huser : ∀ v, V v → UserAt (vaultSecretPath vault.path name) user v)
    (hneed : ∀ v, V v → v.secretAt (vaultSecretPath vault.path name) = none ∨
      needToRefreshCredentials secret = true)
    (hstored : ∀ v version password, V v → (password ≠ "" ↔ nextValue secret key user ≠ "") →
      V' (v.withSecret (vaultSecretPath vault.path name)
        (.ofList [("username", nextValue secret key user), ("password", password)]) version)) :
    Triple (OnVault environment V) (processUserCredentials vault name key secret generator)
      (fun _ => OnVault environment V') fun _ _ => True := by
  set path := vaultSecretPath vault.path name
  set username := nextValue secret key user
  refine (readVaultSecret_onVault _ _).bind fun found => ?_
  refine Triple.of_fact
    (c := (found = none || needToRefreshCredentials secret) = true ∧
      secretOrVaultValue secret key found "username" = username)
    (fun w hw => ?_) fun ⟨hwrite, hname⟩ => ?_
  · obtain ⟨-, hv, rfl⟩ := hw
    exact ⟨by simpa using hneed _ hv, secretOrVaultValue_of_userAt (huser _ hv) key⟩
  rw [hwrite, whenever_true, hname]
  -- a user without a name gets no password
  have hpassword : Triple (OnVault environment fun v => V v ∧ found = v.secretAt path)
      (if username = "" then pure "" else generator.generate)
      (fun password w => OnVault environment V w ∧ (password ≠ "" ↔ username ≠ ""))
      fun _ _ => True := by
    split
    next hempty =>
      exact triple_pure fun w hw => ⟨⟨hw.environment, hw.vault.1⟩, by simp [hempty]⟩
    next hname =>
      refine (generate_onVault generator).conseq
        (fun _ hw => ⟨hw.environment, hw.vault.1⟩) (fun password w hw => ?_) fun _ _ h => h
      obtain ⟨hw, n, rfl⟩ := hw
      exact ⟨hw, iff_of_true (hpasswords.nonempty n) hname⟩
  refine hpassword.bind fun password => ?_
  refine Triple.of_fact (c := password ≠ "" ↔ username ≠ "") (fun _ hw => hw.2) fun hiff => ?_
  refine Triple.bind (Q := fun _ => OnVault environment V') ?_ fun version => ?_
  · exact (writeVaultSecret_onVault fun v version hv => hstored v version password hv hiff).conseq
      (fun _ hw => hw.1) (fun _ _ h => h) fun _ _ h => h
  · exact (recordSecretVersion_onVault _ _).conseq (fun _ h => h) (fun _ _ h => h)
      fun _ _ _ => trivial

/-- The additional users: stored with passwords for the names, or not yet stored. -/
def UsersAt (path : String) (names : List String) (v : Vault) : Prop :=
  match v.secretAt path with
  | none => names = []
  | some m => ∃ entries : List (String × String), entries.map Prod.fst = names ∧
      (∀ e ∈ entries, ProperName e.1 ∧ e.2 ≠ "" ∧ ',' ∉ e.2.toList) ∧
      m.get "users" = ",".intercalate (entries.map userEntry)

/-- The names that a Secret gives, if it gives any. -/
def nextNames (secret : Secret) (last : List String) : List String :=
  if secretContainsKey secret "additional-users" then
    userNames ((secret.data.getD ∅).get "additional-users")
  else last

/-- The same for the list of additional users. -/
theorem userNames_of_usersAt {path : String} {names : List String} {v : Vault}
    (h : UsersAt path names v) :
    userNames (secretOrVaultValue secret "additional-users" (v.secretAt path) "users")
      = nextNames secret names := by
  unfold secretOrVaultValue nextNames
  split
  · rfl
  · unfold UsersAt at h
    rcases hfound : v.secretAt path with - | m <;> rw [hfound] at h
    · rw [h]
      decide
    · obtain ⟨entries, rfl, hentries, hm⟩ := h
      rw [Option.getD_some, hm]
      exact userNames_intercalate (fun e he => (hentries e he).1) fun e he => (hentries e he).2.2

/-- One new password for each name. -/
theorem generateAll_onVault (hpasswords : ProperPasswords environment) {names : List String}
    (hnames : ∀ name ∈ names, ProperName name) (generator : PasswordGenerator) :
    Triple (OnVault environment V)
      (foldEach names [] fun users username => do
        let password ← generator.generate
        pure (users ++ [username ++ ":" ++ password]))
      (fun users w => OnVault environment V w ∧ ∃ entries : List (String × String),
        users = entries.map userEntry ∧ entries.map Prod.fst = names ∧
          ∀ e ∈ entries, ProperName e.1 ∧ e.2 ≠ "" ∧ ',' ∉ e.2.toList)
      fun _ _ => True := by
  suffices hround : Triple
      (fun w => OnVault environment V w ∧ ∃ entries : List (String × String),
        [] = entries.map userEntry ∧ entries.map Prod.fst = [] ∧
          ∀ e ∈ entries, ProperName e.1 ∧ e.2 ≠ "" ∧ ',' ∉ e.2.toList)
      (foldEach names [] fun users username => generator.generate >>= fun password =>
        pure (users ++ [username ++ ":" ++ password]))
      (fun users w => OnVault environment V w ∧ ∃ entries : List (String × String),
        users = entries.map userEntry ∧ entries.map Prod.fst = names ∧
          ∀ e ∈ entries, ProperName e.1 ∧ e.2 ≠ "" ∧ ',' ∉ e.2.toList)
      fun _ _ => True from
    hround.conseq (fun w hw => ⟨hw, [], rfl, rfl, by simp⟩) (fun _ _ h => h) fun _ _ h => h
  refine foldEach_triple (I := fun done users w => OnVault environment V w ∧
    ∃ entries : List (String × String), users = entries.map userEntry ∧
      entries.map Prod.fst = done ∧ ∀ e ∈ entries, ProperName e.1 ∧ e.2 ≠ "" ∧ ',' ∉ e.2.toList)
    (fun done name rest users hsplit => ?_) []
  -- the next name gets the next password
  refine Triple.of_fact (c := ∃ entries : List (String × String), users = entries.map userEntry ∧
    entries.map Prod.fst = done ∧ ∀ e ∈ entries, ProperName e.1 ∧ e.2 ≠ "" ∧ ',' ∉ e.2.toList)
    (fun _ hw => hw.2) ?_
  rintro ⟨entries, rfl, rfl, hentries⟩
  refine ((generate_onVault (V := V) generator).conseq (fun _ hw => hw.1) (fun _ _ h => h)
    fun _ _ h => h).bind fun password => triple_pure fun w hw => ?_
  obtain ⟨hw, n, rfl⟩ := hw
  refine ⟨hw, entries ++ [(name, environment.password n)], by simp [userEntry], by simp, ?_⟩
  intro e he
  rcases List.mem_append.mp he with he | he
  · exact hentries e he
  · obtain rfl := List.mem_singleton.mp he
    exact ⟨hnames _ (hsplit ▸ by simp), hpasswords.nonempty n, hpasswords.comma n⟩

/-- **New passwords keep the names of the additional users.** -/
theorem processAdditionalUsersCredentials_onVault (hpasswords : ProperPasswords environment)
    {cr : ZooKeeperService} {vault : VaultSecretManagement} {path : String} {names : List String}
    (generator : PasswordGenerator)
    (hpath : path = vaultSecretPath vault.path
      (vaultSecretName cr.name cr.namespaceName "additional-users"))
    (husers : ∀ v, V v → UsersAt path names v)
    (hneed : ∀ v, V v → v.secretAt path = none ∨ needToRefreshCredentials secret = true)
    (hstored : ∀ v version (entries : List (String × String)), V v →
      entries.map Prod.fst = nextNames secret names →
      (∀ e ∈ entries, ProperName e.1 ∧ e.2 ≠ "" ∧ ',' ∉ e.2.toList) →
      V' (v.withSecret path
        (.ofList [("users", ",".intercalate (entries.map userEntry))]) version)) :
    Triple (OnVault environment V) (processAdditionalUsersCredentials cr vault secret generator)
      (fun _ => OnVault environment V') fun _ _ => True := by
  subst hpath
  set path := vaultSecretPath vault.path
    (vaultSecretName cr.name cr.namespaceName "additional-users")
  refine (readVaultSecret_onVault _ _).bind fun found => ?_
  -- whether there is something to write, and for whom, follows from what was read
  refine Triple.of_fact
    (c := (found = none || needToRefreshCredentials secret) = true ∧
      userNames (secretOrVaultValue secret "additional-users" found "users") =
        nextNames secret names)
    (fun w hw => ?_) fun ⟨hwrite, hnames⟩ => ?_
  · obtain ⟨-, hv, rfl⟩ := hw
    exact ⟨by simpa using hneed _ hv, userNames_of_usersAt (husers _ hv)⟩
  rw [hwrite, whenever_true]
  have hproper : ∀ name ∈ nextNames secret names, ProperName name := by
    rw [← hnames]
    exact fun name hname => properName_of_mem hname
  have hgenerate := generateAll_onVault (V := fun v => V v ∧ found = v.secretAt path) hpasswords
    hproper generator
  rw [← hnames] at hgenerate
  refine hgenerate.bind fun users => ?_
  refine Triple.of_fact (c := ∃ entries : List (String × String), users = entries.map userEntry ∧
    entries.map Prod.fst = userNames (secretOrVaultValue secret "additional-users" found "users") ∧
      ∀ e ∈ entries, ProperName e.1 ∧ e.2 ≠ "" ∧ ',' ∉ e.2.toList) (fun _ hw => hw.2) ?_
  rintro ⟨entries, rfl, hfst, hentries⟩
  refine Triple.bind (Q := fun _ => OnVault environment V') ?_ fun version => ?_
  · exact (writeVaultSecret_onVault fun v version hv =>
      hstored v version entries hv (hfst.trans hnames) hentries).conseq
      (fun _ hw => ⟨hw.1.environment, hw.1.vault.1⟩) (fun _ _ h => h) fun _ _ h => h
  · exact (recordSecretVersion_onVault _ _).conseq (fun _ h => h) (fun _ _ h => h)
      fun _ _ _ => trivial

end Credentials

/-! ## Policies and roles -/

section Policies

variable {environment : Environment} {V V' : Vault → Prop} {secret : Secret}

/-- A policy is there already, or is written. -/
theorem ensureVaultPolicy_onVault {policyName policy : String}
    (hfound : ∀ v, V v → v.policies.get policyName ≠ "" → V' v)
    (hwritten : ∀ v, V v → V' { v with policies := v.policies.insert policyName policy }) :
    Triple (OnVault environment V) (ensureVaultPolicy policyName policy secret)
      (fun _ => OnVault environment V') fun _ _ => True := by
  refine (read_onVault fun v => v.policies.get policyName).bind fun found => ?_
  refine Triple.whenever (fun _ => ?_) fun hneed w hw => ?_
  · exact write_onVault _ (triple_update fun w hw => ⟨hw.environment, hwritten _ hw.vault.1⟩)
  · obtain ⟨henv, hv, rfl⟩ := hw
    simp only [Bool.or_eq_false_iff, decide_eq_false_iff_not] at hneed
    exact ⟨henv, hfound _ hv hneed.1⟩

theorem ensureVaultRole_onVault {roleName : String} {role : VaultRole}
    {vault : VaultSecretManagement}
    (hfound : ∀ v, V v → v.roles.lookup (vault.method ++ "/" ++ roleName) ≠ none → V' v)
    (hwritten : ∀ v, V v →
      V' { v with roles := v.roles.insert (vault.method ++ "/" ++ roleName) role }) :
    Triple (OnVault environment V) (ensureVaultRole roleName role vault secret)
      (fun _ => OnVault environment V') fun _ _ => True := by
  refine (read_onVault fun v => v.roles.lookup (vault.method ++ "/" ++ roleName)).bind
    fun found => ?_
  refine Triple.whenever (fun _ => ?_) fun hneed w hw => ?_
  · exact write_onVault _ (triple_update fun w hw => ⟨hw.environment, hwritten _ hw.vault.1⟩)
  · obtain ⟨henv, hv, rfl⟩ := hw
    simp only [Bool.or_eq_false_iff, decide_eq_false_iff_not] at hneed
    exact ⟨henv, hfound _ hv hneed.1⟩

/-- The generator may write its password policy, and nothing else. -/
theorem newPasswordGenerator_onVault (cr : ZooKeeperService) (vault : VaultSecretManagement)
    (hV : ∀ v passwordPolicies, V v → V { v with passwordPolicies := passwordPolicies }) :
    Triple (OnVault environment V) (newPasswordGenerator cr vault)
      (fun _ => OnVault environment V) fun _ _ => True := by
  unfold newPasswordGenerator
  split
  · -- whatever becomes of the write, nothing else changes
    refine Triple.bind (Q := fun _ => OnVault environment V) ?_ fun _ => triple_pure fun _ hw => hw
    refine Triple.recover (E := fun _ => OnVault environment V) ?_ (fun e k hk => ?_)
      fun _ _ _ _ => trivial
    · refine Triple.bind (Q := fun _ => OnVault environment V)
        (triple_update fun w hw => ⟨hw.environment, hw.vault⟩) fun _ => ?_
      refine request_triple_of_faults (fun w faults _ hw => ⟨hw.environment, hw.vault⟩)
        (triple_update fun w hw => ⟨hw.environment, hV _ _ hw.vault⟩) (fun _ hw => hw)
        fun _ _ hw => hw
    · split at hk <;> cases hk
      exact triple_pure fun _ hw => hw
  · exact triple_pure fun _ hw => hw

/-- A policy that is there is not lost by writing one. -/
theorem get_insert_ne_empty {m : StringMap} {name policy n : String} (hpolicy : policy ≠ "")
    (h : n = name ∨ m.get n ≠ "") : StringMap.get (m.insert name policy) n ≠ "" := by
  by_cases hn : n = name
  · rw [hn, StringMap.get, Finmap.lookup_insert]
    exact hpolicy
  · rw [StringMap.get, Finmap.lookup_insert_of_ne _ hn]
    exact h.resolve_left hn

/-- No policy is the empty text, which stands for a missing one. -/
theorem buildVaultPolicy_ne_empty (serviceName : String) (cr : ZooKeeperService)
    (vault : VaultSecretManagement) (pattern : String) :
    buildVaultPolicy serviceName cr vault pattern ≠ "" := by
  intro h
  have := congrArg String.toList h
  simp [buildVaultPolicy] at this

end Policies

/-! ## One call -/

namespace ZooKeeperResourceProvider

variable (p : ZooKeeperResourceProvider) (vault : VaultSecretManagement)

/-- Where the credentials of the servers are. -/
def credentialsPath (credentials : String) : String :=
  vaultSecretPath vault.path (vaultSecretName p.cr.name p.cr.namespaceName credentials)

/-- Vault has the policies and the role of the servers, if the operator is to write them. -/
def Equipped (v : Vault) : Prop :=
  vault.writePolicies = true →
    v.policies.get (p.cr.name ++ "." ++ p.cr.namespaceName ++ "-admin-policy") ≠ "" ∧
    v.roles.lookup (vault.method ++ "/" ++ (p.cr.name ++ "." ++ p.cr.namespaceName ++ "-role"))
      ≠ none ∧
    v.policies.get (p.cr.name ++ "." ++ p.cr.namespaceName ++ "-client-policy") ≠ ""

variable {environment : Environment} {V : Vault → Prop}

/-- The policies and roles leave the secrets alone. -/
theorem writePolicies_onVault {secret : Secret}
    (hV : ∀ v policies roles, V v → V { v with policies := policies, roles := roles }) :
    Triple (OnVault environment V)
      (Proc.whenever vault.writePolicies (p.writePolicies vault secret))
      (fun _ => OnVault environment fun v => V v ∧ p.Equipped vault v) fun _ _ => True := by
  refine Triple.whenever (fun _ => ?_) fun hw w hv => ⟨hv.environment, hv.vault, fun h => ?_⟩
  · set own := p.cr.name ++ "." ++ p.cr.namespaceName
    have hpolicy := buildVaultPolicy_ne_empty p.cr.name p.cr vault
    refine Triple.bind (Q := fun _ => OnVault environment fun v =>
        V v ∧ v.policies.get (own ++ "-admin-policy") ≠ "") ?_ fun _ =>
      Triple.bind (Q := fun _ => OnVault environment fun v =>
        V v ∧ v.policies.get (own ++ "-admin-policy") ≠ "" ∧
          v.roles.lookup (vault.method ++ "/" ++ (own ++ "-role")) ≠ none) ?_ fun _ => ?_
    · exact ensureVaultPolicy_onVault (fun _ hv hfound => ⟨hv, hfound⟩)
        fun v hv => ⟨hV _ _ _ hv, get_insert_ne_empty (hpolicy _) (.inl rfl)⟩
    · refine ensureVaultRole_onVault (fun _ hv hfound => ⟨hv.1, hv.2, hfound⟩)
        fun v hv => ⟨hV _ _ _ hv.1, hv.2, ?_⟩
      rw [Finmap.lookup_insert]
      exact Option.some_ne_none _
    · exact ensureVaultPolicy_onVault (fun _ hv hfound => ⟨hv.1, fun _ => ⟨hv.2.1, hv.2.2, hfound⟩⟩)
        fun v hv => ⟨hV _ _ _ hv.1, fun _ => ⟨get_insert_ne_empty (hpolicy _) (.inr hv.2.1), hv.2.2,
          get_insert_ne_empty (hpolicy _) (.inl rfl)⟩⟩
  · rw [hw] at h
    cases h

/-- The three kinds of credentials have different paths. -/
theorem credentialsPath_injective : Function.Injective (p.credentialsPath vault) := by
  intro a b h
  have hlist := congrArg String.toList h
  simp only [credentialsPath, vaultSecretPath, vaultSecretName, String.toList_append] at hlist
  exact String.toList_inj.mp (List.append_cancel_left (List.append_cancel_left hlist))

end ZooKeeperResourceProvider

section Secrets

variable {v : Vault} {path other : String} {m : StringMap} {n : ℕ}

/-- A written secret is found, and the others stay. -/
theorem secretAt_withSecret_self : (v.withSecret path m n).secretAt path = some m := by
  simp [Vault.secretAt, Vault.withSecret, Finmap.lookup_insert]

theorem secretAt_withSecret_of_ne (h : other ≠ path) :
    (v.withSecret path m n).secretAt other = v.secretAt other := by
  simp [Vault.secretAt, Vault.withSecret, Finmap.lookup_insert_of_ne _ h]

end Secrets

/-- The names in use. -/
structure Names where
  /-- the administrator -/
  admin : String := ""
  /-- the client -/
  client : String := ""
  /-- the additional users -/
  users : List String := []

/-- The names after a call with a Secret. -/
def Names.next (names : Names) (secret : Secret) : Names where
  admin := nextValue secret "admin-username" names.admin
  client := nextValue secret "client-username" names.client
  users := nextNames secret names.users

namespace ZooKeeperResourceProvider

variable (p : ZooKeeperResourceProvider) (vault : VaultSecretManagement)

/-- Vault has the credentials of these users, as far as it has any. -/
structure Keeps (names : Names) (v : Vault) : Prop where
  admin : UserAt (p.credentialsPath vault "admin-credentials") names.admin v
  client : UserAt (p.credentialsPath vault "client-credentials") names.client v
  users : UsersAt (p.credentialsPath vault "additional-users") names.users v

/-- Vault has the credentials with these names. -/
def Stores (credentials : List String) (v : Vault) : Prop :=
  ∀ c ∈ credentials, v.secretAt (p.credentialsPath vault c) ≠ none

/-- The credentials with these names will be written: a refresh is asked for, or there are none. -/
def Due (secret : Secret) (credentials : List String) (v : Vault) : Prop :=
  needToRefreshCredentials secret = true ∨
    ∀ c ∈ credentials, v.secretAt (p.credentialsPath vault c) = none

/-- In the middle of a call: some credentials are written, the others are due. -/
structure Progress (secret : Secret) (names : Names) (done due : List String) (v : Vault) :
    Prop where
  keeps : p.Keeps vault names v
  done : p.Stores vault done v
  due : p.Due vault secret due v
  equipped : p.Equipped vault v

section Progress

variable {p vault} {secret : Secret} {names : Names} {done due : List String} {v : Vault}
  {credentials : String} {m : StringMap} {n : ℕ}

/-- Credentials that have not been processed yet are missing, or are to be refreshed. -/
theorem Progress.isDue (h : p.Progress vault secret names done (credentials :: due) v) :
    v.secretAt (p.credentialsPath vault credentials) = none ∨
      needToRefreshCredentials secret = true := by
  rcases h.due with hrefresh | hnone
  · exact .inr hrefresh
  · exact .inl (hnone credentials List.mem_cons_self)

/-- The next credentials are written. -/
theorem Progress.write (h : p.Progress vault secret names done (credentials :: due) v)
    (hnew : credentials ∉ due) {names' : Names}
    (hkeeps : p.Keeps vault names' (v.withSecret (p.credentialsPath vault credentials) m n)) :
    p.Progress vault secret names' (credentials :: done) due
      (v.withSecret (p.credentialsPath vault credentials) m n) where
  keeps := hkeeps
  done c hc := by
    by_cases hsame : c = credentials
    · rw [hsame, secretAt_withSecret_self]
      exact Option.some_ne_none m
    · rw [secretAt_withSecret_of_ne fun heq => hsame (p.credentialsPath_injective vault heq)]
      exact h.done c ((List.mem_cons.mp hc).resolve_left hsame)
  due := by
    rcases h.due with hrefresh | hnone
    · exact .inl hrefresh
    · refine .inr fun c hc => ?_
      have hne : c ≠ credentials := fun heq => hnew (heq ▸ hc)
      rw [secretAt_withSecret_of_ne fun heq => hne (p.credentialsPath_injective vault heq)]
      exact hnone c (List.mem_cons_of_mem _ hc)
  equipped := h.equipped

end Progress

section Keeping

variable {p vault} {names : Names} {v : Vault} {n : ℕ}

/-- A user stays the same while other secrets are written. -/
theorem userAt_withSecret_of_ne {path other name : String} {m : StringMap} (hne : other ≠ path)
    (h : UserAt other name v) : UserAt other name (v.withSecret path m n) := by
  rw [UserAt, secretAt_withSecret_of_ne hne]
  exact h

/-- A user that was written is there under the name. -/
theorem userAt_withSecret_self {path name password : String}
    (h : password ≠ "" ↔ name ≠ "") :
    UserAt path name
      (v.withSecret path (.ofList [("username", name), ("password", password)]) n) := by
  have hne : "username" ≠ "password" := by decide
  rw [UserAt, secretAt_withSecret_self]
  simpa [StringMap.get, StringMap.ofList, Finmap.lookup_insert, Finmap.lookup_insert_of_ne _ hne]
    using h

theorem usersAt_withSecret_of_ne {path other : String} {users : List String} {m : StringMap}
    (hne : other ≠ path) (h : UsersAt other users v) :
    UsersAt other users (v.withSecret path m n) := by
  rw [UsersAt, secretAt_withSecret_of_ne hne]
  exact h

/-- A written list of users is read back with its names. -/
theorem usersAt_withSecret_self {path : String} {entries : List (String × String)}
    (h : ∀ e ∈ entries, ProperName e.1 ∧ e.2 ≠ "" ∧ ',' ∉ e.2.toList) :
    UsersAt path (entries.map Prod.fst)
      (v.withSecret path (.ofList [("users", ",".intercalate (entries.map userEntry))]) n) := by
  rw [UsersAt, secretAt_withSecret_self]
  refine ⟨entries, rfl, h, ?_⟩
  simp [StringMap.get, StringMap.ofList, Finmap.lookup_insert]

end Keeping

variable {environment : Environment}

/-- **A call keeps the names**, when it writes all credentials: because there are none yet, or
because a refresh is asked for. -/
theorem processVaultSecrets_onVault (hpasswords : ProperPasswords environment) (secret : Secret)
    (names : Names) :
    Triple (OnVault environment fun v => p.Keeps vault names v ∧
        p.Due vault secret ["admin-credentials", "client-credentials", "additional-users"] v)
      (p.processVaultSecrets vault secret)
      (fun _ => OnVault environment
        (p.Progress vault secret (names.next secret)
          ["additional-users", "client-credentials", "admin-credentials"] []))
      fun _ _ => True := by
  have hpath (a b : String) (hne : a ≠ b) : p.credentialsPath vault a ≠ p.credentialsPath vault b :=
    fun heq => hne (p.credentialsPath_injective vault heq)
  refine Triple.bind (Q := fun _ => OnVault environment fun v => p.Keeps vault names v ∧
    p.Due vault secret ["admin-credentials", "client-credentials", "additional-users"] v)
    (triple_update fun w hw => ⟨hw.environment, hw.vault⟩) fun _ => ?_
  refine (p.writePolicies_onVault vault fun v _ _ hv =>
    ⟨⟨hv.1.admin, hv.1.client, hv.1.users⟩, hv.2⟩).bind fun _ => ?_
  refine Triple.bind (Q := fun _ => OnVault environment
    (p.Progress vault secret names []
      ["admin-credentials", "client-credentials", "additional-users"])) ?_ fun generator => ?_
  · refine (newPasswordGenerator_onVault (V := p.Progress vault secret names []
      ["admin-credentials", "client-credentials", "additional-users"]) p.cr vault
      fun v _ hv => ⟨⟨hv.keeps.admin, hv.keeps.client, hv.keeps.users⟩, hv.done, hv.due,
        hv.equipped⟩).conseq (fun w hw => ?_)
      (fun _ _ h => h) fun _ _ h => h
    exact ⟨hw.environment, hw.vault.1.1, fun c hc => absurd hc List.not_mem_nil, hw.vault.1.2,
      hw.vault.2⟩
  refine Triple.bind (Q := fun _ => OnVault environment
    (p.Progress vault secret { names with admin := nextValue secret "admin-username" names.admin }
      ["admin-credentials"] ["client-credentials", "additional-users"])) ?_ fun _ => ?_
  · refine processUserCredentials_onVault hpasswords generator (fun v hv => hv.keeps.admin)
      (fun v hv => hv.isDue) fun v n password hv hiff => hv.write (by decide) ⟨?_, ?_, ?_⟩
    · exact userAt_withSecret_self hiff
    · exact userAt_withSecret_of_ne (hpath _ _ (by decide)) hv.keeps.client
    · exact usersAt_withSecret_of_ne (hpath _ _ (by decide)) hv.keeps.users
  refine Triple.bind (Q := fun _ => OnVault environment
    (p.Progress vault secret
      { names.next secret with users := names.users }
      ["client-credentials", "admin-credentials"] ["additional-users"])) ?_ fun _ => ?_
  · refine processUserCredentials_onVault hpasswords generator (fun v hv => hv.keeps.client)
      (fun v hv => hv.isDue) fun v n password hv hiff => hv.write (by decide) ⟨?_, ?_, ?_⟩
    · exact userAt_withSecret_of_ne (hpath _ _ (by decide)) hv.keeps.admin
    · exact userAt_withSecret_self hiff
    · exact usersAt_withSecret_of_ne (hpath _ _ (by decide)) hv.keeps.users
  refine Triple.bind (Q := fun _ => OnVault environment
    (p.Progress vault secret (names.next secret)
      ["additional-users", "client-credentials", "admin-credentials"] [])) ?_ fun _ => ?_
  · refine processAdditionalUsersCredentials_onVault hpasswords generator rfl
      (fun v hv => hv.keeps.users) (fun v hv => hv.isDue)
      fun v n entries hv hfst hentries => hv.write List.not_mem_nil ⟨?_, ?_, ?_⟩
    · exact userAt_withSecret_of_ne (hpath _ _ (by decide)) hv.keeps.admin
    · exact userAt_withSecret_of_ne (hpath _ _ (by decide)) hv.keeps.client
    · rw [show (names.next secret).users = nextNames secret names.users from rfl, ← hfst]
      exact usersAt_withSecret_self hentries
  -- the cleaning does not concern Vault
  have hclean : Within VaultKept (cleanSecret .zooKeeper secret) := fun w =>
    (cleanSecret_touches (T := {f | f ≠ .vault}) .zooKeeper (fun _ => by simp) w).vaultKept
    (by simp)
  exact (kept_onVault hclean).conseq (fun _ h => h) (fun _ _ h => h) fun _ _ _ => trivial

/-! ## A call that has nothing to refresh -/

/-- Nothing was sent to Vault but the password policy, and that only for passwords from Vault. -/
def OnlyPasswordPolicy (w w' : World) : Prop :=
  ∃ sent, w'.vaultWrites = sent ++ w.vaultWrites ∧ ∀ s ∈ sent,
    vault.passwordGenerationMechanism = "vault" ∧
      s.write = .passwordPolicy (p.cr.name ++ "." ++ p.cr.namespaceName ++ "-password-policy")

/-- Vault has all that a call could write, and so far nothing was written. -/
structure Idle (w₀ w : World) : Prop where
  stores : p.Stores vault ["admin-credentials", "client-credentials", "additional-users"] w.vault
  equipped : p.Equipped vault w.vault
  writes : p.OnlyPasswordPolicy vault w₀ w

section Idle

variable {p vault} {w₀ w w' : World} {α : Type} {secret : Secret}

/-- Nothing has been written as long as Vault and the record are the same. -/
theorem Idle.of_same (h : p.Idle vault w₀ w) (hvault : w'.vault = w.vault)
    (hwrites : w'.vaultWrites = w.vaultWrites) : p.Idle vault w₀ w' := by
  obtain ⟨sent, hsent, hall⟩ := h.writes
  exact ⟨hvault ▸ h.stores, hvault ▸ h.equipped, sent, hwrites.trans hsent, hall⟩

/-- Reads keep it so. -/
theorem read_idle {f : Vault → α} :
    Triple (p.Idle vault w₀) (request (observe fun w => f w.vault))
      (fun a w => p.Idle vault w₀ w ∧ a = f w.vault) fun _ => p.Idle vault w₀ :=
  request_triple_of_faults (fun _ _ _ hw => hw.of_same rfl rfl)
    (triple_observe fun _ hw => ⟨hw, rfl⟩) (fun _ hw => hw) fun _ _ hw => hw.1

theorem readVaultPolicy_idle (policyName : String) :
    Triple (p.Idle vault w₀) (readVaultPolicy policyName)
      (fun a w => p.Idle vault w₀ w ∧ a = w.vault.policies.get policyName)
      fun _ => p.Idle vault w₀ :=
  read_idle (f := fun v => v.policies.get policyName)

theorem readVaultAuthRole_idle (roleName : String) :
    Triple (p.Idle vault w₀) (readVaultAuthRole roleName vault)
      (fun a w => p.Idle vault w₀ w ∧ a = w.vault.roles.lookup (vault.method ++ "/" ++ roleName))
      fun _ => p.Idle vault w₀ :=
  read_idle (f := fun v => v.roles.lookup (vault.method ++ "/" ++ roleName))

theorem readVaultSecret_idle (path secretName : String) :
    Triple (p.Idle vault w₀) (readVaultSecret path secretName)
      (fun a w => p.Idle vault w₀ w ∧ a = w.vault.secretAt (vaultSecretPath path secretName))
      fun _ => p.Idle vault w₀ :=
  replied_triple (read_idle (f := fun v => v.secretAt (vaultSecretPath path secretName)))
    fun _ _ hw => hw.1

/-- A part of the call that finds what it would write. -/
theorem found_idle {read : Op α} {needed : α → Bool} {m : α → Op Unit} (f : Vault → α)
    (hread : Triple (p.Idle vault w₀) read (fun a w => p.Idle vault w₀ w ∧ a = f w.vault)
      fun _ => p.Idle vault w₀)
    (h : ∀ w, p.Idle vault w₀ w → needed (f w.vault) = false) :
    Triple (p.Idle vault w₀) (read >>= fun a => Proc.whenever (needed a) (m a))
      (fun _ => p.Idle vault w₀) fun _ => p.Idle vault w₀ := by
  refine hread.bind fun a => Triple.of_fact (c := needed a = false) (fun w hw => ?_) fun hneed => ?_
  · rw [hw.2]
    exact h w hw.1
  · rw [hneed]
    exact triple_pure fun _ hw => hw.1

/-- A policy that is there is not written again. -/
theorem ensureVaultPolicy_idle {policyName policy : String}
    (hs : needToRefreshCredentials secret = false)
    (h : ∀ w, p.Idle vault w₀ w → w.vault.policies.get policyName ≠ "") :
    Triple (p.Idle vault w₀) (ensureVaultPolicy policyName policy secret)
      (fun _ => p.Idle vault w₀) fun _ => p.Idle vault w₀ :=
  found_idle (fun v => v.policies.get policyName) (readVaultPolicy_idle policyName)
    fun w hw => by simp [h w hw, hs]

theorem ensureVaultRole_idle {roleName : String} {role : VaultRole}
    (hs : needToRefreshCredentials secret = false)
    (h : ∀ w, p.Idle vault w₀ w → w.vault.roles.lookup (vault.method ++ "/" ++ roleName) ≠ none) :
    Triple (p.Idle vault w₀) (ensureVaultRole roleName role vault secret)
      (fun _ => p.Idle vault w₀) fun _ => p.Idle vault w₀ :=
  found_idle (fun v => v.roles.lookup (vault.method ++ "/" ++ roleName))
    (readVaultAuthRole_idle roleName) fun w hw => by simp [h w hw, hs]

/-- Credentials that are there are not written again. -/
theorem processUserCredentials_idle {credentials key : String} (generator : PasswordGenerator)
    (hs : needToRefreshCredentials secret = false)
    (h : credentials ∈ ["admin-credentials", "client-credentials", "additional-users"]) :
    Triple (p.Idle vault w₀)
      (processUserCredentials vault (vaultSecretName p.cr.name p.cr.namespaceName credentials) key
        secret generator)
      (fun _ => p.Idle vault w₀) fun _ => p.Idle vault w₀ :=
  found_idle (fun v => v.secretAt (p.credentialsPath vault credentials)) (readVaultSecret_idle _ _)
    fun w hw => by simp [hw.stores credentials h, hs]

theorem processAdditionalUsersCredentials_idle (generator : PasswordGenerator)
    (hs : needToRefreshCredentials secret = false) :
    Triple (p.Idle vault w₀) (processAdditionalUsersCredentials p.cr vault secret generator)
      (fun _ => p.Idle vault w₀) fun _ => p.Idle vault w₀ :=
  found_idle (fun v => v.secretAt (p.credentialsPath vault "additional-users"))
    (readVaultSecret_idle _ _) fun w hw => by simp [hw.stores "additional-users" (by simp), hs]

/-- The password policy is written in every call. -/
theorem newPasswordGenerator_idle :
    Triple (p.Idle vault w₀) (newPasswordGenerator p.cr vault)
      (fun _ => p.Idle vault w₀) fun _ => p.Idle vault w₀ := by
  unfold newPasswordGenerator
  split
  next hmechanism =>
    refine Triple.bind (Q := fun _ => p.Idle vault w₀) ?_ fun _ => triple_pure fun _ hw => hw
    refine Triple.recover (E := fun _ => p.Idle vault w₀) ?_ (fun e k hk => ?_) fun _ _ _ hw => hw
    · refine Triple.bind (Q := fun _ => p.Idle vault w₀) (triple_update fun w hw => ?_) fun _ => ?_
      · obtain ⟨sent, hsent, hall⟩ := hw.writes
        refine ⟨hw.stores, hw.equipped, ⟨_, _⟩ :: sent, congrArg _ hsent, fun s hs => ?_⟩
        rcases List.mem_cons.mp hs with rfl | hs
        · exact ⟨hmechanism, rfl⟩
        · exact hall s hs
      · refine request_triple_of_faults (fun w _ _ hw => hw.of_same rfl rfl)
          (triple_update fun w hw => ?_) (fun _ hw => hw) fun _ _ hw => hw
        exact ⟨hw.stores, hw.equipped, hw.writes⟩
    · split at hk <;> cases hk
      exact triple_pure fun _ hw => hw
  next => exact triple_pure fun _ hw => hw

/-- Without a request for a refresh a second pass writes nothing. -/
theorem processVaultSecrets_idle (hs : needToRefreshCredentials secret = false) :
    Triple (p.Idle vault w₀) (p.processVaultSecrets vault secret)
      (fun _ => p.Idle vault w₀) fun _ => p.Idle vault w₀ := by
  refine Triple.bind (Q := fun _ => p.Idle vault w₀)
    (triple_update fun w hw => hw.of_same rfl rfl) fun _ => ?_
  refine Triple.bind (Q := fun _ => p.Idle vault w₀) ?_ fun _ => ?_
  · refine Triple.whenever (fun hwrite => ?_) fun _ _ hw => hw
    refine (ensureVaultPolicy_idle hs fun w hw => (hw.equipped hwrite).1).bind fun _ => ?_
    refine (ensureVaultRole_idle hs fun w hw => (hw.equipped hwrite).2.1).bind fun _ => ?_
    exact ensureVaultPolicy_idle hs fun w hw => (hw.equipped hwrite).2.2
  refine newPasswordGenerator_idle.bind fun generator => ?_
  refine (processUserCredentials_idle generator hs (by simp)).bind fun _ => ?_
  refine (processUserCredentials_idle generator hs (by simp)).bind fun _ => ?_
  refine (processAdditionalUsersCredentials_idle generator hs).bind fun _ => ?_
  have hclean : Within (fun w w' => VaultKept w w' ∧ NoWrites w w')
    (cleanSecret .zooKeeper secret) :=
    fun w => ⟨(cleanSecret_touches (T := {f | f ≠ .vault}) .zooKeeper
      (fun _ => by simp) w).vaultKept
      (by simp), cleanSecret_noWrites .zooKeeper secret w⟩
  exact hclean.triple fun _ _ hw hk => hw.of_same hk.1.vault hk.2

end Idle

end ZooKeeperResourceProvider

/-! ## Any number of refreshes -/

/-- Other parties leave the servers' part of Vault alone. -/
structure Undisturbed (w w' : World) : Prop where
  environment : w'.environment = w.environment
  secrets : w'.vault.secrets = w.vault.secrets
  policies : w'.vault.policies = w.vault.policies
  roles : w'.vault.roles = w.vault.roles

/-- The first call with a Secret, and then calls with Secrets that ask for a refresh, all of them
successful. Between the calls anything may happen that leaves Vault alone. -/
inductive Refreshes (p : ZooKeeperResourceProvider) (vault : VaultSecretManagement) (w : World) :
    List Secret → World → Prop where
  /-- the first call -/
  | first {secret stored : Secret} {w' : World}
      (hrun : p.processVaultSecrets vault secret w = .ok stored w') :
      Refreshes p vault w [secret] w'
  /-- one more refresh -/
  | refresh {log : List Secret} {secret stored : Secret} {w₁ w₂ w₃ : World}
      (h : Refreshes p vault w log w₁) (hsame : Undisturbed w₁ w₂)
      (hasked : needToRefreshCredentials secret = true)
      (hrun : p.processVaultSecrets vault secret w₂ = .ok stored w₃) :
      Refreshes p vault w (log ++ [secret]) w₃

/-- The value of a key in the last Secret that contains it. -/
def lastPresent (key : String) (log : List Secret) : Option String :=
  (log.filter fun s => secretContainsKey s key).getLast?.map fun s => (s.data.getD ∅).get key

/-- Vault has the credentials that the Secrets ask for. The additional users are entries of a name
and a password that is not empty; as no name has a comma or a colon and no password a comma, the
string can be taken apart in one way only. -/
structure Preserved (p : ZooKeeperResourceProvider) (vault : VaultSecretManagement)
    (log : List Secret) (v : Vault) : Prop where
  admin : ∃ m, v.secretAt (p.credentialsPath vault "admin-credentials") = some m ∧
    m.get "username" = (lastPresent "admin-username" log).getD "" ∧
    (m.get "password" ≠ "" ↔ m.get "username" ≠ "")
  client : ∃ m, v.secretAt (p.credentialsPath vault "client-credentials") = some m ∧
    m.get "username" = (lastPresent "client-username" log).getD "" ∧
    (m.get "password" ≠ "" ↔ m.get "username" ≠ "")
  users : ∃ m, v.secretAt (p.credentialsPath vault "additional-users") = some m ∧
    userNames (m.get "users") = userNames ((lastPresent "additional-users" log).getD "") ∧
    ∃ entries : List (String × String), m.get "users" = ",".intercalate (entries.map userEntry) ∧
      entries.map Prod.fst = userNames (m.get "users") ∧
      ∀ e ∈ entries, ProperName e.1 ∧ e.2 ≠ "" ∧ ',' ∉ e.2.toList

/-- The names that the Secrets of a run ask for. -/
def namesOf (log : List Secret) : Names where
  admin := (lastPresent "admin-username" log).getD ""
  client := (lastPresent "client-username" log).getD ""
  users := userNames ((lastPresent "additional-users" log).getD "")

/-- The last value that a key was given. -/
theorem lastPresent_concat (key : String) (log : List Secret) (secret : Secret) :
    lastPresent key (log ++ [secret]) =
      if secretContainsKey secret key then some ((secret.data.getD ∅).get key)
      else lastPresent key log := by
  unfold lastPresent
  rw [List.filter_append]
  split
  next h => simp [h]
  next h => simp [h]

/-- The names after one more pass follow from the names before it. -/
theorem namesOf_concat (log : List Secret) (secret : Secret) :
    namesOf (log ++ [secret]) = (namesOf log).next secret := by
  simp only [namesOf, Names.next, nextValue, nextNames, lastPresent_concat]
  congr 1 <;> split <;> rfl

theorem namesOf_nil : namesOf [] = {} := by
  have husers : userNames "" = [] := by decide
  simp only [namesOf, lastPresent, List.filter_nil, List.getLast?_nil, Option.map_none,
    Option.getD_none, husers]

section Run

variable {p : ZooKeeperResourceProvider} {vault : VaultSecretManagement} {w w' : World}
  {log : List Secret}

/-- After the calls Vault has everything, for the names that were asked for. -/
structure Settled (p : ZooKeeperResourceProvider) (vault : VaultSecretManagement)
    (log : List Secret) (v : Vault) : Prop where
  keeps : p.Keeps vault (namesOf log) v
  stores : p.Stores vault ["admin-credentials", "client-credentials", "additional-users"] v
  equipped : p.Equipped vault v

/-- At the end of a pass all three kinds of credentials are settled. -/
theorem settled_of_progress {secret : Secret} {v : Vault}
    (h : p.Progress vault secret ((namesOf log).next secret)
      ["additional-users", "client-credentials", "admin-credentials"] [] v) :
    Settled p vault (log ++ [secret]) v := by
  refine ⟨namesOf_concat log secret ▸ h.keeps, fun c hc => h.done c ?_, h.equipped⟩
  simp only [List.mem_cons, List.not_mem_nil, or_false] at hc ⊢
  tauto

/-- The first call. -/
theorem keeps_of_fresh {v : Vault}
    (h : ∀ c ∈ ["admin-credentials", "client-credentials", "additional-users"],
      v.secretAt (p.credentialsPath vault c) = none) : p.Keeps vault (namesOf []) v := by
  rw [namesOf_nil]
  constructor
  · rw [UserAt, h _ (by simp)]
  · rw [UserAt, h _ (by simp)]
  · rw [UsersAt, h _ (by simp)]

/-- What others do besides Vault does not unsettle them. -/
theorem Settled.undisturbed (h : Settled p vault log w.vault) (hw : Undisturbed w w') :
    Settled p vault log w'.vault := by
  have hsecret (path : String) : w'.vault.secretAt path = w.vault.secretAt path := by
    rw [Vault.secretAt, Vault.secretAt, hw.secrets]
  refine ⟨⟨?_, ?_, ?_⟩, fun c hc => ?_, fun hwrite => ?_⟩
  · rw [UserAt, hsecret]
    exact h.keeps.admin
  · rw [UserAt, hsecret]
    exact h.keeps.client
  · rw [UsersAt, hsecret]
    exact h.keeps.users
  · rw [hsecret]
    exact h.stores c hc
  · rw [hw.policies, hw.roles]
    exact h.equipped hwrite

/-- After the first call and any number of refreshes all credentials are settled, under the last
names given. -/
theorem settled_of_refreshes (hpasswords : ProperPasswords w.environment)
    (hfresh : ∀ c ∈ ["admin-credentials", "client-credentials", "additional-users"],
      w.vault.secretAt (p.credentialsPath vault c) = none)
    (h : Refreshes p vault w log w') :
    w'.environment = w.environment ∧ Settled p vault log w'.vault := by
  induction h with
  | first hrun =>
    have hdone := (p.processVaultSecrets_onVault vault hpasswords _ (namesOf [])).ok
      ⟨rfl, keeps_of_fresh hfresh, .inr hfresh⟩ hrun
    exact ⟨hdone.environment, settled_of_progress hdone.vault⟩
  | refresh h hsame hasked hrun ih =>
    obtain ⟨henv, hsettled⟩ := ih
    have hdone := (p.processVaultSecrets_onVault vault hpasswords _ _).ok
      ⟨hsame.environment.trans henv, (hsettled.undisturbed hsame).keeps, .inl hasked⟩ hrun
    exact ⟨hdone.environment, settled_of_progress hdone.vault⟩

/-- What is settled is preserved. -/
theorem Settled.preserved {v : Vault} (h : Settled p vault log v) : Preserved p vault log v := by
  have huser {credentials name : String} (hat : UserAt (p.credentialsPath vault credentials) name v)
      (hmem : credentials ∈ ["admin-credentials", "client-credentials", "additional-users"]) :
      ∃ m, v.secretAt (p.credentialsPath vault credentials) = some m ∧ m.get "username" = name ∧
        (m.get "password" ≠ "" ↔ m.get "username" ≠ "") := by
    obtain ⟨m, hm⟩ := Option.ne_none_iff_exists'.mp (h.stores credentials hmem)
    rw [UserAt, hm] at hat
    exact ⟨m, hm, hat.1, hat.1 ▸ hat.2⟩
  refine ⟨huser h.keeps.admin (by simp), huser h.keeps.client (by simp), ?_⟩
  obtain ⟨m, hm⟩ := Option.ne_none_iff_exists'.mp (h.stores "additional-users" (by simp))
  have hat := h.keeps.users
  rw [UsersAt, hm] at hat
  obtain ⟨entries, hfst, hentries, husers⟩ := hat
  have hnames : userNames (m.get "users") = entries.map Prod.fst := by
    rw [husers]
    exact userNames_intercalate (fun e he => (hentries e he).1) fun e he => (hentries e he).2.2
  exact ⟨m, hm, hnames.trans hfst, entries, husers, hnames.symm, hentries⟩

/-- **Refreshes keep the users.** After the first call and any number of refreshes, Vault has the
names of the last Secrets that gave them, each with a password; and a further call that has nothing
to refresh writes nothing but the password policy. -/
theorem preserved_of_refreshes (hpasswords : ProperPasswords w.environment)
    (hfresh : ∀ c ∈ ["admin-credentials", "client-credentials", "additional-users"],
      w.vault.secretAt (p.credentialsPath vault c) = none)
    (h : Refreshes p vault w log w') :
    Preserved p vault log w'.vault ∧
      ∀ (w'' : World) (secret : Secret), Undisturbed w' w'' →
        needToRefreshCredentials secret = false →
        p.OnlyPasswordPolicy vault w'' (p.processVaultSecrets vault secret w'').next := by
  obtain ⟨-, hsettled⟩ := settled_of_refreshes hpasswords hfresh h
  refine ⟨hsettled.preserved, fun w'' secret hsame hs => ?_⟩
  have hlater := hsettled.undisturbed hsame
  have hidle : p.Idle vault w'' w'' :=
    ⟨hlater.stores, hlater.equipped, [], rfl, fun _ hs => absurd hs List.not_mem_nil⟩
  have hrun := ZooKeeperResourceProvider.processVaultSecrets_idle hs w'' hidle
  rcases hr : p.processVaultSecrets vault secret w'' with ⟨a, t⟩ | ⟨e, t⟩ <;> rw [hr] at hrun
  · exact hrun.writes
  · exact hrun.writes

end Run

/-! ## A run -/

section Sample

/-- The section of the servers. -/
def plainServers : ZooKeeper where
  dockerImage := "zookeeper"
  replicas := 1
  storage := { size := .of "1Gi" }
  snapshotStorage := { volumeSize := .of "1Gi" }
  heapSize := 256
  secretName := "zookeeper-secret"

/-- The servers whose users are refreshed. -/
def plainProvider : ZooKeeperResourceProvider where
  cr := { name := "zookeeper", namespaceName := "zk", spec := { zooKeeper := some plainServers } }
  spec := plainServers
  spec_eq := rfl

/-- A Secret with an administrator and a list of users with gaps. -/
def usersSecret : Secret where
  metadata := { name := "zookeeper-secret", resourceVersion := 1,
                annotations := some (Finmap.insert refreshCredentialsAnnotation "false" ∅) }
  data := some (.ofList [("admin-username", "admin"), ("additional-users", "ann:x,,bob")])

/-- The same Secret after it was cleaned, with a request for new passwords. -/
def askingSecret : Secret where
  metadata :=
    { name := "zookeeper-secret", resourceVersion := 2
      annotations := some (Finmap.insert refreshCredentialsAnnotation "true" ∅) }

/-- A cluster with the Secret, and an empty Vault. -/
def usersWorld : World where
  cr := none
  environment :=
    { observe := fun _ _ => { pods := [], statuses := fun _ => {} }, password := fun _ => "p1_" }
  objects := Function.update (fun _ => ∅) .secret (Store.put (k := .secret) ∅ usersSecret)
  version := 1

/-- What a call leaves behind. -/
def afterCall (vault : VaultSecretManagement) (secret : Secret) (w : World) : World :=
  (plainProvider.processVaultSecrets vault secret w).next

/-- A call that returns. -/
theorem runs_of_returned (vault : VaultSecretManagement) (secret : Secret) (w : World)
    (h : (plainProvider.processVaultSecrets vault secret w).returned = true) :
    ∃ stored, plainProvider.processVaultSecrets vault secret w
      = .ok stored (afterCall vault secret w) := by
  obtain ⟨stored, t, hrun⟩ := Outcome.returned_iff.mp h
  refine ⟨stored, ?_⟩
  rw [afterCall, hrun]
  rfl

/-- The first call. -/
theorem refreshes_usersWorld :
    Refreshes plainProvider vaultPasswords usersWorld [usersSecret]
      (afterCall vaultPasswords usersSecret usersWorld) := by
  obtain ⟨_, hfirst⟩ := runs_of_returned vaultPasswords usersSecret usersWorld (by decide +kernel)
  exact .first hfirst

/-- The first call, and a refresh after the Secret was cleaned. -/
theorem preserved_usersWorld :
    let w' := afterCall vaultPasswords askingSecret
      (afterCall vaultPasswords usersSecret usersWorld)
    Refreshes plainProvider vaultPasswords usersWorld [usersSecret, askingSecret] w' ∧
      Preserved plainProvider vaultPasswords [usersSecret, askingSecret] w'.vault := by
  intro w'
  obtain ⟨_, hsecond⟩ := runs_of_returned vaultPasswords askingSecret
    (afterCall vaultPasswords usersSecret usersWorld) (by decide +kernel)
  have hrun : Refreshes plainProvider vaultPasswords usersWorld [usersSecret, askingSecret] w' :=
    .refresh refreshes_usersWorld ⟨rfl, rfl, rfl, rfl⟩ (by decide) hsecond
  have hpasswords : ProperPasswords usersWorld.environment :=
    ⟨fun _ => show "p1_" ≠ "" by decide, fun _ => show ',' ∉ "p1_".toList by decide⟩
  exact ⟨hrun, (preserved_of_refreshes hpasswords (by decide +kernel) hrun).1⟩

/-- With passwords from Vault, a call that has nothing to refresh writes the password policy
again. -/
theorem not_idle_usersWorld :
    let w' := afterCall vaultPasswords usersSecret usersWorld
    Refreshes plainProvider vaultPasswords usersWorld [usersSecret] w' ∧
      needToRefreshCredentials { usersSecret with data := none } = false ∧
      (afterCall vaultPasswords { usersSecret with data := none } w').vaultWrites =
        ⟨.passwordPolicy "zookeeper.zk-password-policy", true⟩ :: w'.vaultWrites :=
  ⟨refreshes_usersWorld, by decide, by decide +kernel⟩

end Sample

end QubershipZookeeper.Operator
