import QubershipZookeeper.ServiceReconciler
import QubershipZookeeper.ZooKeeperProvider
import QubershipZookeeper.MonitoringProvider
import QubershipZookeeper.BackupDaemonProvider

/-!
# Credentials in Vault

`vault_client.go` with `zookeeper_vault.go`, `monitoring_vault.go` and
`backupdaemon_vault.go`. When Vault is on, `processVaultSecrets` of a component writes the
component's policies and roles, generates its credentials — when they are missing, or when
the Secret asks for a **refresh** — and then cleans the Secret of its data.
-/

namespace QubershipZookeeper.Operator

/-! ## The client -/

/-- `checkVaultConnectionParameters`. -/
def checkVaultConnectionParameters (vault : VaultSecretManagement) : Except GoError Unit :=
  if vault.url = "" then .error (.message "vault: Vault connection URL is empty")
  else if vault.method = "" then .error (.message "vault: Vault authentication method is empty")
  else if vault.role = "" then .error (.message "vault: Vault operator role is empty")
  else if vault.path = "" then .error (.message "vault: Vault secret store path is empty")
  else .ok ()

/-- `InitVaultClient`: check the parameters and log in. An answer without a token has no `Auth`. -/
def initVaultClient (vault : VaultSecretManagement) : Op Unit := do
  Proc.lift (checkVaultConnectionParameters vault)
  replied .nilDereference (request (pure ()))

/-- Will the next request be served? -/
def World.servesNext (w : World) : Bool :=
  match w.faults with
  | .refused _ :: _ => false
  | _ => true

/-- Record that a write is sent to Vault, and what will become of it. -/
def noteVaultWrite (write : VaultWrite) : Op Unit :=
  Proc.update fun w => { w with vaultWrites := ⟨write, w.servesNext⟩ :: w.vaultWrites }

/-- Send a write to Vault. -/
def vaultRequest {α : Type} (write : VaultWrite) (serve : Op α) : Op α := do
  noteVaultWrite write
  request serve

/-- Change what is stored in Vault. -/
def vaultWrite (write : VaultWrite) (f : Vault → Vault) : Op Unit :=
  vaultRequest write (Proc.update fun w => { w with vault := f w.vault })

/-- The path of a secret, `%s/data/%s`. -/
def vaultSecretPath (path secretName : String) : String := path ++ "/data/" ++ secretName

/-- `ReadVaultSecret`. The answer for a secret whose last version was deleted has `nil` in place
of the data, and the type assertion on it panics. -/
def readVaultSecret (path secretName : String) : Op (Option StringMap) :=
  replied .typeAssertion (request (Proc.observe fun w =>
    (w.vault.secrets.lookup (vaultSecretPath path secretName)).map Prod.fst))

/-- `WriteVaultSecret`: store a new version and return its number, which the answer must have. -/
def writeVaultSecret (path secretName : String) (secret : StringMap) : Op ℕ :=
  replied .typeAssertion (vaultRequest (.secret (vaultSecretPath path secretName)) fun w =>
    let secretPath := vaultSecretPath path secretName
    let version := ((w.vault.secrets.lookup secretPath).map Prod.snd).getD 0 + 1
    .ok version { w with vault := { w.vault with
      secrets := w.vault.secrets.insert secretPath (secret, version) } })

/-- `ReadVaultPolicy`: the empty text for a policy that is missing. -/
def readVaultPolicy (policyName : String) : Op String :=
  request (Proc.observe fun w => w.vault.policies.get policyName)

/-- `WriteVaultPolicy`. -/
def writeVaultPolicy (policyName policy : String) : Op Unit :=
  vaultWrite (.policy policyName) fun v =>
    { v with policies := v.policies.insert policyName policy }

/-- `ReadVaultAuthRole`. -/
def readVaultAuthRole (roleName : String) (vault : VaultSecretManagement) : Op (Option VaultRole) :=
  request (Proc.observe fun w => w.vault.roles.lookup (vault.method ++ "/" ++ roleName))

/-- `WriteVaultAuthRole`. -/
def writeVaultAuthRole (roleName : String) (role : VaultRole) (vault : VaultSecretManagement) :
    Op Unit :=
  vaultWrite (.role (vault.method ++ "/" ++ roleName)) fun v =>
    { v with roles := v.roles.insert (vault.method ++ "/" ++ roleName) role }

/-- `BuildVaultPolicy`. -/
def buildVaultPolicy (serviceName : String) (cr : ZooKeeperService) (vault : VaultSecretManagement)
    (secretNamePattern : String) : String :=
  "path \"" ++ vaultSecretPath vault.path
    (vaultSecretName serviceName cr.namespaceName secretNamePattern) ++
    "\" \n\x7b\n\tcapabilities = [\"read\", \"list\"]\n\x7d"

/-- `BuildVaultRole`. -/
def buildVaultRole (serviceAccountName : String) (cr : ZooKeeperService)
    (policyNames : List String) : VaultRole :=
  ⟨serviceAccountName, cr.namespaceName, policyNames, "30m"⟩

/-- `BuildVaultPasswordPolicy`. -/
def buildVaultPasswordPolicy : String :=
  "length = 10" ++
    "rule \"charset\" \x7b" ++
    "\tcharset = \"abcdefghijklmnopqrstuvwxyz\"" ++ "\tmin-chars = 3" ++ "\x7d" ++
    "rule \"charset\" \x7b" ++
    "\tcharset = \"ABCDEFGHIJKLMNOPQRSTUVWXYZ\"" ++ "\tmin-chars = 3" ++ "\x7d" ++
    "rule \"charset\" \x7b" ++
    "\t\tcharset = \"0123456789\"" ++ "\tmin-chars = 1" ++ "\x7d" ++
    "rule \"charset\" \x7b" ++ "\tcharset = \"_!" ++ "\tmin-chars = 1" ++ "\x7d"

/-! ## Passwords -/

/-- A `PasswordGenerator`. -/
inductive PasswordGenerator where
  /-- `OperatorPasswordGenerator` -/
  | operator
  /-- `VaultPasswordGenerator` -/
  | vault (passwordPolicyName : String)

/-- Take the next password. -/
def nextPassword : Op String := fun w =>
  .ok (w.environment.password w.generated) { w with generated := w.generated + 1 }

/-- `Generate`: Vault generates passwords only for a policy that it has. -/
def PasswordGenerator.generate : PasswordGenerator → Op String
  | operator => nextPassword
  | vault passwordPolicyName => request fun w =>
    match w.vault.passwordPolicies.lookup passwordPolicyName with
    | some _ => nextPassword w
    | none => .raised (.api .unavailable) w

/-- `WriteVaultPasswordPolicy`: an error of the request is only logged. -/
def writeVaultPasswordPolicy (policyName policy : String) : Op Unit :=
  (vaultWrite (.passwordPolicy policyName) fun v => { v with
    passwordPolicies := v.passwordPolicies.insert policyName policy }).recover
    fun e => if e.isPanic then none else some (pure ())

/-- The choice of the password generator, with `NewVaultPasswordGenerator`. -/
def newPasswordGenerator (cr : ZooKeeperService) (vault : VaultSecretManagement) :
    Op PasswordGenerator :=
  if vault.passwordGenerationMechanism = "vault" then do
    let policyName := cr.name ++ "." ++ cr.namespaceName ++ "-password-policy"
    writeVaultPasswordPolicy policyName buildVaultPasswordPolicy
    pure (.vault policyName)
  else pure .operator

/-! ## Refreshing and cleaning -/

/-- `refreshCredentialsAnnotation`. -/
def refreshCredentialsAnnotation : String := "vault.netcracker.com/refresh-credentials"

/-- `needToRefreshCredentials`. -/
def needToRefreshCredentials (secret : Secret) : Bool :=
  (secret.metadata.annotations.getD ∅).get refreshCredentialsAnnotation = "true"

/-- `needToCleanSecret`. Without entries, `secret.Data` is nil: an empty map is nil when it is
fetched. -/
def needToCleanSecret (secret : Secret) : Bool :=
  secret.metadata.name ≠ "" && (secret.data.getD ∅ ≠ ∅ || needToRefreshCredentials secret)

/-- `secret.Annotations[refreshCredentialsAnnotation] = "false"`, which panics on a nil map, and
an empty map is nil when it is fetched; and `secret.Data = nil`. -/
def cleanedSecret (secret : Secret) : Except Panic Secret :=
  let annotations := secret.metadata.annotations.getD ∅
  if annotations = ∅ then .error .nilMapWrite
  else
    .ok { metadata := { secret.metadata with
            annotations := some (annotations.insert refreshCredentialsAnnotation "false") }
          data := none }

/-- A Secret with annotations can be cleaned, and this is what becomes of it. -/
theorem cleanedSecret_ok_iff {secret cleaned : Secret} :
    cleanedSecret secret = .ok cleaned ↔ secret.metadata.annotations.getD ∅ ≠ ∅ ∧
      cleaned = { metadata := { secret.metadata with
                    annotations := some ((secret.metadata.annotations.getD ∅).insert
                      refreshCredentialsAnnotation "false") }
                  data := none } := by
  unfold cleanedSecret
  by_cases h : secret.metadata.annotations.getD ∅ = ∅
  · simp [h]
  · simp [h, eq_comm]

/-- A cleaned Secret keeps its name. -/
theorem name_cleanedSecret {secret cleaned : Secret} (h : cleanedSecret secret = .ok cleaned) :
    cleaned.metadata.name = secret.metadata.name := by
  obtain ⟨-, rfl⟩ := cleanedSecret_ok_iff.mp h
  rfl

/-- A Secret that has been cleaned does not ask for new credentials. -/
theorem needToRefreshCredentials_cleanedSecret {secret cleaned : Secret}
    (h : cleanedSecret secret = .ok cleaned) : needToRefreshCredentials cleaned = false := by
  obtain ⟨-, rfl⟩ := cleanedSecret_ok_iff.mp h
  simp [needToRefreshCredentials, StringMap.get, Finmap.lookup_insert]

/-- The passage of a Secret, as a list: a Secret that was not found has none. -/
def passageOf (c : Component) (secret : Secret) : List Passage :=
  if secret.metadata.name = "" then []
  else [⟨c, secret.metadata.name, secret.metadata.resourceVersion⟩]

/-- Record that a Secret has been through `processVaultSecrets`. -/
def noteVaulted (c : Component) (secret : Secret) : Op Unit :=
  Proc.update fun w => { w with vaulted := passageOf c secret ++ w.vaulted }

/-- The end of `processVaultSecrets`: clean the Secret if it needs cleaning
(`cleanSecretData`) and remember its new version. The version that the cleaning makes has
been through the apply branch with the one before it. -/
def cleanSecret (c : Component) (secret : Secret) : Op Secret := do
  noteVaulted c secret
  if needToCleanSecret secret then do
    let cleaned ← build (cleanedSecret secret)
    let stored ← clientUpdate .secret cleaned
    Proc.update fun w => { w with
      resourceVersions :=
        w.resourceVersions.insert stored.metadata.name stored.metadata.resourceVersion
      applied := passageOf c stored ++ w.applied
      vaulted := passageOf c stored ++ w.vaulted }
    pure stored
  else pure secret

/-! ## Policies, roles and credentials -/

/-- Write a policy that is missing, or that a refresh asks for. -/
def ensureVaultPolicy (policyName policy : String) (secret : Secret) : Op Unit := do
  let found ← readVaultPolicy policyName
  Proc.whenever (found = "" || needToRefreshCredentials secret) (writeVaultPolicy policyName policy)

/-- Write a role that is missing, or that a refresh asks for. -/
def ensureVaultRole (roleName : String) (role : VaultRole) (vault : VaultSecretManagement)
    (secret : Secret) : Op Unit := do
  let found ← readVaultAuthRole roleName vault
  Proc.whenever (found = none || needToRefreshCredentials secret)
    (writeVaultAuthRole roleName role vault)

/-- `SecretVersions[secretName] = version`. -/
def recordSecretVersion (secretName : String) (version : ℕ) : Op Unit := fun w =>
  match w.status.secretVersions with
  | some versions => .ok () { w with status := { w.status with
      secretVersions := some (versions.insert secretName version) } }
  | none => .raised (.panic .nilMapWrite) w

/-- The value of a key: that of the Secret, or else the one that Vault has. -/
def secretOrVaultValue (secret : Secret) (key : String) (found : Option StringMap)
    (vaultKey : String) : String :=
  if secretContainsKey secret key then (secret.data.getD ∅).get key
  else (found.getD ∅).get vaultKey

/-- The pattern of `processAdminCredentials`, `processClientCredentials` and
`processCredentials`: keep the user name, and generate a password for it. -/
def processUserCredentials (vault : VaultSecretManagement)
    (credentialsSecretName usernameKey : String)
    (secret : Secret) (generator : PasswordGenerator) : Op Unit := do
  let found ← readVaultSecret vault.path credentialsSecretName
  Proc.whenever (found = none || needToRefreshCredentials secret) do
    let username := secretOrVaultValue secret usernameKey found "username"
    let password ← (if username = "" then pure "" else generator.generate)
    let version ← writeVaultSecret vault.path credentialsSecretName
      (.ofList [("username", username), ("password", password)])
    recordSecretVersion credentialsSecretName version

/-- `extractUserNames`. -/
def extractUserNames (userNames : String) : List String :=
  (userNames.toList.splitOn ',').map fun user => .ofList (user.takeWhile (· ≠ ':'))

/-- `processAdditionalUsersCredentials`. -/
def processAdditionalUsersCredentials (cr : ZooKeeperService) (vault : VaultSecretManagement)
    (secret : Secret) (generator : PasswordGenerator) : Op Unit := do
  let additionalUsersSecretName := vaultSecretName cr.name cr.namespaceName "additional-users"
  let found ← readVaultSecret vault.path additionalUsersSecretName
  Proc.whenever (found = none || needToRefreshCredentials secret) do
    let userNames := extractUserNames (secretOrVaultValue secret "additional-users" found "users")
    let users ← Proc.foldEach (userNames.filter (· ≠ "")) [] fun users username => do
      let password ← generator.generate
      pure (users ++ [username ++ ":" ++ password])
    let version ← writeVaultSecret vault.path additionalUsersSecretName
      (.ofList [("users", ",".intercalate users)])
    recordSecretVersion additionalUsersSecretName version

/-! ## The components -/

namespace ZooKeeperResourceProvider

variable (p : ZooKeeperResourceProvider) (vault : VaultSecretManagement)

/-- `processAdminCredentials`. -/
def processAdminCredentials (secret : Secret) (generator : PasswordGenerator) : Op Unit :=
  processUserCredentials vault (vaultSecretName p.cr.name p.cr.namespaceName "admin-credentials")
    "admin-username" secret generator

/-- `processClientCredentials`. -/
def processClientCredentials (secret : Secret) (generator : PasswordGenerator) : Op Unit :=
  processUserCredentials vault (vaultSecretName p.cr.name p.cr.namespaceName "client-credentials")
    "client-username" secret generator

/-- The policies and the role of the servers. -/
def writePolicies (secret : Secret) : Op Unit := do
  let prefixed := fun suffix => p.cr.name ++ "." ++ p.cr.namespaceName ++ suffix
  ensureVaultPolicy (prefixed "-admin-policy") (buildVaultPolicy p.cr.name p.cr vault "*") secret
  ensureVaultRole (prefixed "-role")
    (buildVaultRole p.getServiceAccountName p.cr [prefixed "-admin-policy"]) vault secret
  ensureVaultPolicy (prefixed "-client-policy")
    (buildVaultPolicy p.cr.name p.cr vault "client-credentials") secret

/-- `processVaultSecrets` of ZooKeeper. -/
def processVaultSecrets (secret : Secret) : Op Secret := do
  Proc.update fun w => { w with status := { w.status with
    secretVersions := some (w.status.secretVersions.getD ∅) } }
  Proc.whenever vault.writePolicies (p.writePolicies vault secret)
  let generator ← newPasswordGenerator p.cr vault
  p.processAdminCredentials vault secret generator
  p.processClientCredentials vault secret generator
  processAdditionalUsersCredentials p.cr vault secret generator
  cleanSecret .zooKeeper secret

end ZooKeeperResourceProvider

namespace MonitoringResourceProvider

variable (p : MonitoringResourceProvider) (vault : VaultSecretManagement)

/-- The policy and the role of the agent. -/
def writePolicies (secret : Secret) : Op Unit := do
  let policyName := p.getServiceName ++ "." ++ p.cr.namespaceName ++ "-policy"
  let clientPolicyName := p.cr.name ++ "." ++ p.cr.namespaceName ++ "-client-policy"
  ensureVaultPolicy policyName (buildVaultPolicy p.getServiceName p.cr vault "*") secret
  ensureVaultRole (p.getServiceName ++ "." ++ p.cr.namespaceName ++ "-role")
    (buildVaultRole p.getServiceAccountName p.cr [policyName, clientPolicyName]) vault secret

/-- `processVaultSecrets` of Monitoring. -/
def processVaultSecrets (secret : Secret) : Op Secret := do
  Proc.whenever vault.writePolicies (p.writePolicies vault secret)
  cleanSecret .monitoring secret

end MonitoringResourceProvider

namespace BackupDaemonResourceProvider

variable (p : BackupDaemonResourceProvider) (vault : VaultSecretManagement)

/-- The policy and the role of the daemon. -/
def writePolicies (secret : Secret) : Op Unit := do
  let policyName := p.getServiceName ++ "." ++ p.cr.namespaceName ++ "-policy"
  let adminPolicyName := p.cr.name ++ "." ++ p.cr.namespaceName ++ "-admin-policy"
  ensureVaultPolicy policyName (buildVaultPolicy p.getServiceName p.cr vault "*") secret
  ensureVaultRole (p.getServiceName ++ "." ++ p.cr.namespaceName ++ "-role")
    (buildVaultRole p.getServiceAccountName p.cr [policyName, adminPolicyName]) vault secret

/-- `processCredentials`. -/
def processCredentials (secret : Secret) (generator : PasswordGenerator) : Op Unit :=
  processUserCredentials vault (vaultSecretName p.getServiceName p.cr.namespaceName "credentials")
    "username" secret generator

/-- `processVaultSecrets` of the backup daemon. -/
def processVaultSecrets (secret : Secret) : Op Secret := do
  Proc.whenever vault.writePolicies (p.writePolicies vault secret)
  let generator ← newPasswordGenerator p.cr vault
  p.processCredentials vault secret generator
  cleanSecret .backupDaemon secret

end BackupDaemonResourceProvider

end QubershipZookeeper.Operator
