import QubershipZookeeper.StoredUsers
import QubershipZookeeper.ShellText

/-!
# References to Vault, and who may read them

With Vault on, the pods get references `vault:/<path>#<key>` instead of credentials, and a role
under which they log in to resolve them. The references, the paths of the secrets, the rules of the
policies, and the names of policies and roles are put together in different places from the name and
the namespace of the custom resource and the path in its Vault section.

What Vault has of these is written only when it is missing, or when a Secret asks for a refresh. So
nothing of it is ever lost, and what Vault has belongs to the path it was written for
(`Site.Follows`). As long as that path stays as it is, Vault has what the pods of a component need
(`Site.needs`), and they can resolve their references (`Site.Suits`); when it is edited, the
policies still speak about the old one.
-/

namespace QubershipZookeeper.Operator

open Proc Text

/-! ## What Vault and the pods do with it -/

/-- The path in the rule of a policy. -/
def rulePath (policy : String) : Option Text :=
  if "path \"".toList.isPrefixOf policy.toList then some (cutAt '"' (policy.toList.drop 6)).1
  else none

/-- A path that ends in a star grants by prefix, any other path grants itself. -/
def grants (rule path : Text) : Bool :=
  if rule.getLast? = some '*' then rule.dropLast.isPrefixOf path else rule = path

/-- A login with a role may read a path. -/
def Vault.Readable (v : Vault) (role path : String) : Prop :=
  ∃ r, v.roles.lookup role = some r ∧ ∃ name ∈ r.policies, ∃ rule,
    rulePath (v.policies.get name) = some rule ∧ grants rule path.toList = true

/-- The path and the key of a reference. -/
def reference (value : String) : Option (String × String) :=
  if "vault:/".toList.isPrefixOf value.toList then
    some (.ofList (cutAt '#' (value.toList.drop 7)).1, .ofList (cutAt '#' (value.toList.drop 7)).2)
  else none

/-- The value of a variable; the last one counts. -/
def valueOf (env : List EnvVar) (name : String) : Option String :=
  ((env.filter fun e => e.name = name).getLast?).map EnvVar.value

/-- The variables with credentials. -/
def credentialsVariables : List String :=
  ["ADMIN_USERNAME", "ADMIN_PASSWORD", "CLIENT_USERNAME", "CLIENT_PASSWORD", "ADDITIONAL_USERS",
   "ZOOKEEPER_CLIENT_USERNAME", "ZOOKEEPER_CLIENT_PASSWORD",
   "BACKUP_DAEMON_API_CREDENTIALS_USERNAME",
   "BACKUP_DAEMON_API_CREDENTIALS_PASSWORD", "ZOOKEEPER_ADMIN_USERNAME", "ZOOKEEPER_ADMIN_PASSWORD"]

/-- A reference in an environment is to a secret with the key, and the role of the environment may
read it. -/
structure Resolves (v : Vault) (env : List EnvVar) (path key : String) : Prop where
  stored : ∃ secret, v.secretAt path = some secret ∧ key ∈ secret
  readable : ∃ method role, valueOf env "VAULT_PATH" = some method ∧
    valueOf env "VAULT_ROLE" = some role ∧ v.Readable (method ++ "/" ++ role) path

/-- The pods of a Deployment can resolve the references to their credentials. -/
def Deployment.Resolved (d : Deployment) (v : Vault) : Prop :=
  ∀ c ∈ d.podSpec.containers, ∀ e ∈ c.env, e.name ∈ credentialsVariables →
    ∀ path key, reference e.value = some (path, key) → Resolves v c.env path key

/-! ## What Vault should have -/

/-- What all the names are made of. -/
structure Site where
  /-- the name of the custom resource -/
  name : String
  /-- its namespace -/
  namespaceName : String
  /-- the path in its Vault section -/
  path : String

/-- The policies. -/
inductive PolicyKind where
  | admin | client | monitoring | backupDaemon

/-- The secrets. -/
inductive CredentialsKind where
  | admin | client | additional | daemon

namespace Site

variable (site : Site)

/-- The name of a component. -/
def service : Component → String
  | .zooKeeper => site.name
  | .monitoring => site.name ++ "-monitoring"
  | .backupDaemon => site.name ++ "-backup-daemon"

def policyName : PolicyKind → String
  | .admin => site.service .zooKeeper ++ "." ++ site.namespaceName ++ "-admin-policy"
  | .client => site.service .zooKeeper ++ "." ++ site.namespaceName ++ "-client-policy"
  | .monitoring => site.service .monitoring ++ "." ++ site.namespaceName ++ "-policy"
  | .backupDaemon => site.service .backupDaemon ++ "." ++ site.namespaceName ++ "-policy"

/-- The path of a secret of a component. -/
def secretOf (c : Component) (secret : String) : String :=
  vaultSecretPath site.path (vaultSecretName (site.service c) site.namespaceName secret)

/-- The path in the rule of a policy. -/
def policyRule : PolicyKind → String
  | .admin => site.secretOf .zooKeeper "*"
  | .client => site.secretOf .zooKeeper "client-credentials"
  | .monitoring => site.secretOf .monitoring "*"
  | .backupDaemon => site.secretOf .backupDaemon "*"

def policyText (k : PolicyKind) : String :=
  "path \"" ++ site.policyRule k ++ "\" \n\x7b\n\tcapabilities = [\"read\", \"list\"]\n\x7d"

def roleName (c : Component) : String := site.service c ++ "." ++ site.namespaceName ++ "-role"

/-- The policies of a role. -/
def rolePolicies : Component → List String
  | .zooKeeper => [site.policyName .admin]
  | .monitoring => [site.policyName .monitoring, site.policyName .client]
  | .backupDaemon => [site.policyName .backupDaemon, site.policyName .admin]

def secretPath : CredentialsKind → String
  | .admin => site.secretOf .zooKeeper "admin-credentials"
  | .client => site.secretOf .zooKeeper "client-credentials"
  | .additional => site.secretOf .zooKeeper "additional-users"
  | .daemon => site.secretOf .backupDaemon "credentials"

end Site

/-- The keys of a secret. -/
def CredentialsKind.keys : CredentialsKind → List String
  | additional => ["users"]
  | _ => ["username", "password"]

/-- Something that Vault can have. -/
inductive Item where
  | policy (k : PolicyKind)
  | role (c : Component) (method : String)
  | secret (s : CredentialsKind)

/-- The secrets a component refers to. -/
def credentialsOf : Component → List CredentialsKind
  | .zooKeeper => [.admin, .client, .additional]
  | .monitoring => [.client]
  | .backupDaemon => [.daemon, .admin]

/-- The policies a component reads them with. -/
def policiesOf : Component → List PolicyKind
  | .zooKeeper => [.admin]
  | .monitoring => [.client]
  | .backupDaemon => [.backupDaemon, .admin]

/-- What Vault must have for the pods of a component that log in with a method. -/
def needs (c : Component) (method : String) : List Item :=
  .role c method :: (policiesOf c).map .policy ++ (credentialsOf c).map .secret

/-- What the servers bring along for all components. -/
def serverItems : List Item :=
  [.policy .admin, .policy .client, .secret .admin, .secret .client, .secret .additional]

namespace Site

variable (site : Site)

/-- The names are such that nothing in them is special in a rule, a reference or a key. -/
structure Proper : Prop where
  name : Avoids ['"', '#', '/'] site.name.toList
  namespaceName : Avoids ['"', '#', '/'] site.namespaceName.toList
  path : Avoids ['"', '#'] site.path.toList

/-- What Vault has under these names is what belongs there. -/
structure Follows (v : Vault) : Prop where
  policies : ∀ k, v.policies.get (site.policyName k) = "" ∨
    v.policies.get (site.policyName k) = site.policyText k
  roles : ∀ c method r, v.roles.lookup (method ++ "/" ++ site.roleName c) = some r →
    r.policies = site.rolePolicies c
  secrets : ∀ s secret, v.secretAt (site.secretPath s) = some secret → ∀ key ∈ s.keys, key ∈ secret

/-- Vault has an item. -/
def Has (v : Vault) : Item → Prop
  | .policy k => v.policies.get (site.policyName k) ≠ ""
  | .role c method => v.roles.lookup (method ++ "/" ++ site.roleName c) ≠ none
  | .secret s => v.secretAt (site.secretPath s) ≠ none

/-- The references of an environment are those of a component. -/
def Refers (c : Component) (env : List EnvVar) : Prop :=
  ∀ e ∈ env, e.name ∈ credentialsVariables → ∀ path key, reference e.value = some (path, key) →
    ∃ s ∈ credentialsOf c, path = site.secretPath s ∧ key ∈ s.keys

/-- The references of an environment are those of a component, and so is its role. -/
structure Suits (c : Component) (method : String) (env : List EnvVar) : Prop where
  references : site.Refers c env
  method : valueOf env "VAULT_PATH" = some method
  role : valueOf env "VAULT_ROLE" = some (site.roleName c)

/-- A Deployment whose pods find in Vault what they need. -/
def Served (v : Vault) (d : Deployment) : Prop :=
  ∃ c method, (∀ container ∈ d.podSpec.containers, site.Suits c method container.env) ∧
    ∀ i ∈ needs c method, site.Has v i

end Site

/-! ## Names -/

section Names

variable (site : Site)

/-- The names that a site makes are different for different things. -/
theorem Site.policyName_injective : Function.Injective site.policyName := by
  intro k k' h
  have hlist := congrArg String.toList h
  cases k <;> cases k' <;>
    simp [Site.policyName, Site.service, String.toList_append, List.append_assoc] at hlist ⊢

theorem Site.secretPath_injective : Function.Injective site.secretPath := by
  intro s s' h
  have hlist := congrArg String.toList h
  cases s <;> cases s' <;>
    simp [Site.secretPath, Site.secretOf, Site.service, vaultSecretPath, vaultSecretName,
      String.toList_append, List.append_assoc] at hlist ⊢

variable {site}

theorem Site.Proper.notMem_roleName (h : site.Proper) (c : Component) :
    '/' ∉ (site.roleName c).toList := by
  have hname : '/' ∉ site.name.toList := h.name.notMem (by decide)
  have hnamespace : '/' ∉ site.namespaceName.toList := h.namespaceName.notMem (by decide)
  cases c <;>
    simp [Site.roleName, Site.service, String.toList_append, hname, hnamespace]

theorem Site.service_injective (site : Site) : Function.Injective site.service := by
  intro c c' h
  have hlist := congrArg String.toList h
  cases c <;> cases c' <;> simp [Site.service, String.toList_append] at hlist ⊢

/-- The key of a role determines the method and the component. -/
theorem Site.Proper.role_inj (h : site.Proper) {c c' : Component} {method method' : String}
    (heq : method ++ "/" ++ site.roleName c = method' ++ "/" ++ site.roleName c') :
    method = method' ∧ c = c' := by
  have hlist : method.toList ++ '/' :: (site.roleName c).toList =
      method'.toList ++ '/' :: (site.roleName c').toList := by
    have := congrArg String.toList heq
    simp only [String.toList_append, List.append_assoc] at this
    exact this
  have hmethod : method.toList = method'.toList := by
    rw [← beforeLast_append (h.notMem_roleName c) method.toList, hlist,
      beforeLast_append (h.notMem_roleName c')]
  have hmethod := String.toList_inj.mp hmethod
  subst hmethod
  refine ⟨rfl, site.service_injective ?_⟩
  have hrole := (String.append_right_inj _).mp heq
  simpa only [Site.roleName, String.append_left_inj] using hrole

end Names

/-! ## Rules and references -/

section Reading

variable {site : Site}

/-- The path of a secret has no quote in it that would end a rule, and no hash that would end a
reference. -/
theorem Site.Proper.notMem_secretOf (h : site.Proper) (c : Component) {secret : String} {x : Char}
    (hsecret : x ∉ secret.toList) (hx : x = '"' ∨ x = '#') :
    x ∉ (site.secretOf c secret).toList := by
  have hname : x ∉ site.name.toList := h.name.notMem (by simp; tauto)
  have hnamespace : x ∉ site.namespaceName.toList := h.namespaceName.notMem (by simp; tauto)
  have hpath : x ∉ site.path.toList := h.path.notMem (by simp; tauto)
  rcases hx with rfl | rfl <;> cases c <;>
    simp [Site.secretOf, vaultSecretPath, vaultSecretName, Site.service,
      String.toList_append, hname,
      hnamespace, hpath, hsecret]

/-- The rule of a policy is read as it was written. -/
theorem Site.Proper.rulePath_policyText (h : site.Proper) (k : PolicyKind) :
    rulePath (site.policyText k) = some (site.policyRule k).toList := by
  have hrule : '"' ∉ (site.policyRule k).toList := by
    cases k <;> exact h.notMem_secretOf _ (by decide) (.inl rfl)
  have htext : (site.policyText k).toList =
    "path \"".toList ++ ((site.policyRule k).toList ++ '"' ::
      " \n\x7b\n\tcapabilities = [\"read\", \"list\"]\n\x7d".toList) := by
    simp only [Site.policyText, String.toList_append, List.append_assoc]
    rfl
  rw [rulePath, htext, if_pos (List.isPrefixOf_iff_prefix.mpr (List.prefix_append _ _)),
    List.drop_left' (show "path \"".toList.length = 6 from rfl), cutAt_append hrule]

/-- No policy is the empty text. -/
theorem Site.policyText_ne_empty (site : Site) (k : PolicyKind) : site.policyText k ≠ "" := by
  intro h
  have := congrArg String.toList h
  simp [Site.policyText] at this

theorem rulePath_empty : rulePath "" = none := by decide

/-- A reference is read as it was written. -/
theorem Site.Proper.reference_source (h : site.Proper) (c : Component)
    {secret : String} (key : String)
    (hsecret : '#' ∉ secret.toList) :
    reference ("vault:/" ++ site.secretOf c secret ++ "#" ++ key) =
      some (site.secretOf c secret, key) := by
  have hpath := h.notMem_secretOf c hsecret (.inr rfl)
  have htext : ("vault:/" ++ site.secretOf c secret ++ "#" ++ key).toList =
      "vault:/".toList ++ ((site.secretOf c secret).toList ++ '#' :: key.toList) := by
    simp only [String.toList_append, List.append_assoc]
    rfl
  rw [reference, htext, if_pos (List.isPrefixOf_iff_prefix.mpr (List.prefix_append _ _)),
    List.drop_left' (show "vault:/".toList.length = 7 from rfl), cutAt_append hpath,
    String.ofList_toList, String.ofList_toList]

/-- A rule with a star grants what is below it. -/
theorem grants_star (dir file : Text) : grants (dir ++ ['*']) (dir ++ file) = true := by
  rw [grants, List.getLast?_concat, if_pos rfl, List.dropLast_concat]
  simp

theorem grants_self {rule : Text} (h : rule.getLast? ≠ some '*') : grants rule rule = true := by
  rw [grants, if_neg h]
  simp

theorem Site.secretOf_toList (site : Site) (c : Component) (secret : String) :
    (site.secretOf c secret).toList =
      (vaultSecretPath site.path (site.service c ++ "." ++ site.namespaceName ++ "/")).toList ++
        secret.toList := by
  simp only [Site.secretOf, vaultSecretPath, vaultSecretName, String.toList_append,
    List.append_assoc]

/-- The policy of a component grants all secrets of the component. -/
theorem Site.grants_secretOf (site : Site) (c : Component) (secret : String) :
    grants (site.secretOf c "*").toList (site.secretOf c secret).toList = true := by
  rw [site.secretOf_toList, site.secretOf_toList]
  exact grants_star _ _

/-- The policy of the clients is about one path only. -/
theorem Site.client_ne_star (site : Site) :
    (site.secretOf .zooKeeper "client-credentials").toList.getLast? ≠ some '*' := by
  rw [site.secretOf_toList, List.getLast?_append,
    show "client-credentials".toList.getLast? = some 's' by decide, Option.some_or]
  decide

/-- A policy of a component grants each of its secrets. -/
theorem Site.grants_credentials (site : Site) {c : Component} {s : CredentialsKind}
    (hs : s ∈ credentialsOf c) :
    ∃ k ∈ policiesOf c, site.policyName k ∈ site.rolePolicies c ∧
      grants (site.policyRule k).toList (site.secretPath s).toList = true := by
  cases c with
  | zooKeeper =>
    refine ⟨.admin, by simp [policiesOf], by simp [Site.rolePolicies], ?_⟩
    cases s with
    | daemon => simp [credentialsOf] at hs
    | _ => exact site.grants_secretOf .zooKeeper _
  | monitoring =>
    refine ⟨.client, by simp [policiesOf], by simp [Site.rolePolicies], ?_⟩
    cases s with
    | client =>
      exact grants_self site.client_ne_star
    | _ => simp [credentialsOf] at hs
  | backupDaemon =>
    cases s with
    | daemon =>
      exact ⟨.backupDaemon, by simp [policiesOf], by simp [Site.rolePolicies],
        site.grants_secretOf .backupDaemon _⟩
    | admin =>
      exact ⟨.admin, by simp [policiesOf], by simp [Site.rolePolicies],
        site.grants_secretOf .zooKeeper _⟩
    | _ => simp [credentialsOf] at hs

/-- The policies of the agent do not grant the credentials of the administrator. -/
theorem Site.not_grants_admin (site : Site) {k : PolicyKind}
    (hk : site.policyName k ∈ site.rolePolicies .monitoring) :
    grants (site.policyRule k).toList (site.secretPath .admin).toList = false := by
  simp only [Site.rolePolicies, List.mem_cons, List.not_mem_nil, or_false] at hk
  rcases hk with hk | hk <;> obtain rfl := site.policyName_injective hk
  · -- the names part after the name of the resource
    rw [Bool.eq_false_iff, Site.policyRule, site.secretOf_toList, Site.secretPath, grants,
      show "*".toList = ['*'] from rfl, List.getLast?_concat, if_pos rfl, List.dropLast_concat,
      Ne, List.isPrefixOf_iff_prefix, site.secretOf_toList]
    simp [vaultSecretPath, Site.service, String.toList_append, List.append_assoc,
      List.prefix_append_right_inj]
  · rw [Bool.eq_false_iff, Site.policyRule, grants, if_neg, Ne, decide_eq_true_iff, Site.secretPath,
      String.toList_inj, Site.secretOf, Site.secretOf]
    · simp [vaultSecretPath, vaultSecretName]
    · exact site.client_ne_star

/-- **References resolve** if Vault follows the names, and has what the pods need. -/
theorem Site.Served.resolved {d : Deployment} {v : Vault} (h : site.Served v d)
    (hproper : site.Proper) (hv : site.Follows v) : d.Resolved v := by
  obtain ⟨c, method, hsuits, hhas⟩ := h
  intro container hcontainer e he hname path key href
  obtain ⟨s, hs, rfl, hkey⟩ := (hsuits container hcontainer).references e he hname path key href
  obtain ⟨k, hk, hmem, hgrants⟩ := site.grants_credentials hs
  have hrole := hhas (.role c method) (by simp [needs])
  have hpolicy := hhas (.policy k) (by simp [needs, hk])
  have hsecret := hhas (.secret s) (by simp [needs, hs])
  obtain ⟨secret, hsecret⟩ := Option.ne_none_iff_exists'.mp hsecret
  obtain ⟨r, hr⟩ := Option.ne_none_iff_exists'.mp hrole
  have htext := (hv.policies k).resolve_left hpolicy
  refine ⟨⟨secret, hsecret, hv.secrets s secret hsecret key hkey⟩, method, site.roleName c,
    (hsuits container hcontainer).method, (hsuits container hcontainer).role, r, hr,
    site.policyName k, ?_, (site.policyRule k).toList, ?_, hgrants⟩
  · rw [hv.roles c method r hr]
    exact hmem
  · rw [htext, hproper.rulePath_policyText]

/-- The role of the agent does not read the credentials of the administrator. -/
theorem Site.Follows.not_readable_admin {v : Vault} (hv : site.Follows v) (hproper : site.Proper)
    (method : String) :
    ¬ v.Readable (method ++ "/" ++ site.roleName .monitoring) (site.secretPath .admin) := by
  rintro ⟨r, hr, name, hname, rule, hrule, hgrants⟩
  rw [hv.roles .monitoring method r hr] at hname
  obtain ⟨k, rfl⟩ : ∃ k, name = site.policyName k := by
    simp only [Site.rolePolicies, List.mem_cons, List.not_mem_nil, or_false] at hname
    exact hname.elim (fun h => ⟨_, h⟩) fun h => ⟨_, h⟩
  rcases hv.policies k with hempty | htext
  · rw [hempty, rulePath_empty] at hrule
    cases hrule
  · rw [htext, hproper.rulePath_policyText] at hrule
    cases hrule
    rw [site.not_grants_admin hname] at hgrants
    cases hgrants

end Reading

/-! ## The environments of the components -/

section Environments

variable {env more : List EnvVar}

/-- Later variables of other names do not matter. -/
theorem valueOf_append_left {n : String} (h : ∀ e ∈ more, e.name ≠ n) :
    valueOf (env ++ more) n = valueOf env n := by
  have hnone : more.filter (fun e => e.name = n) = [] :=
    List.filter_eq_nil_iff.mpr fun e he => by simpa using h e he
  rw [valueOf, List.filter_append, hnone, List.append_nil, valueOf]

theorem valueOf_append_right {n value : String} (h : valueOf more n = some value) :
    valueOf (env ++ more) n = some value := by
  obtain ⟨e, he, rfl⟩ := Option.map_eq_some_iff.mp h
  rw [valueOf, List.filter_append, List.getLast?_append, he, Option.some_or, Option.map_some]

/-- The names of the variables a pod logs in with. -/
def loginVariables : List String := ["VAULT_PATH", "VAULT_ROLE"]

/-- Variables that neither bring credentials from Vault nor replace the login. -/
structure Plain (env : List EnvVar) : Prop where
  reference : ∀ e ∈ env, e.name ∈ credentialsVariables → reference e.value = none
  login : ∀ e ∈ env, e.name ∉ loginVariables

/-- Variables of other names are plain, whatever their values are. -/
theorem plain_of_names
    (h : ∀ n ∈ env.map EnvVar.name, n ∉ credentialsVariables ∧ n ∉ loginVariables) : Plain env where
  reference e he hname := absurd hname (h e.name (List.mem_map_of_mem he)).1
  login e he := (h e.name (List.mem_map_of_mem he)).2

theorem plain_nil : Plain [] := plain_of_names (by simp)

theorem plain_append (h : Plain env) (hmore : Plain more) : Plain (env ++ more) where
  reference e he := (List.mem_append.mp he).elim (h.reference e) (hmore.reference e)
  login e he := (List.mem_append.mp he).elim (h.login e) (hmore.login e)

theorem plain_ite {b : Prop} [Decidable b] (h : Plain env) (hmore : Plain more) :
    Plain (if b then env else more) := by
  split
  · exact h
  · exact hmore

theorem plain_elim {α : Type} {f : α → List EnvVar} (h : ∀ a, Plain (f a)) (o : Option α) :
    Plain (o.elim [] f) := by
  cases o with
  | none => exact plain_nil
  | some a => exact h a

variable {site : Site} {c : Component} {method : String}

/-- A plain environment refers to nothing. -/
theorem Plain.refers (h : Plain env) : site.Refers c env := fun e he hname path key href => by
  cases (h.reference e he hname).symm.trans href

theorem Site.Refers.append (h : site.Refers c env) (hmore : site.Refers c more) :
    site.Refers c (env ++ more) :=
  fun e he => (List.mem_append.mp he).elim (h e) (hmore e)

/-- Plain variables do not disturb a suitable environment. -/
theorem Site.Suits.append (h : site.Suits c method env) (hmore : Plain more) :
    site.Suits c method (env ++ more) where
  references := h.references.append hmore.refers
  method := by
    rw [valueOf_append_left fun e he hn =>
      hmore.login e he (by simp [loginVariables, hn]), h.method]
  role := by
    rw [valueOf_append_left fun e he hn => hmore.login e he (by simp [loginVariables, hn]), h.role]

/-- The connection to Vault brings the login. -/
theorem Site.Refers.login (h : site.Refers c env) (vault : VaultSecretManagement) :
    site.Suits c vault.method
      (env ++ getVaultConnectionEnvVars (site.service c) vault site.namespaceName) where
  references := h.append fun e he hname => by
    simp only [getVaultConnectionEnvVars, List.mem_cons, List.not_mem_nil, or_false] at he
    rcases he with rfl | rfl | rfl | rfl | rfl <;> simp [credentialsVariables] at hname
  method := valueOf_append_right (by simp [getVaultConnectionEnvVars, valueOf])
  role := valueOf_append_right (by simp [getVaultConnectionEnvVars, valueOf, Site.roleName])

end Environments

/-- The names for a custom resource with a Vault section. -/
def ZooKeeperService.site (cr : ZooKeeperService) (vault : VaultSecretManagement) : Site :=
  ⟨cr.name, cr.namespaceName, vault.path⟩

/-- A reference is made of the path that the site gives the secret. -/
theorem getVaultSecretEnvVarSource_eq (cr : ZooKeeperService) (vault : VaultSecretManagement)
    (c : Component) (secret key : String) :
    getVaultSecretEnvVarSource ((cr.site vault).service c) vault cr.namespaceName secret key =
      "vault:/" ++ (cr.site vault).secretOf c secret ++ "#" ++ key := by
  simp only [getVaultSecretEnvVarSource, Site.secretOf, vaultSecretPath, String.append_assoc]
  rfl

/-- A reference is to the secret it names. -/
theorem Site.Proper.reference_envVarSource {cr : ZooKeeperService} {vault : VaultSecretManagement}
    (h : (cr.site vault).Proper) (c : Component) {secret : String} (key : String)
    (hsecret : '#' ∉ secret.toList) :
    reference (getVaultSecretEnvVarSource ((cr.site vault).service c) vault cr.namespaceName secret
      key) = some ((cr.site vault).secretOf c secret, key) := by
  rw [getVaultSecretEnvVarSource_eq, h.reference_source c key hsecret]

/-- A variable with such a reference is one of the component's. -/
theorem Site.Proper.refers {cr : ZooKeeperService} {vault : VaultSecretManagement} {c : Component}
    (h : (cr.site vault).Proper) {env : List EnvVar}
    (henv : ∀ e ∈ env, ∃ c' secret key, '#' ∉ secret.toList ∧
      e.value = getVaultSecretEnvVarSource ((cr.site vault).service c') vault
        cr.namespaceName secret
        key ∧
      ∃ s ∈ credentialsOf c, (cr.site vault).secretOf c' secret = (cr.site vault).secretPath s ∧
        key ∈ s.keys) : (cr.site vault).Refers c env := by
  intro e he _ path key href
  obtain ⟨c', secret, key', hsecret, hvalue, s, hs, hpath, hkey⟩ := henv e he
  rw [hvalue, h.reference_envVarSource c' key' hsecret] at href
  cases href
  exact ⟨s, hs, hpath, hkey⟩

section Deployments

variable {vault : VaultSecretManagement}

/-- The additional variables are plain. -/
def ZooKeeperResourceProvider.Modest (p : ZooKeeperResourceProvider) : Prop :=
  Plain (p.spec.environmentVariables.filterMap additionalEnv)

/-- The environment of a server suits its role. -/
theorem ZooKeeperResourceProvider.suits_serverContainer (p : ZooKeeperResourceProvider)
    (hvault : p.cr.vault? = some vault) (hproper : (p.cr.site vault).Proper) (hmodest : p.Modest)
    (global : Global) (i : ℕ) :
    (p.cr.site vault).Suits .zooKeeper vault.method (p.serverContainer global i).env := by
  have hcredentials : (p.cr.site vault).Refers .zooKeeper p.getSecretEnvs := by
    rw [getSecretEnvs, hvault]
    refine hproper.refers ?_
    simp only [Option.elim_some, List.forall_mem_cons]
    refine ⟨⟨.zooKeeper, _, _, by decide, rfl, .admin, by simp [credentialsOf], rfl, by decide⟩,
      ⟨.zooKeeper, _, _, by decide, rfl, .admin, by simp [credentialsOf], rfl, by decide⟩,
      ⟨.zooKeeper, _, _, by decide, rfl, .client, by simp [credentialsOf], rfl, by decide⟩,
      ⟨.zooKeeper, _, _, by decide, rfl, .client, by simp [credentialsOf], rfl, by decide⟩,
      ⟨.zooKeeper, _, _, by decide, rfl, .additional, by simp [credentialsOf], rfl, by decide⟩,
      by simp⟩
  rw [serverContainer, buildEnvs, serverEnvVars, hvault, Option.elim_some]
  refine Site.Suits.append (Site.Suits.append (Site.Refers.login ?_ vault) ?_) hmodest
  · refine Site.Refers.append (Site.Refers.append (Site.Refers.append ?_ hcredentials) ?_) ?_
    · exact (plain_of_names (by simp [namespaceEnv, credentialsVariables, loginVariables])).refers
    · exact (plain_ite (plain_of_names (by simp [credentialsVariables, loginVariables]))
        plain_nil).refers
    · exact (plain_ite (plain_of_names (by simp [namespaceEnv, credentialsVariables,
        loginVariables])) plain_nil).refers
  · exact plain_ite (plain_of_names (by simp [credentialsVariables, loginVariables])) plain_nil

/-- The environment of the agent suits its role. -/
theorem MonitoringResourceProvider.suits_container (p : MonitoringResourceProvider)
    (hvault : p.cr.vault? = some vault) (hproper : (p.cr.site vault).Proper) (global : Global) :
    (p.cr.site vault).Suits .monitoring vault.method (p.container global).env := by
  have hcredentials : (p.cr.site vault).Refers .monitoring p.getZooKeeperCredentialsEnvs := by
    rw [getZooKeeperCredentialsEnvs, hvault]
    refine hproper.refers ?_
    simp only [Option.elim_some, List.forall_mem_cons]
    refine ⟨⟨.zooKeeper, _, _, by decide, rfl, .client, by simp [credentialsOf], rfl, by decide⟩,
      ⟨.zooKeeper, _, _, by decide, rfl, .client, by simp [credentialsOf], rfl, by decide⟩, by simp⟩
  rw [container, envVars, hvault, Option.elim_some]
  refine Site.Suits.append (Site.Refers.login ?_ vault)
    (plain_ite (plain_of_names (by simp [credentialsVariables, loginVariables])) plain_nil)
  refine Site.Refers.append (Site.Refers.append (Plain.refers ?_) hcredentials)
    (plain_ite plain_nil (plain_of_names (by simp [credentialsVariables, loginVariables]))).refers
  refine plain_append (plain_of_names ?_) (plain_elim (fun _ => plain_of_names ?_) _) <;>
    simp [namespaceEnv, credentialsVariables, loginVariables]

/-- The environment of the daemon suits its role. -/
theorem BackupDaemonResourceProvider.suits_container (p : BackupDaemonResourceProvider)
    (hvault : p.cr.vault? = some vault) (hproper : (p.cr.site vault).Proper) (global : Global)
    (aliases : Bool) :
    (p.cr.site vault).Suits .backupDaemon vault.method (p.container global aliases).env := by
  have hcredentials : (p.cr.site vault).Refers .backupDaemon p.getZooKeeperCredentialsEnvs := by
    rw [getZooKeeperCredentialsEnvs, hvault]
    refine hproper.refers ?_
    simp only [Option.elim_some, List.forall_mem_cons]
    refine ⟨⟨.backupDaemon, _, _, by decide, rfl, .daemon, by simp [credentialsOf], rfl, by decide⟩,
      ⟨.backupDaemon, _, _, by decide, rfl, .daemon, by simp [credentialsOf], rfl, by decide⟩,
      ⟨.zooKeeper, _, _, by decide, rfl, .admin, by simp [credentialsOf], rfl, by decide⟩,
      ⟨.zooKeeper, _, _, by decide, rfl, .admin, by simp [credentialsOf], rfl, by decide⟩, by simp⟩
  -- the other variables are neither credentials nor for the login
  have hsettings : Plain (p.settingsEnvVars global) := by
    have hone (name value : String) (h : name ∉ credentialsVariables ∧ name ∉ loginVariables) :
        Plain [{ name := name, value := value }] := plain_of_names (by simpa using h)
    refine plain_append (plain_append (plain_append (plain_append (plain_of_names ?_) ?_) ?_) ?_) ?_
    · simp [namespaceEnv, credentialsVariables, loginVariables]
    · exact plain_ite (hone _ _ (by decide)) plain_nil
    · exact plain_ite (hone _ _ (by decide)) plain_nil
    · exact plain_ite (hone _ _ (by decide)) plain_nil
    · exact plain_elim (fun _ => plain_of_names (by simp [credentialsVariables, loginVariables])) _
  rw [container, envVars, hvault, Option.elim_some]
  refine Site.Suits.append
    (Site.Suits.append (Site.Suits.append (Site.Refers.login ?_ vault) ?_) ?_) ?_
  · exact (hsettings.refers.append hcredentials).append
      (plain_ite plain_nil (plain_of_names (by simp [credentialsVariables, loginVariables]))).refers
  · exact plain_ite (plain_of_names (by simp [credentialsVariables, loginVariables])) plain_nil
  · exact plain_ite (plain_of_names (by simp [credentialsVariables, loginVariables])) plain_nil
  · exact plain_of_names (by simp [credentialsVariables, loginVariables])

end Deployments

end QubershipZookeeper.Operator
