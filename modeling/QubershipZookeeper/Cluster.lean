import QubershipZookeeper.Proc
import QubershipZookeeper.Provider

/-!
# The cluster and the controller's memory

The state that a reconciliation works on, and the requests it makes:

* the **API server** of one namespace — the custom resource, the objects by kind and
  name, and the version it hands out with every write;
* **Vault** — secrets, policies and roles;
* what the operator does not control — pods and Deployment statuses, which change while
  it waits (`Environment`), and requests that fail (`Fault`);
* the **controller's memory** — `ResourceVersions`, `ResourceHashes`, and the status of
  the instance it is working on.

A request that fails may have been refused, or it may have been served and only its
answer lost: the state then has changed all the same. An answer of Vault can also come
without the part of it that is read next (`replied`). One reconciliation runs at a time
and nobody else writes meanwhile, so a conflict is never found out by comparing versions;
it is one of the ways in which a request can fail.
-/

namespace QubershipZookeeper.Operator

/-! ## Errors -/

/-- The errors of a request that the operator tells apart. -/
inductive ApiError where
  /-- there is no such object -/
  | notFound
  /-- there already is such an object -/
  | alreadyExists
  /-- somebody else has written the object -/
  | conflict
  /-- anything else -/
  | unavailable
  deriving DecidableEq, Repr

/-- An `error` of the operator, or the end of it. -/
inductive GoError where
  /-- a request has failed -/
  | api (e : ApiError)
  /-- an error made with `fmt.Errorf` -/
  | message (text : String)
  /-- the deadline of a wait has passed -/
  | deadline
  /-- a panic, which no error handling of the operator catches -/
  | panic (p : Panic)
  deriving DecidableEq, Repr

namespace GoError

/-- `errors.IsNotFound`. -/
def isNotFound (e : GoError) : Bool := e = .api .notFound

/-- Is this a panic rather than an error value? -/
def isPanic : GoError → Bool
  | panic _ => true
  | _ => false

end GoError

/-! ## Kinds of objects -/

/-- The kinds of objects the operator reads and writes by name. -/
inductive Kind where
  | service | serviceAccount | persistentVolumeClaim | deployment | secret
  deriving DecidableEq, Repr

/-- The objects of a kind. -/
@[reducible] def Kind.Object : Kind → Type
  | .service => Service
  | .serviceAccount => ServiceAccount
  | .persistentVolumeClaim => PersistentVolumeClaim
  | .deployment => Deployment
  | .secret => Secret

instance : (k : Kind) → DecidableEq k.Object
  | .service => inferInstanceAs (DecidableEq Service)
  | .serviceAccount => inferInstanceAs (DecidableEq ServiceAccount)
  | .persistentVolumeClaim => inferInstanceAs (DecidableEq PersistentVolumeClaim)
  | .deployment => inferInstanceAs (DecidableEq Deployment)
  | .secret => inferInstanceAs (DecidableEq Secret)

/-- The metadata of an object. -/
def Kind.metadata : (k : Kind) → k.Object → ObjectMeta
  | .service, s => s.metadata
  | .serviceAccount, s => s.metadata
  | .persistentVolumeClaim, c => c.metadata
  | .deployment, d => d.metadata
  | .secret, s => s.metadata

/-- The name of an object. -/
def Kind.name (k : Kind) (o : k.Object) : String := (k.metadata o).name

/-- An object as the API server stores it under a version: a Service without a type gets
the default one, and one without an address gets one. -/
def Kind.accept : (k : Kind) → ℕ → k.Object → k.Object
  | .service, v, s =>
    { s with
      metadata := { s.metadata with resourceVersion := v }
      type := if s.type = "" then "ClusterIP" else s.type
      clusterIP := if s.clusterIP = "" then "10.0.0." ++ toString v else s.clusterIP }
  | .serviceAccount, v, s => { s with metadata := { s.metadata with resourceVersion := v } }
  | .persistentVolumeClaim, v, c => { c with metadata := { c.metadata with resourceVersion := v } }
  | .deployment, v, d => { d with metadata := { d.metadata with resourceVersion := v } }
  | .secret, v, s => { s with metadata := { s.metadata with resourceVersion := v } }

/-- The version that the API server gives an object leaves its name alone. -/
@[simp] theorem name_accept (k : Kind) (v : ℕ) (o : k.Object) :
    k.name (k.accept v o) = k.name o := by
  cases k <;> rfl

/-! ## Stores -/

/-- The objects of a kind, each under its own name. -/
abbrev Store (k : Kind) : Type := Finmap fun n : String => { o : k.Object // k.name o = n }

namespace Store

variable {k : Kind}

/-- The object with a name. -/
def get? (s : Store k) (n : String) : Option k.Object := (s.lookup n).map Subtype.val

/-- Store an object under its name. -/
def put (s : Store k) (o : k.Object) : Store k := s.insert (k.name o) ⟨o, rfl⟩

/-- An object is stored under its name. -/
theorem name_of_get? {s : Store k} {n : String} {o : k.Object} (h : s.get? n = some o) :
    k.name o = n := by
  rw [get?, Option.map_eq_some_iff] at h
  obtain ⟨x, -, rfl⟩ := h
  exact x.2

/-- What is put is there. -/
@[simp] theorem get?_put_self (s : Store k) (o : k.Object) :
    (s.put o).get? (k.name o) = some o := by
  simp [get?, put]

/-- What has another name stays as it is. -/
theorem get?_put_of_ne (s : Store k) {o : k.Object} {n : String} (h : n ≠ k.name o) :
    (s.put o).get? n = s.get? n := by
  simp [get?, put, Finmap.lookup_insert_of_ne _ h]

/-- The objects of the store, in no particular order. -/
def items (s : Store k) : Multiset k.Object := s.entries.map fun e => e.2.1

end Store

/-! ## Vault -/

/-- A role of Vault's Kubernetes authentication. -/
structure VaultRole where
  /-- the service account that may log in -/
  boundServiceAccountNames : String
  /-- the namespace of the account -/
  boundServiceAccountNamespaces : String
  /-- the policies it gets -/
  policies : List String
  /-- how long a token lives -/
  ttl : String
  deriving DecidableEq

/-- What is stored in Vault. -/
structure Vault where
  /-- the secrets by path, with their versions -/
  secrets : Finmap fun _ : String => StringMap × ℕ := ∅
  /-- the access policies by name -/
  policies : StringMap := ∅
  /-- the roles, by authentication method and name -/
  roles : Finmap fun _ : String => VaultRole := ∅
  /-- the password policies by name -/
  passwordPolicies : StringMap := ∅
  deriving DecidableEq

/-! ## The environment -/

/-- Why a request fails. That an object is missing is not a failure, but an answer. -/
inductive Failure where
  /-- the API server reports a conflict -/
  | conflict
  /-- anything else -/
  | unavailable
  deriving DecidableEq, Repr

/-- The error that a failed request returns. -/
def Failure.error : Failure → GoError
  | conflict => .api .conflict
  | unavailable => .api .unavailable

/-- What becomes of a request. -/
inductive Fault where
  /-- it is served -/
  | none
  /-- it is refused -/
  | refused (why : Failure)
  /-- it is served, but the answer is lost -/
  | lost (why : Failure)
  /-- it is served, but the answer lacks what its reader takes out of it -/
  | hollow
  deriving DecidableEq, Repr

/-- What the operator sees of pods and Deployments. -/
structure Observation where
  /-- the pods -/
  pods : List Pod
  /-- the statuses of the Deployments, by name -/
  statuses : String → DeploymentStatus

/-- The parts of the world that nobody controls. -/
structure Environment where
  /-- what there is to see when the clock has reached a time, for the given Deployments -/
  observe : ℕ → Store .deployment → Observation
  /-- the passwords that are generated, one after the other -/
  password : ℕ → String

/-! ## The world -/

/-- A version of a Secret that a component has dealt with. -/
structure Passage where
  /-- the component -/
  component : Component
  /-- the Secret's name -/
  secret : String
  /-- the version -/
  version : ℕ
  deriving DecidableEq, Repr

/-- A Deployment that was stored. -/
structure Rollout where
  /-- when -/
  time : ℕ
  /-- what was stored under its name before -/
  before : Option Deployment
  /-- what was submitted -/
  after : Deployment

/-- What a write to Vault is about. -/
inductive VaultWrite where
  /-- the access policy with a name -/
  | policy (name : String)
  /-- the role with a name, of an authentication method -/
  | role (name : String)
  /-- the password policy with a name -/
  | passwordPolicy (name : String)
  /-- the secret at a path -/
  | secret (path : String)
  deriving DecidableEq, Repr

/-- A write that was sent to Vault. -/
structure SentWrite where
  /-- what it is about -/
  write : VaultWrite
  /-- whether Vault has accepted it -/
  accepted : Bool
  deriving DecidableEq, Repr

/-- The state of cluster and controller. The last seven fields are not part of either: they
record what has happened. -/
structure World where
  /-- the custom resource, if there is one -/
  cr : Option ZooKeeperService
  /-- its stored status -/
  storedStatus : ZooKeeperServiceStatus := {}
  /-- the stored objects -/
  objects : (k : Kind) → Store k := fun _ => ∅
  /-- the last version the API server has assigned -/
  version : ℕ := 0
  /-- the pods -/
  pods : List Pod := []
  /-- the statuses of the Deployments -/
  statuses : String → DeploymentStatus := fun _ => {}
  /-- the contents of Vault -/
  vault : Vault := {}
  /-- `instance.Status`: the status of the instance in memory -/
  status : ZooKeeperServiceStatus := {}
  /-- `ResourceVersions`: the versions of Secrets that were dealt with -/
  resourceVersions : Finmap fun _ : String => ℕ := ∅
  /-- `ResourceHashes`: the hashes of sections that were dealt with -/
  resourceHashes : Finmap fun _ : String => Digest := ∅
  /-- `globalSpecHash`: the hash of the instance's global section; `none` for the empty text -/
  globalSpecHash : Option Digest := none
  /-- what nobody controls -/
  environment : Environment
  /-- the time -/
  clock : ℕ := 0
  /-- how many passwords have been generated -/
  generated : ℕ := 0
  /-- what becomes of the next requests; when the list is used up, all are served -/
  faults : List Fault := []
  /-- the Secrets that the running call of `Reconcile` has tested for a change -/
  tested : List Passage := []
  /-- the Secrets that have been in an apply branch -/
  applied : List Passage := []
  /-- the Secrets that have been through `processVaultSecrets` -/
  vaulted : List Passage := []
  /-- the claims that were created or found -/
  claimed : List String := []
  /-- the reasons of the status checks that have timed out -/
  timedOut : List String := []
  /-- the Deployments that were stored, the last one first -/
  rollouts : List Rollout := []
  /-- the writes that were sent to Vault, the last one first -/
  vaultWrites : List SentWrite := []

namespace World

/-- The stored object with a name. -/
def get? (w : World) (k : Kind) (n : String) : Option k.Object := (w.objects k).get? n

/-- The record of storing an object, if it is a Deployment. -/
def rolloutOf (w : World) : (k : Kind) → k.Object → List Rollout
  | .deployment, d => [⟨w.clock, w.get? .deployment d.metadata.name, d⟩]
  | _, _ => []

/-- Store an object as a new version. -/
def store (w : World) (k : Kind) (o : k.Object) : World :=
  { w with
    objects := Function.update w.objects k ((w.objects k).put (k.accept (w.version + 1) o))
    version := w.version + 1
    rollouts := w.rolloutOf k o ++ w.rollouts }

/-- A stored object is there with the next version. -/
@[simp] theorem get?_store_self (w : World) (k : Kind) (o : k.Object) :
    (w.store k o).get? k (k.name o) = some (k.accept (w.version + 1) o) := by
  have h := Store.get?_put_self (w.objects k) (k.accept (w.version + 1) o)
  rw [name_accept] at h
  simpa [get?, store] using h

/-- Objects of other kinds or names stay as they are. -/
theorem get?_store_of_ne (w : World) {k k' : Kind} {o : k.Object} {n : String}
    (h : k' ≠ k ∨ n ≠ k.name o) : (w.store k o).get? k' n = w.get? k' n := by
  by_cases hk : k' = k
  · subst hk
    have hn : n ≠ k'.name (k'.accept (w.version + 1) o) := by
      rw [name_accept]
      exact h.resolve_left (fun hne => hne rfl)
    simp [get?, store, Store.get?_put_of_ne _ hn]
  · simp [get?, store, Function.update_of_ne hk]

end World

/-! ## Requests -/

/-- A procedure of the operator. -/
abbrev Op (α : Type) : Type := Proc GoError World α

/-- Send a request: the next fault decides what becomes of it. -/
def request {α : Type} (serve : Op α) : Op α := fun w =>
  match w.faults with
  | [] => serve w
  | .none :: faults | .hollow :: faults => serve { w with faults := faults }
  | .refused why :: faults => .raised why.error { w with faults := faults }
  | .lost why :: faults => .raised why.error (serve { w with faults := faults }).next

/-- Make a request and take something out of its answer without looking whether it is there: where
it is not, that panics. -/
def replied {α : Type} (p : Panic) (m : Op α) : Op α := do
  let hollow ← Proc.observe fun w => decide (w.faults.head? = some .hollow)
  let reply ← m
  if hollow then Proc.raise (.panic p) else pure reply

/-- `Client.Get`. -/
def clientGet (k : Kind) (n : String) : Op k.Object :=
  request fun w =>
    match w.get? k n with
    | some o => .ok o w
    | none => .raised (.api .notFound) w

/-- `Client.Create`; the object comes back as it was stored. -/
def clientCreate (k : Kind) (o : k.Object) : Op k.Object :=
  request fun w =>
    match w.get? k (k.name o) with
    | some _ => .raised (.api .alreadyExists) w
    | none => .ok (k.accept (w.version + 1) o) (w.store k o)

/-- `Client.Update`; the object comes back as it was stored. An update that changes nothing
makes no new version. -/
def clientUpdate (k : Kind) (o : k.Object) : Op k.Object :=
  request fun w =>
    match w.get? k (k.name o) with
    | none => .raised (.api .notFound) w
    | some found =>
      if k.accept (k.metadata found).resourceVersion o = found then .ok found w
      else .ok (k.accept (w.version + 1) o) (w.store k o)

/-- `Client.List` for Deployments. -/
def listDeployments (selector : StringMap) : Op (Multiset Deployment) :=
  request (Proc.observe fun w =>
    (w.objects .deployment).items.filter fun d => selector.selects d.metadata.labels)

/-- `Client.List` for pods. -/
def listPods (selector : StringMap) : Op (List Pod) :=
  request (Proc.observe fun w => w.pods.filter fun p => selector.selects p.labels)

/-- A status as it is fetched: an empty map is not part of the JSON, and comes back as nil. -/
def ZooKeeperServiceStatus.fetched (status : ZooKeeperServiceStatus) : ZooKeeperServiceStatus :=
  { status with secretVersions := status.secretVersions.filter (· ≠ ∅) }

/-- `Client.Get` for the custom resource, which brings its status along. -/
def getInstance : Op ZooKeeperService :=
  request fun w =>
    match w.cr with
    | some cr => .ok cr { w with status := w.storedStatus.fetched }
    | none => .raised (.api .notFound) w

/-- `Client.Status().Update`: store the status of the instance. -/
def statusUpdate : Op Unit :=
  request fun w =>
    match w.cr with
    | some _ => .ok () { w with storedStatus := w.status }
    | none => .raised (.api .notFound) w

/-! ## Waiting -/

/-- Let time pass: pods and statuses are what they have become meanwhile. -/
def sleep : Op Unit := Proc.update fun w =>
  let seen := w.environment.observe w.clock (w.objects .deployment)
  { w with clock := w.clock + 1, pods := seen.pods, statuses := seen.statuses }

/-- `metav1.Now`. -/
def now : Op ℕ := fun w => .ok w.clock { w with clock := w.clock + 1 }

/-- The loop of `wait.PollUntilContextTimeout`, with so many tries before the deadline. -/
def poll : ℕ → Op Bool → Op Unit
  | 0, _ => Proc.raise .deadline
  | tries + 1, condition => do
    let done ← condition
    if done then pure () else do
      sleep
      poll tries condition

/-- How often a condition is tried: at once and then every ten seconds until the
deadline. -/
def tries (timeoutSeconds : ℤ) : ℕ := max 1 ((timeoutSeconds.toNat + 9) / 10)

/-- `retry.RetryOnConflict`, with so many retries. -/
def retryOnConflict {α : Type} : ℕ → Op α → Op α
  | 0, m => m
  | retries + 1, m => m.recover fun e =>
    if e = .api .conflict then some (retryOnConflict retries m) else none

/-- The retries of `retry.DefaultBackoff`, whose four steps include the first try. -/
def defaultBackoff : ℕ := 3

/-- A builder's panic ends the procedure that calls it. -/
def build {α : Type} (x : Except Panic α) : Op α := Proc.lift (x.mapError .panic)

end QubershipZookeeper.Operator
