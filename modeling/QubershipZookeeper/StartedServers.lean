import QubershipZookeeper.HashGate
import QubershipZookeeper.ServerList

/-!
# The ensemble of the stored servers

The operator numbers the servers and stores a Deployment for each; the script in their pods writes
the list of the ensemble from the variables of its own pod alone. So the lists have to come out the
same, every server has to find itself in them, and the names in them have to be those that the
pods have in the cluster (`startedServers_agree`).

A pod keeps the list it was started with. While the number of servers is changed, there are pods
with the old list and pods with the new one, and their quorums are counted apart
(`quorums_meet_iff`).
-/

namespace QubershipZookeeper.Operator

open Text ServerList

/-! ## The variables of a pod -/

/-- The value of a variable in a pod of a namespace; the last one with the name counts. -/
def variableIn (namespaceName : Text) (env : List EnvVar) (name : String) : Text :=
  match (env.filter fun e => e.name = name).getLast? with
  | none => []
  | some e =>
    match e.fieldPath with
    | none => e.value.toList
    | some path => if path = "metadata.namespace" then namespaceName else []

/-- The value of a variable in the pods of a Deployment. -/
def Deployment.variable (d : Deployment) (name : String) : Text :=
  variableIn d.metadata.namespaceName.toList
    ((d.podSpec.containers.head?.map Container.env).getD [])
    name

/-- The variables that the script reads for the list of the servers. -/
def startVariables : List String :=
  ["SERVER_NAME", "SERVER_ID", "SERVER_COUNT", "SERVER_DOMAIN", "SERVER_NAMESPACE",
   "IS_CLOUD_ENABLED", "DR_JOINT_CLUSTER", "DR_ACTIVE_SIDE", "DR_SERVER_NAME_SUFFIX", "ENABLE_SSL",
   "ALLOW_NONENCRYPTED_ACCESS", "QUORUM_SERVERS", "ZOOKEEPER_FOLLOWERS_PORT",
   "ZOOKEEPER_ELECTION_PORT"]

/-- The environment in which the script runs. The ports are set by the image. -/
def Deployment.startEnv (d : Deployment) : ServerList.Env where
  serverName := d.variable "SERVER_NAME"
  serverId := d.variable "SERVER_ID"
  serverCount := d.variable "SERVER_COUNT"
  serverDomain := d.variable "SERVER_DOMAIN"
  serverNamespace := d.variable "SERVER_NAMESPACE"
  isCloudEnabled := d.variable "IS_CLOUD_ENABLED"
  drJointCluster := d.variable "DR_JOINT_CLUSTER"
  drActiveSide := d.variable "DR_ACTIVE_SIDE"
  drServerNameSuffix := d.variable "DR_SERVER_NAME_SUFFIX"
  enableSsl := d.variable "ENABLE_SSL"
  allowNonencryptedAccess := d.variable "ALLOW_NONENCRYPTED_ACCESS"
  quorumServers := d.variable "QUORUM_SERVERS"
  zookeeperFollowersPort := orDefault (d.variable "ZOOKEEPER_FOLLOWERS_PORT") "2888".toList
  zookeeperElectionPort := orDefault (d.variable "ZOOKEEPER_ELECTION_PORT") "3888".toList

/-- The name of a pod in the cluster's DNS: its host name below that of its subdomain, in its
namespace. -/
def Deployment.dnsName (d : Deployment) : Text :=
  d.podSpec.hostname.toList ++ '.' :: d.podSpec.subdomain.toList ++ '.' ::
    d.metadata.namespaceName.toList

/-- A name of Kubernetes: letters, digits, dashes and dots. -/
def DnsName (s : String) : Prop :=
  s ≠ "" ∧ s.toList.all (fun c => c.isAlphanum || c == '-' || c == '.') = true

/-- A DNS name has none of the separators of the list in it. -/
theorem DnsName.avoids {s : String} (h : DnsName s) : Avoids [':', ';'] s.toList := by
  intro c hc hspecial
  have hchar := List.all_eq_true.mp h.2 c hc
  simp only [List.mem_cons, List.not_mem_nil, or_false] at hspecial
  rcases hspecial with rfl | rfl <;> revert hchar <;> decide

namespace ZooKeeperResourceProvider

variable (p : ZooKeeperResourceProvider)

/-- The names are those of objects, and no additional variable is one that the script reads. -/
structure Regular : Prop where
  name : DnsName p.cr.name
  namespaceName : DnsName p.cr.namespaceName
  additional : ∀ e ∈ p.spec.environmentVariables.filterMap additionalEnv, e.name ∉ startVariables

/-- The variables of a server that the script reads. -/
def listVariables (global : Global) (serverId : ℕ) : List EnvVar :=
  [{ name := "SERVER_NAME", value := p.cr.name },
   { name := "SERVER_ID", value := toString serverId },
   { name := "SERVER_DOMAIN", value := p.cr.name ++ "-server" },
   namespaceEnv "SERVER_NAMESPACE",
   { name := "SERVER_COUNT", value := toString p.spec.replicas }] ++
  (if global.usesSsl then
    [{ name := "ENABLE_SSL", value := "true" },
     { name := "ALLOW_NONENCRYPTED_ACCESS", value := toString p.spec.ssl.allowNonencryptedAccess }]
   else [])

variable {p}

/-- The variables that the entrypoint reads. -/
theorem filter_serverEnvVars (global : Global) (serverId : ℕ) :
    (p.serverEnvVars global serverId).filter (fun e => e.name ∈ startVariables) =
      p.listVariables global serverId := by
  have hsecrets : p.getSecretEnvs.filter (fun e => e.name ∈ startVariables) = [] := by
    rw [getSecretEnvs]
    rcases p.cr.vault? with - | vault <;> simp [startVariables]
  have hvault : (p.cr.vault?.elim [] fun vault => getVaultConnectionEnvVars p.getServiceName vault
      p.cr.namespaceName).filter (fun e => e.name ∈ startVariables) = [] := by
    rcases p.cr.vault? with - | vault <;> simp [getVaultConnectionEnvVars, startVariables]
  rw [serverEnvVars, List.filter_append, List.filter_append, List.filter_append, List.filter_append,
    List.filter_append, hsecrets, hvault, listVariables]
  congr 1
  · split <;> split <;> simp [startVariables, namespaceEnv]
  · split <;> simp [startVariables]

/-- The environment of a server, as far as the script reads it. -/
theorem filter_serverContainer (h : p.Regular) (global : Global) (serverId : ℕ) :
    (p.serverContainer global serverId).env.filter (fun e => e.name ∈ startVariables) =
      p.listVariables global serverId := by
  have hadditional : (p.spec.environmentVariables.filterMap additionalEnv).filter
      (fun e => e.name ∈ startVariables) = [] :=
    List.filter_eq_nil_iff.mpr fun e he hname => h.additional e he (of_decide_eq_true hname)
  rw [serverContainer, buildEnvs, List.filter_append, filter_serverEnvVars, hadditional,
    List.append_nil]

end ZooKeeperResourceProvider

/-- A variable that the script reads, looked up among those alone. -/
theorem variableIn_filter (namespaceName : Text) (env : List EnvVar) {name : String}
    (hname : name ∈ startVariables) :
    variableIn namespaceName env name =
      variableIn namespaceName (env.filter fun e => e.name ∈ startVariables) name := by
  have hfilter : env.filter (fun e => e.name = name) =
      (env.filter fun e => e.name ∈ startVariables).filter fun e => e.name = name := by
    rw [List.filter_filter]
    refine List.filter_congr fun e _ => ?_
    by_cases he : e.name = name
    · simp [he, hname]
    · simp [he]
  rw [variableIn, variableIn, hfilter]

namespace ZooKeeperResourceProvider

variable {p : ZooKeeperResourceProvider}

/-- The environment of the script in the pod of a server. -/
def startEnv (p : ZooKeeperResourceProvider) (global : Global) (serverId : ℕ) : ServerList.Env where
  serverName := p.cr.name.toList
  serverId := decimal serverId
  serverCount := (toString p.spec.replicas).toList
  serverDomain := (p.cr.name ++ "-server").toList
  serverNamespace := p.cr.namespaceName.toList
  enableSsl := if global.usesSsl then "true".toList else []
  allowNonencryptedAccess :=
    if global.usesSsl then (toString p.spec.ssl.allowNonencryptedAccess).toList else []
  zookeeperFollowersPort := "2888".toList
  zookeeperElectionPort := "3888".toList

/-- What a server starts with, in terms of the custom resource. -/
theorem startEnv_eq (h : p.Regular) {global : Global} (hglobal : p.cr.spec.global = some global)
    {serverId : ℕ} {d : Deployment} (hd : p.newServerDeploymentForCR serverId = .ok d) :
    d.startEnv = p.startEnv global serverId := by
  obtain ⟨global', hglobal', hd⟩ := except_bind_ok_inv hd
  cases (deref_ok_inv hglobal').symm.trans hglobal
  obtain ⟨affinity, -, hd⟩ := except_bind_ok_inv hd
  cases hd
  have hvariable {name : String} (hname : name ∈ startVariables) :
      variableIn p.cr.namespaceName.toList (p.serverContainer global serverId).env name =
        variableIn p.cr.namespaceName.toList (p.listVariables global serverId) name := by
    rw [variableIn_filter _ _ hname, filter_serverContainer h]
  simp only [Deployment.startEnv, Deployment.variable, List.head?_cons, Option.map_some,
    Option.getD_some]
  simp (disch := decide) only [hvariable]
  rw [startEnv, listVariables]
  split <;> simp [variableIn, namespaceEnv, decimal, orDefault]

/-- The name of a server in the cluster's DNS. -/
def dnsName (p : ZooKeeperResourceProvider) (serverId : ℕ) : Text :=
  (serverName p.cr.name serverId).toList ++ '.' :: (p.cr.name ++ "-server").toList ++ '.' ::
    p.cr.namespaceName.toList

/-- The name under which the other servers reach it. -/
theorem dnsName_eq {serverId : ℕ} {d : Deployment}
    (hd : p.newServerDeploymentForCR serverId = .ok d) :
    d.dnsName = p.dnsName serverId := by
  obtain ⟨global, -, hd⟩ := except_bind_ok_inv hd
  obtain ⟨affinity, -, hd⟩ := except_bind_ok_inv hd
  cases hd
  rfl

theorem toList_ne_nil {s : String} (h : s ≠ "") : s.toList ≠ [] := fun hnil =>
  h (String.toList_eq_nil_iff.mp hnil)

/-- The hosts of the list are the names of the pods. -/
theorem host_startEnv (h : p.Regular) (global : Global) (serverId i : ℕ) :
    (p.startEnv global serverId).host i = p.dnsName i := by
  have hname : p.cr.name.toList ≠ [] := toList_ne_nil h.name.1
  have hdomain : (p.cr.name ++ "-server").toList ≠ [] := by
    simp [hname]
  have hnamespace : p.cr.namespaceName.toList ≠ [] := toList_ne_nil h.namespaceName.1
  have hserver : (serverName p.cr.name i).toList = p.cr.name.toList ++ '-' :: decimal i := by
    rw [serverName, String.toList_append, String.toList_append, toList_toString, List.append_assoc]
    rfl
  simp only [startEnv, Env.host, Env.name, orDefault, hname, dotted, hdomain, hnamespace, if_false,
    dnsName, hserver, List.append_assoc, List.cons_append]

theorem avoids_dnsName (h : p.Regular) (i : ℕ) : Avoids [':', ';'] (p.dnsName i) := by
  have hdigits : Avoids [':', ';'] (decimal i) := by
    intro c hc hspecial
    have hdigit := isDigit_of_mem_decimal hc
    simp only [List.mem_cons, List.not_mem_nil, or_false] at hspecial
    rcases hspecial with rfl | rfl <;> revert hdigit <;> decide
  have hdash : Avoids [':', ';'] "-".toList := by decide
  have hdot : Avoids [':', ';'] ".".toList := by decide
  have hserver : Avoids [':', ';'] "-server".toList := by decide
  have hparts := (((((h.name.avoids.append hdash).append hdigits).append hdot).append
    (h.name.avoids.append hserver)).append hdot).append h.namespaceName.avoids
  convert hparts using 1
  simp [dnsName, serverName, decimal]

/-- The number of servers, as the operator passes it on. -/
theorem count_startEnv {n : ℕ} (hreplicas : p.spec.replicas = n) (global : Global) (serverId : ℕ) :
    (p.startEnv global serverId).count = decimal n := by
  have htext : (toString p.spec.replicas).toList = decimal n := by
    rw [hreplicas]
    exact toList_toString n
  rw [Env.count, startEnv, htext, orDefault, if_neg (decimal_ne_nil n)]

/-- The list of the ensemble; it does not depend on the server that writes it. -/
def ensemble (p : ZooKeeperResourceProvider) (global : Global) : List Server :=
  ServerList.ensemble (p.startEnv global 1) p.spec.replicas.toNat

/-- The ensemble has one server for each wanted number. -/
theorem ids_ensemble (global : Global) : (p.ensemble global).map Server.id = p.serverIds := by
  simp [ensemble, ServerList.ensemble, serverIds, Function.comp_def]

end ZooKeeperResourceProvider

/-! ## The list in a stored server -/

/-- The pods of a Deployment start as the server with a number of an ensemble. -/
structure Deployment.Joins (shell : Shell) (d : Deployment) (serverId : ℕ)
    (ensemble : List Server) :
    Prop where
  /-- whatever an earlier container has left, the script goes through, and its files have the number
  and the list -/
  starts : ∀ files, ∃ files', entrypoint shell d.startEnv none files = .ok () files' ∧
    files'.myid = some (decimal serverId) ∧ files'.dynamic.bind readServers = some ensemble
  /-- the server is in the list, under the name of its pod -/
  listed : ∃ server ∈ ensemble, server.id = serverId ∧ server.host = d.dnsName

namespace ZooKeeperResourceProvider

variable {p : ZooKeeperResourceProvider}

/-- A Deployment as it is built: its pods join the ensemble. -/
theorem joins_newServerDeploymentForCR (shell : Shell) (h : p.Regular) {global : Global}
    (hglobal : p.cr.spec.global = some global) {serverId : ℕ} (hid : serverId ∈ p.serverIds)
    {d : Deployment} (hd : p.newServerDeploymentForCR serverId = .ok d) :
    d.Joins shell serverId (p.ensemble global) := by
  obtain ⟨n, hn⟩ : ∃ n : ℕ, p.spec.replicas = n := by
    have := p.mem_serverIds.mp hid
    exact ⟨p.spec.replicas.toNat, by omega⟩
  have hcount := count_startEnv hn global serverId
  have hsingle : (p.startEnv global serverId).Single :=
    ⟨rfl, show ([] : Text) ≠ "true".toList by decide⟩
  have hread := readServers_serverLines (p.startEnv global serverId) (n := n) fun i => by
    rw [host_startEnv h]
    exact avoids_dnsName h i
  have hsame : ServerList.ensemble (p.startEnv global serverId) n = p.ensemble global := by
    rw [ensemble, hn, Int.toNat_natCast]
    rfl
  have hid' : (p.startEnv global serverId).id = decimal serverId := if_neg (decimal_ne_nil serverId)
  refine ⟨fun files => ⟨⟨some (serverLines (p.startEnv global serverId) n),
    some (decimal serverId)⟩, ?_, rfl, hread.trans (congrArg some hsame)⟩, ?_⟩
  · rw [startEnv_eq h hglobal hd, ← hid']
    exact entrypoint_single shell _ hsingle hcount files
  · refine ⟨⟨serverId, (p.startEnv global 1).host serverId, 2888, 3888, _⟩,
      List.mem_map.mpr ⟨serverId, hid, rfl⟩, rfl, ?_⟩
    rw [host_startEnv h, dnsName_eq hd]

end ZooKeeperResourceProvider

/-- What the script reads of a Deployment: its pods and its namespace. -/
theorem Deployment.Joins.congr {shell : Shell} {d d' : Deployment} {serverId : ℕ}
    {ensemble : List Server} (h : d.Joins shell serverId ensemble) (hpod : d'.podSpec = d.podSpec)
    (hnamespace : d'.metadata.namespaceName = d.metadata.namespaceName) :
    d'.Joins shell serverId ensemble := by
  have hvariable (name : String) : d'.variable name = d.variable name := by
    rw [Deployment.variable, Deployment.variable, hpod, hnamespace]
  have hstart : d'.startEnv = d.startEnv := by
    simp only [Deployment.startEnv, hvariable]
  have hdns : d'.dnsName = d.dnsName := by
    rw [Deployment.dnsName, Deployment.dnsName, hpod, hnamespace]
  refine ⟨?_, ?_⟩
  · rw [hstart]
    exact h.starts
  · rw [hdns]
    exact h.listed

theorem namespaceName_setControllerReference {cr : ZooKeeperService} {m m' : ObjectMeta}
    (h : setControllerReference cr m = .ok m') : m'.namespaceName = m.namespaceName := by
  unfold setControllerReference at h
  split at h
  · split at h <;> cases h
    rfl
  · cases h
    rfl

theorem Deployment.SameUpToRestarts.namespaceName_eq {stored submitted : Deployment}
    (h : stored.SameUpToRestarts submitted) :
    stored.metadata.namespaceName = submitted.metadata.namespaceName := by
  have hnamespace := congrArg (fun d : Deployment => d.metadata.namespaceName) h.rest
  exact hnamespace

namespace ZooKeeperResourceProvider

variable {p : ZooKeeperResourceProvider}

/-- The pods of a wanted Deployment that the cluster holds join the ensemble. -/
theorem HoldsServer.joins (shell : Shell) (h : p.Regular) {global : Global}
    (hglobal : p.cr.spec.global = some global) {serverId : ℕ} (hid : serverId ∈ p.serverIds)
    {w : World} (hw : p.HoldsServer serverId w) :
    ∃ d, w.get? .deployment (serverName p.cr.name serverId) = some d ∧
      d.Joins shell serverId (p.ensemble global) := by
  obtain ⟨wanted, stored, hwanted, hstored, hsame⟩ := hw
  obtain ⟨built, hbuilt, hwanted⟩ := except_bind_ok_inv hwanted
  obtain ⟨m, hm, hwanted⟩ := except_bind_ok_inv hwanted
  cases hwanted
  rcases hnew : p.newServerDeploymentForCR serverId with e | d <;>
    rw [hnew] at hbuilt <;> cases hbuilt
  have hjoins := joins_newServerDeploymentForCR shell h hglobal hid hnew
  refine ⟨stored, hstored, hjoins.congr hsame.podSpec_eq ?_⟩
  exact hsame.namespaceName_eq.trans (namespaceName_setControllerReference hm)

/-- A Deployment was built from a global section. -/
theorem HoldsServer.global {serverId : ℕ} {w : World} (hw : p.HoldsServer serverId w) :
    ∃ global, p.cr.spec.global = some global := by
  obtain ⟨wanted, -, hwanted, -⟩ := hw
  obtain ⟨built, hbuilt, -⟩ := except_bind_ok_inv hwanted
  rcases hnew : p.newServerDeploymentForCR serverId with e | d <;>
    rw [hnew] at hbuilt <;> cases hbuilt
  obtain ⟨global, hglobal, -⟩ := except_bind_ok_inv hnew
  exact ⟨global, deref_ok_inv hglobal⟩

/-! ## One ensemble -/

/-- **The servers agree on the ensemble.** Whatever there was in the cluster, and whichever requests
have failed on the way: after a call of a freshly started operator that returns nil, every server
is stored, and the scripts in their pods all write one list. It has the servers with the numbers
from one on, and each of them is in it under the name that its pod has in the cluster. -/
theorem startedServers_agree (shell : Shell) (h : p.Regular) {w w' : World} (hcr : w.cr = some p.cr)
    (hfresh : recordedHash w = none) (hcall : Operator.reconcile w = .ok () w') :
    ∃ ensemble : List Server, ensemble.map Server.id = p.serverIds ∧ ∀ i ∈ p.serverIds,
      ∃ d, w'.get? .deployment (serverName p.cr.name i) = some d ∧ d.Joins shell i ensemble := by
  have hconsistent : p.Consistent none w := .inl ⟨hfresh, nofun⟩
  have hholds : p.HoldsServers w' := ((p.controller_consistent none).ok ⟨hcr, hconsistent⟩ hcall).2
  rcases hids : p.serverIds with - | ⟨first, rest⟩
  · exact ⟨[], rfl, nofun⟩
  · -- a server that is held was built, so that there is a global section
    obtain ⟨global, hglobal⟩ := (hholds first (hids ▸ List.mem_cons_self)).global
    refine ⟨p.ensemble global, (ids_ensemble global).trans hids, fun i hi => ?_⟩
    rw [← hids] at hi
    exact (hholds i hi).joins shell h hglobal hi

end ZooKeeperResourceProvider

/-! ## Two ensembles -/

/-- The list that a pod of the Deployment is started with. -/
def Deployment.declared (shell : Shell) (d : Deployment) : Option (List Server) :=
  (entrypoint shell d.startEnv none ⟨none, none⟩).next.dynamic.bind readServers

/-- A server that joins an ensemble declares it. -/
theorem Deployment.Joins.declared {shell : Shell} {d : Deployment} {serverId : ℕ}
    {ensemble : List Server} (h : d.Joins shell serverId ensemble) :
    d.declared shell = some ensemble := by
  obtain ⟨files, hrun, -, hread⟩ := h.starts ⟨none, none⟩
  rw [Deployment.declared, hrun]
  exact hread

namespace ZooKeeperResourceProvider

variable {p q : ZooKeeperResourceProvider}

/-- **Pods of before and after a change of the number of servers.** They count their quorums by
lists of different lengths, one of the servers that there were and one of those that are to be. Any
two quorums still have a server in common if and only if the larger number is at most two above the
largest even number up to the smaller one: one server more is always safe, two more only if their
number was even. -/
theorem quorums_meet_iff (shell : Shell) (hp : p.Regular) (hq : q.Regular) {i j : ℕ}
    (hi : i ∈ p.serverIds) (hj : j ∈ q.serverIds) {d d' : Deployment}
    (hd : p.newServerDeploymentForCR i = .ok d) (hd' : q.newServerDeploymentForCR j = .ok d')
    (hle : p.spec.replicas ≤ q.spec.replicas) :
    ∃ before after, d.declared shell = some before ∧ d'.declared shell = some after ∧
      before.map Server.id = p.serverIds ∧ after.map Server.id = q.serverIds ∧
      ((∀ s t, IsQuorum before s → IsQuorum after t → (s ∩ t).Nonempty) ↔
        q.spec.replicas ≤ 2 * (p.spec.replicas / 2) + 2) := by
  obtain ⟨global, hglobal, -⟩ := except_bind_ok_inv hd
  obtain ⟨global', hglobal', -⟩ := except_bind_ok_inv hd'
  have hbefore := joins_newServerDeploymentForCR shell hp (deref_ok_inv hglobal) hi hd
  have hafter := joins_newServerDeploymentForCR shell hq (deref_ok_inv hglobal') hj hd'
  refine ⟨p.ensemble global, q.ensemble global', hbefore.declared, hafter.declared,
    p.ids_ensemble global, q.ids_ensemble global', ?_⟩
  have hpos : 1 ≤ p.spec.replicas.toNat := by
    have := p.mem_serverIds.mp hi
    omega
  have hsub : Finset.Icc 1 p.spec.replicas.toNat ⊆ Finset.Icc 1 q.spec.replicas.toNat :=
    Finset.Icc_subset_Icc_right (by omega)
  have hne : (Finset.Icc 1 p.spec.replicas.toNat).Nonempty := Finset.nonempty_Icc.mpr hpos
  have hmeet := HierarchicalQuorum.majorities_inter_iff hsub hne
  rw [Nat.card_Icc, Nat.card_Icc, Nat.add_sub_cancel, Nat.add_sub_cancel] at hmeet
  simp only [ensemble, isQuorum_ensemble]
  rw [hmeet]
  omega

end ZooKeeperResourceProvider

namespace StartedServers

/-- A custom resource with so many servers. -/
def sampleResource (replicas : ℤ) : ZooKeeperService where
  name := "zookeeper"
  namespaceName := "zk"
  spec :=
    { global := some {}
      zooKeeper := some
        { dockerImage := "zookeeper:1"
          replicas := replicas
          storage := { size := .of "1Gi" }
          snapshotStorage := { volumeSize := .of "1Gi" }
          heapSize := 256
          secretName := "zookeeper-secret"
          environmentVariables := ["LOG_LEVEL=DEBUG"] } }

/-- Its provider. -/
def sampleProvider (replicas : ℤ) : ZooKeeperResourceProvider where
  cr := sampleResource replicas
  spec := (sampleResource replicas).spec.zooKeeper.get rfl
  spec_eq := rfl

/-- A cluster with the Secret of ZooKeeper and nothing else, and a fresh controller. -/
def sampleWorld : World where
  cr := some (sampleResource 3)
  environment := HashGate.calm
  objects
    | .secret => Store.put ∅ { metadata := { name := "zookeeper-secret", resourceVersion := 1 } }
    | _ => ∅
  version := 1

theorem regular_sampleProvider (replicas : ℤ) : (sampleProvider replicas).Regular where
  name := show DnsName "zookeeper" from ⟨by decide, by decide⟩
  namespaceName := show DnsName "zk" from ⟨by decide, by decide⟩
  additional := by
    show ∀ e ∈ ["LOG_LEVEL=DEBUG"].filterMap additionalEnv, e.name ∉ startVariables
    decide +kernel

theorem startedServers_agree_sampleWorld :
    ∃ w', Operator.reconcile sampleWorld = .ok () w' ∧
      ∃ ensemble : List Server, ensemble.map Server.id = (sampleProvider 3).serverIds ∧
        ∀ i ∈ (sampleProvider 3).serverIds,
          ∃ d, w'.get? .deployment (serverName (sampleProvider 3).cr.name i) = some d ∧
            d.Joins sampleShell i ensemble := by
  obtain ⟨u, w', hcall⟩ := Outcome.returned_iff.mp
    (show (Operator.reconcile sampleWorld).returned = true by decide +kernel)
  exact ⟨w', hcall, ZooKeeperResourceProvider.startedServers_agree sampleShell
    (regular_sampleProvider 3) rfl rfl hcall⟩

/-- From three servers to five there are disjoint quorums. -/
theorem quorums_meet_iff_five : ∃ d d' before after,
    (sampleProvider 3).newServerDeploymentForCR 1 = .ok d ∧
    (sampleProvider 5).newServerDeploymentForCR 1 = .ok d' ∧
    d.declared sampleShell = some before ∧ d'.declared sampleShell = some after ∧
    before.map Server.id = [1, 2, 3] ∧ after.map Server.id = [1, 2, 3, 4, 5] ∧
    ¬ ∀ s t, IsQuorum before s → IsQuorum after t → (s ∩ t).Nonempty := by
  obtain ⟨d, hd⟩ : ∃ d, (sampleProvider 3).newServerDeploymentForCR 1 = .ok d := ⟨_, rfl⟩
  obtain ⟨d', hd'⟩ : ∃ d', (sampleProvider 5).newServerDeploymentForCR 1 = .ok d' := ⟨_, rfl⟩
  obtain ⟨before, after, hbefore, hafter, hids, hids', hmeet⟩ :=
    ZooKeeperResourceProvider.quorums_meet_iff sampleShell (regular_sampleProvider 3)
      (regular_sampleProvider 5) (by decide) (by decide) hd hd' (by decide)
  exact ⟨d, d', before, after, hd, hd', hbefore, hafter, hids, hids',
    fun h => absurd (hmeet.mp h) (by decide)⟩

end StartedServers

end QubershipZookeeper.Operator
