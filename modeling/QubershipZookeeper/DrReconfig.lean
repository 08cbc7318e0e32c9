import Mathlib
import QubershipZookeeper.ShellText
import QubershipZookeeper.HierarchicalQuorum

/-!
# The joint configuration of two sites (`dr_reconfig.sh`)

For disaster recovery the servers of a left and a right site form one ensemble.
The script writes `zoo.cfg.dynamic` with four loops: the servers of either side
with the list of its group, and then the weights, which put all the weight on
the active side if there is one. What ZooKeeper makes of the file is stated on
the lines as a reader takes them apart (`DynamicConfig.read`).
-/

namespace QubershipZookeeper

namespace DrReconfig

open Text HierarchicalQuorum

/-! ## The script -/

/-- The variables the script reads. -/
structure Env : Type where
  serverDomain : Text
  serverNamespace : Text
  drServerNameSuffix : Text
  /-- `SERVER_COUNT`, when it is set -/
  serverCount : Option ℕ

/-- `SERVER_COUNT` with its default. -/
def Env.count (env : Env) : ℕ := env.serverCount.getD 1

/-- `SERVER_NAMESPACE` with its dot. -/
def Env.namespaceSuffix (env : Env) : Text :=
  if env.serverNamespace ≠ [] then '.' :: env.serverNamespace else []

/-- `SERVER_DOMAIN` as it is rewritten before the loop of a side. -/
def Env.domainSuffix (env : Env) (side : Text) : Text :=
  if env.serverDomain ≠ [] then
    ['.'] ++ side ++ ['-'] ++ env.drServerNameSuffix ++ "-server".toList
  else []

/-- The ports and the role at the end of every server line. -/
def ports : Text := ":2888:3888:participant;2181".toList

/-- The host name in a server line. -/
def host (env : Env) (side : Text) (orderNumber : ℕ) : Text :=
  side ++ ['-'] ++ env.drServerNameSuffix ++ ['-'] ++ decimal orderNumber
    ++ env.domainSuffix side ++ env.namespaceSuffix

/-- A line `<kind>.<number>=<value>`. -/
def setting (kind : String) (number : ℕ) (value : Text) : Text :=
  kind.toList ++ '.' :: decimal number ++ '=' :: value

/-- The file and the variable `left_group` or `right_group`. -/
structure ServerLoop : Type where
  lines : List Text
  group : Text

/-- One round of the loops over the servers of a side. -/
def ServerLoop.round (env : Env) (side : Text) (serverNumber : ℕ → ℕ) (s : ServerLoop)
    (orderNumber : ℕ) : ServerLoop where
  lines := s.lines ++
    [setting "server" (serverNumber orderNumber) (host env side orderNumber ++ ports)]
  group := joinItem ':' s.group (decimal (serverNumber orderNumber))

/-- `for (( order_number=1; order_number <= SERVER_COUNT; order_number++ ))` over
the servers of a side -/
def serverLoop (env : Env) (side : Text) (serverNumber : ℕ → ℕ) (lines : List Text) : ServerLoop :=
  (List.range' 1 env.count).foldl (ServerLoop.round env side serverNumber) ⟨lines, []⟩

/-- The loops over the weights: the same weight for every number of the range. -/
def weightLoop (weight : ℕ) (numbers : List ℕ) (lines : List Text) : List Text :=
  numbers.foldl (fun lines orderNumber =>
    lines ++ [setting "weight" orderNumber (decimal weight)]) lines

/-- The lines of `zoo.cfg.dynamic` after the script. -/
def drReconfig (env : Env) (drActiveSide : Text) : List Text :=
  let lines := ["# Server List".toList]
  let left := serverLoop env "left".toList (fun orderNumber => orderNumber) lines
  let right := serverLoop env "right".toList (fun orderNumber => orderNumber + env.count) left.lines
  let lines := right.lines ++ [setting "group" 1 left.group] ++ [setting "group" 2 right.group]
  let rightWeight := if drActiveSide = "left".toList then 0 else 1
  let leftWeight := if drActiveSide = "right".toList then 0 else 1
  let lines := weightLoop leftWeight (List.range' 1 env.count) lines
  weightLoop rightWeight (List.range' (env.count + 1) env.count) lines

/-! ## What a reader makes of the file -/

/-- The contents of a line. -/
inductive Entry : Type where
  /-- `server.<id>=<host>:2888:3888:participant;2181` -/
  | server (id : ℕ) (host : Text)
  /-- `group.<id>=<server>:…:<server>` -/
  | group (id : ℕ) (members : List ℕ)
  /-- `weight.<id>=<weight>` -/
  | weight (id : ℕ) (weight : ℕ)
  /-- a line that starts with `#` -/
  | comment
  deriving DecidableEq, Repr

/-- The host of an address with the ports and the role of this script. -/
def readHost (address : Text) : Option Text :=
  if ports.isSuffixOf address then some (address.take (address.length - ports.length)) else none

/-- A line taken apart at the first `=`, and its key at the first dot. -/
def readLine (line : Text) : Option Entry :=
  if line.head? = some '#' then some .comment else
    let (key, value) := cutAt '=' line
    let (kind, number) := cutAt '.' key
    (readNat number).bind fun id =>
      if kind = "server".toList then (readHost value).map (.server id)
      else if kind = "group".toList then ((value.splitOn ':').mapM readNat).map (.group id)
      else if kind = "weight".toList then (readNat value).map (.weight id)
      else none

/-- A configuration: which servers, groups and weights it declares, in order. -/
structure DynamicConfig : Type where
  servers : List (ℕ × Text)
  groups : List (ℕ × List ℕ)
  weights : List (ℕ × ℕ)
  deriving DecidableEq, Repr

/-- The declarations in a list of entries. -/
def DynamicConfig.ofEntries (entries : List Entry) : DynamicConfig where
  servers := entries.filterMap fun
    | .server id host => some (id, host)
    | _ => none
  groups := entries.filterMap fun
    | .group id members => some (id, members)
    | _ => none
  weights := entries.filterMap fun
    | .weight id weight => some (id, weight)
    | _ => none

/-- The configuration in a file; `none` if a line cannot be read. -/
def DynamicConfig.read (lines : List Text) : Option DynamicConfig :=
  (lines.mapM readLine).map DynamicConfig.ofEntries

namespace DynamicConfig

variable (cfg : DynamicConfig)

/-- The servers of a group. -/
def members (group : ℕ) : Finset ℕ := ((cfg.groups.lookup group).getD []).toFinset

/-- The weight of a server, by default `1`. -/
def weight (id : ℕ) : ℕ := (cfg.weights.lookup id).getD 1

/-- ZooKeeper's rule for hierarchical quorums. -/
def IsQuorum (s : Finset ℕ) : Prop :=
  Quorum (cfg.groups.map Prod.fst).toFinset cfg.members cfg.weight s

end DynamicConfig

/-! ## The lines of the loops -/

section Lines

theorem readHost_append (name : Text) : readHost (name ++ ports) = some name := by
  have hsuffix : ports.isSuffixOf (name ++ ports) = true :=
    List.isSuffixOf_iff_suffix.mpr (List.suffix_append name ports)
  rw [readHost, if_pos hsuffix, List.length_append, Nat.add_sub_cancel, List.take_left]

/-- The key of a line, taken apart. -/
theorem readLine_setting (kind : String) (hhead : kind.toList.head? ≠ some '#')
    (hne : kind.toList ≠ []) (hdot : '.' ∉ kind.toList) (heq : '=' ∉ kind.toList)
    (id : ℕ) (value : Text) :
    readLine (setting kind id value) =
      if kind.toList = "server".toList then (readHost value).map (.server id)
      else if kind.toList = "group".toList then ((value.splitOn ':').mapM readNat).map (.group id)
      else if kind.toList = "weight".toList then (readNat value).map (.weight id)
      else none := by
  have hdigits : '=' ∉ decimal id := notMem_decimal (by decide)
  have hkey : '=' ∉ kind.toList ++ '.' :: decimal id := by
    simp [heq, hdigits]
  have hfirst : (setting kind id value).head? ≠ some '#' := by
    rw [setting, List.append_assoc, List.head?_append_of_ne_nil _ hne]
    exact hhead
  rw [readLine, if_neg hfirst, setting, cutAt_append hkey]
  simp only [cutAt_append hdot, readNat_decimal, Option.bind_some]

/-- The line of a server is read back as the script wrote it. -/
theorem readLine_server (id : ℕ) (name : Text) :
    readLine (setting "server" id (name ++ ports)) = some (.server id name) := by
  rw [readLine_setting "server" (by decide) (by decide) (by decide) (by decide), if_pos rfl,
    readHost_append, Option.map_some]

/-- The line of a weight is read back. -/
theorem readLine_weight (id weight : ℕ) :
    readLine (setting "weight" id (decimal weight)) = some (.weight id weight) := by
  rw [readLine_setting "weight" (by decide) (by decide) (by decide) (by decide),
    if_neg (by decide), if_neg (by decide), if_pos rfl, readNat_decimal, Option.map_some]

theorem mapM_readNat_decimal (numbers : List ℕ) :
    (numbers.map decimal).mapM readNat = some numbers := by
  induction numbers with
  | nil => rfl
  | cons n numbers ih => simp [List.mapM_cons, ih]

/-- A group line, read back: the members that the loop has joined. -/
theorem readLine_group (id : ℕ) {numbers : List ℕ} (h : numbers ≠ []) :
    readLine (setting "group" id (joined ':' (numbers.map decimal))) =
      some (.group id numbers) := by
  have hsplit : (joined ':' (numbers.map decimal)).splitOn ':' = numbers.map decimal := by
    apply splitOn_joined
    · simpa using h
    · intro item hitem
      obtain ⟨n, -, rfl⟩ := List.mem_map.mp hitem
      exact decimal_ne_nil n
    · intro item hitem
      obtain ⟨n, -, rfl⟩ := List.mem_map.mp hitem
      exact notMem_decimal (by decide)
  rw [readLine_setting "group" (by decide) (by decide) (by decide) (by decide),
    if_neg (by decide), if_pos rfl, hsplit, mapM_readNat_decimal, Option.map_some]

/-- A loop over the servers of a side: one line for each, and their numbers joined. -/
theorem foldl_serverRound (env : Env) (side : Text) (serverNumber : ℕ → ℕ) (orders : List ℕ)
    (s : ServerLoop) :
    orders.foldl (ServerLoop.round env side serverNumber) s =
      ⟨s.lines ++ orders.map
        (fun i => setting "server" (serverNumber i) (host env side i ++ ports)),
        (orders.map fun i => decimal (serverNumber i)).foldl (joinItem ':') s.group⟩ := by
  induction orders generalizing s with
  | nil => rw [List.map_nil, List.append_nil, List.map_nil, List.foldl_nil, List.foldl_nil]
  | cons i orders ih =>
    rw [List.foldl_cons, ih, List.map_cons, List.map_cons, List.foldl_cons, List.append_cons]
    rfl

/-- The loop over the servers of a side, as a list of lines. -/
theorem serverLoop_eq (env : Env) (side : Text) (serverNumber : ℕ → ℕ) (lines : List Text) :
    serverLoop env side serverNumber lines =
      ⟨lines ++ (List.range' 1 env.count).map
          (fun i => setting "server" (serverNumber i) (host env side i ++ ports)),
        joined ':' ((List.range' 1 env.count).map fun i => decimal (serverNumber i))⟩ :=
  foldl_serverRound env side serverNumber _ _

/-- The loop over the weights. -/
theorem weightLoop_eq (weight : ℕ) (numbers : List ℕ) (lines : List Text) :
    weightLoop weight numbers lines =
      lines ++ numbers.map (setting "weight" · (decimal weight)) := by
  induction numbers generalizing lines with
  | nil => simp [weightLoop]
  | cons i numbers ih =>
    have := ih (lines ++ [setting "weight" i (decimal weight)])
    rw [List.map_cons, List.append_cons]
    exact this

end Lines

/-! ## The configuration that the script declares -/

section Declared

variable (env : Env) (side : Text)

/-- The weights of the two sides. -/
def leftWeight : ℕ := if side = "right".toList then 0 else 1

@[inherit_doc leftWeight]
def rightWeight : ℕ := if side = "left".toList then 0 else 1

/-- The numbers of the servers of the left side and of the right side. -/
def leftNumbers : List ℕ := List.range' 1 env.count

@[inherit_doc leftNumbers]
def rightNumbers : List ℕ := List.range' (env.count + 1) env.count

/-- What the script declares. -/
def declared : DynamicConfig where
  servers := (leftNumbers env).map (fun i => (i, host env "left".toList i))
    ++ (leftNumbers env).map (fun i => (i + env.count, host env "right".toList i))
  groups := [(1, leftNumbers env), (2, rightNumbers env)]
  weights := (leftNumbers env).map (·, leftWeight side)
    ++ (rightNumbers env).map (·, rightWeight side)

/-- The entries of the file, in order. -/
def entries : List Entry :=
  .comment :: (leftNumbers env).map (fun i => .server i (host env "left".toList i))
    ++ (leftNumbers env).map (fun i => .server (i + env.count) (host env "right".toList i))
    ++ [.group 1 (leftNumbers env), .group 2 (rightNumbers env)]
    ++ (leftNumbers env).map (.weight · (leftWeight side))
    ++ (rightNumbers env).map (.weight · (rightWeight side))

/-- The entries in their order make up the declared configuration. -/
theorem ofEntries_entries : DynamicConfig.ofEntries (entries env side) = declared env side := by
  simp [DynamicConfig.ofEntries, entries, declared, List.filterMap_append, List.filterMap_map]

theorem map_add_leftNumbers : (leftNumbers env).map (· + env.count) = rightNumbers env := by
  simp only [leftNumbers, rightNumbers, Nat.add_comm _ env.count]
  exact List.map_add_range' _ _ _

section MapM

variable {α β γ : Type} {f : α → β} {g : β → Option γ} {h : α → γ}

theorem mapM_map_eq_some (hfg : ∀ a, g (f a) = some (h a)) (l : List α) :
    (l.map f).mapM g = some (l.map h) := by
  induction l with
  | nil => rfl
  | cons a l ih => simp [List.mapM_cons, hfg, ih]

theorem mapM_append_eq_some {l₁ l₂ : List β} {r₁ r₂ : List γ} (h₁ : l₁.mapM g = some r₁)
    (h₂ : l₂.mapM g = some r₂) : (l₁ ++ l₂).mapM g = some (r₁ ++ r₂) := by
  simp [List.mapM_append, h₁, h₂]

theorem mapM_singleton_eq_some {b : β} {c : γ} (hb : g b = some c) : [b].mapM g = some [c] := by
  simp [hb]

end MapM

variable {env}

theorem leftNumbers_ne_nil (h : 1 ≤ env.count) : leftNumbers env ≠ [] := by
  rw [leftNumbers, ne_eq, List.range'_eq_nil_iff]
  omega

theorem rightNumbers_ne_nil (h : 1 ≤ env.count) : rightNumbers env ≠ [] := by
  rw [rightNumbers, ne_eq, List.range'_eq_nil_iff]
  omega

/-- Every line can be read, and says what it was written for. -/
theorem mapM_readLine_drReconfig (h : 1 ≤ env.count) :
    (drReconfig env side).mapM readLine = some (entries env side) := by
  have hright : (List.range' 1 env.count).map (fun i => decimal (i + env.count))
      = (rightNumbers env).map decimal := by
    rw [← map_add_leftNumbers, List.map_map]
    rfl
  have hcomment : readLine "# Server List".toList = some .comment := by decide +kernel
  have hservers (name : Text) (number : ℕ → ℕ) :=
    mapM_map_eq_some (fun i => readLine_server (number i) (host env name i)) (leftNumbers env)
  have hweights (weight : ℕ) (numbers : List ℕ) :=
    mapM_map_eq_some (fun i => readLine_weight i weight) numbers
  have hleftGroup := mapM_singleton_eq_some (readLine_group 1 (leftNumbers_ne_nil h))
  have hrightGroup := mapM_singleton_eq_some (readLine_group 2 (rightNumbers_ne_nil h))
  simp only [drReconfig, serverLoop_eq, weightLoop_eq, hright]
  have hlines := mapM_append_eq_some
    (mapM_append_eq_some (mapM_singleton_eq_some hcomment) (hservers "left".toList fun i => i))
    (hservers "right".toList fun i => i + env.count)
  have hgroups := mapM_append_eq_some (mapM_append_eq_some hlines hleftGroup) hrightGroup
  have hall := mapM_append_eq_some
    (mapM_append_eq_some hgroups (hweights (leftWeight side) (leftNumbers env)))
    (hweights (rightWeight side) (rightNumbers env))
  refine Eq.trans hall ?_
  rw [entries, List.append_assoc _ [Entry.group 1 _]]
  rfl

/-- **What the script writes is read back** as the configuration it declares. -/
theorem read_drReconfig (h : 1 ≤ env.count) :
    DynamicConfig.read (drReconfig env side) = some (declared env side) := by
  rw [DynamicConfig.read, mapM_readLine_drReconfig side h, Option.map_some, ofEntries_entries]

/-! ### Servers and hosts -/

/-- Different servers of a side have different hosts. -/
theorem host_injective (name : Text) : Function.Injective (host env name) := by
  intro i j h
  simp only [host, List.append_assoc] at h
  have hnumber := List.append_cancel_left (List.append_cancel_left
    (List.append_cancel_left (List.append_cancel_left h)))
  exact decimal_injective (List.append_cancel_right hnumber)

/-- No host is on both sides. -/
theorem host_left_ne_right (i j : ℕ) : host env "left".toList i ≠ host env "right".toList j := by
  intro h
  simp only [host, List.append_assoc] at h
  have hhead := congrArg List.head? h
  simp at hhead

theorem mem_leftNumbers {i : ℕ} : i ∈ leftNumbers env ↔ 1 ≤ i ∧ i ≤ env.count := by
  rw [leftNumbers, List.mem_range'_1]
  omega

theorem mem_rightNumbers {i : ℕ} :
    i ∈ rightNumbers env ↔ env.count + 1 ≤ i ∧ i ≤ 2 * env.count := by
  rw [rightNumbers, List.mem_range'_1]
  omega

theorem nodup_leftNumbers : (leftNumbers env).Nodup := List.nodup_range'

/-- The two sides together have the numbers from one to twice the count. -/
theorem left_append_right :
    leftNumbers env ++ rightNumbers env = List.range' 1 (2 * env.count) := by
  rw [leftNumbers, rightNumbers, Nat.two_mul, ← List.range'_append_1, Nat.add_comm 1]

/-- Every server is declared once. -/
theorem ids_declared :
    (declared env side).servers.map Prod.fst = List.range' 1 (2 * env.count) := by
  rw [← left_append_right, ← map_add_leftNumbers]
  simp [declared, Function.comp_def]

/-- No host is declared twice. -/
theorem nodup_hosts_declared : ((declared env side).servers.map Prod.snd).Nodup := by
  have hservers : (declared env side).servers.map Prod.snd
      = (leftNumbers env).map (host env "left".toList)
        ++ (leftNumbers env).map (host env "right".toList) := by
    simp [declared, Function.comp_def]
  rw [hservers, List.nodup_append]
  refine ⟨nodup_leftNumbers.map (host_injective _), nodup_leftNumbers.map (host_injective _), ?_⟩
  intro a ha b hb
  obtain ⟨i, -, rfl⟩ := List.mem_map.mp ha
  obtain ⟨j, -, rfl⟩ := List.mem_map.mp hb
  exact host_left_ne_right i j

/-- Every server has a weight. -/
theorem weighted_declared :
    (declared env side).weights.map Prod.fst = List.range' 1 (2 * env.count) := by
  rw [← left_append_right]
  simp [declared, Function.comp_def]

/-! ### Quorums -/

/-- The groups are the two sides. -/
theorem members_left : (declared env side).members 1 = Finset.Icc 1 env.count := by
  ext i
  rw [Finset.mem_Icc, ← mem_leftNumbers]
  simp [DynamicConfig.members, declared]

theorem members_right :
    (declared env side).members 2 = Finset.Icc (env.count + 1) (2 * env.count) := by
  ext i
  rw [Finset.mem_Icc, ← mem_rightNumbers]
  simp [DynamicConfig.members, declared, List.lookup]

theorem lookup_map_pair {i : ℕ} {numbers : List ℕ} (weight : ℕ) :
    (numbers.map (·, weight)).lookup i = if i ∈ numbers then some weight else none := by
  induction numbers with
  | nil => rfl
  | cons n numbers ih =>
    rw [List.map_cons, List.lookup_cons, ih]
    by_cases hn : i = n
    · simp [hn]
    · have hbeq : (i == n) = false := beq_false_of_ne hn
      simp [hn, hbeq]

/-- The weight of a server is that of its side. -/
theorem weight_declared (i : ℕ) : (declared env side).weight i =
    if i ∈ leftNumbers env then leftWeight side
    else if i ∈ rightNumbers env then rightWeight side else 1 := by
  rw [DynamicConfig.weight, declared, List.lookup_append, lookup_map_pair, lookup_map_pair]
  split
  · rfl
  · split <;> rfl

theorem weight_left {i : ℕ} (hi : i ∈ (declared env side).members 1) :
    (declared env side).weight i = leftWeight side := by
  rw [members_left, Finset.mem_Icc] at hi
  rw [weight_declared, if_pos (mem_leftNumbers.mpr hi)]

theorem weight_right {i : ℕ} (hi : i ∈ (declared env side).members 2) :
    (declared env side).weight i = rightWeight side := by
  rw [members_right, Finset.mem_Icc] at hi
  have hleft : i ∉ leftNumbers env := by
    rw [mem_leftNumbers]
    omega
  rw [weight_declared, if_neg hleft, if_pos (mem_rightNumbers.mpr hi)]

/-- With all the weight in one of the two groups, the quorums are the majorities
of its servers. -/
theorem isQuorum_iff_of_weights (cfg : DynamicConfig) {active passive : ℕ} (s : Finset ℕ)
    (hgroups : (cfg.groups.map Prod.fst).toFinset = {active, passive})
    (hactive : ∀ i ∈ cfg.members active, cfg.weight i = 1)
    (hpassive : ∀ i ∈ cfg.members passive, cfg.weight i = 0)
    (hne : 0 < (cfg.members active).card) :
    cfg.IsQuorum s ↔ (cfg.members active).card < 2 * (cfg.members active ∩ s).card := by
  have hheavy : heavy {active, passive} cfg.members cfg.weight = {active} := by
    ext g
    simp only [heavy, Finset.mem_filter, Finset.mem_insert, Finset.mem_singleton]
    constructor
    · rintro ⟨rfl | rfl, hsum⟩
      · rfl
      · exact absurd (Finset.sum_eq_zero hpassive) hsum
    · rintro rfl
      refine ⟨.inl rfl, ?_⟩
      rw [Finset.sum_congr rfl hactive, ← Finset.card_eq_sum_ones]
      exact hne.ne'
  rw [DynamicConfig.IsQuorum, hgroups, quorum_iff_of_heavy hheavy, majority_iff_of_unit hactive]

/-- With the left side active, a quorum is a majority of the left side. -/
theorem isQuorum_left (h : 1 ≤ env.count) (s : Finset ℕ) :
    (declared env "left".toList).IsQuorum s
      ↔ env.count < 2 * (Finset.Icc 1 env.count ∩ s).card := by
  have hcard : ((declared env "left".toList).members 1).card = env.count := by
    rw [members_left, Nat.card_Icc, Nat.add_sub_cancel]
  have hquorum := isQuorum_iff_of_weights (declared env "left".toList) s rfl
    (fun i hi => weight_left _ hi) (fun i hi => weight_right _ hi) (by omega)
  rw [hquorum, hcard, members_left]

/-- With the right side active, a quorum is a majority of the right side. -/
theorem isQuorum_right (h : 1 ≤ env.count) (s : Finset ℕ) :
    (declared env "right".toList).IsQuorum s
      ↔ env.count < 2 * (Finset.Icc (env.count + 1) (2 * env.count) ∩ s).card := by
  have hcard : ((declared env "right".toList).members 2).card = env.count := by
    rw [members_right, Nat.card_Icc]
    omega
  have hquorum := isQuorum_iff_of_weights (declared env "right".toList) s
    (Finset.pair_comm 1 2) (fun i hi => weight_right _ hi) (fun i hi => weight_left _ hi) (by omega)
  rw [hquorum, hcard, members_right]

end Declared

/-! ## The joint ensemble -/

/-- The ensemble of twice `n` servers: the left side has the numbers up to `n`,
the right side those above. -/
structure JointEnsemble (n : ℕ) (drActiveSide : Text) (cfg : DynamicConfig) : Prop where
  /-- each number is declared once -/
  ids : cfg.servers.map Prod.fst = List.range' 1 (2 * n)
  /-- no two servers have one host -/
  hosts : (cfg.servers.map Prod.snd).Nodup
  /-- the groups are the two sides -/
  groups : cfg.groups = [(1, List.range' 1 n), (2, List.range' (n + 1) n)]
  /-- each number is weighted once -/
  weighted : cfg.weights.map Prod.fst = List.range' 1 (2 * n)
  /-- there is no split brain -/
  inter : ∀ s t, cfg.IsQuorum s → cfg.IsQuorum t → (s ∩ t).Nonempty
  /-- with the left side active, it alone decides -/
  left : drActiveSide = "left".toList →
    ∀ s, cfg.IsQuorum s ↔ n < 2 * (Finset.Icc 1 n ∩ s).card
  /-- with the right side active, it alone decides -/
  right : drActiveSide = "right".toList →
    ∀ s, cfg.IsQuorum s ↔ n < 2 * (Finset.Icc (n + 1) (2 * n) ∩ s).card

/-- **The configuration of the script is a joint ensemble.** For any number of
servers and any argument, the file can be read, and whatever sets of servers the
hierarchical rule accepts share a server. -/
theorem jointEnsemble_drReconfig (env : Env) (side : Text) (h : 1 ≤ env.count) :
    ∃ cfg, DynamicConfig.read (drReconfig env side) = some cfg ∧
      JointEnsemble env.count side cfg := by
  refine ⟨declared env side, read_drReconfig side h, ids_declared side, nodup_hosts_declared side,
    rfl, weighted_declared side, fun s t hs ht => hs.inter ht, ?_, ?_⟩
  · rintro rfl s
    exact isQuorum_left h s
  · rintro rfl s
    exact isQuorum_right h s

/-- Three servers on either side, the left one active. -/
theorem jointEnsemble_three :
    let env : Env :=
      { serverDomain := "zookeeper-server".toList, serverNamespace := "zk".toList,
        drServerNameSuffix := "zookeeper".toList, serverCount := some 3 }
    1 ≤ env.count ∧ ∃ cfg, DynamicConfig.read (drReconfig env "left".toList) = some cfg ∧
      JointEnsemble 3 "left".toList cfg :=
  ⟨by decide, jointEnsemble_drReconfig _ _ (by decide)⟩

end DrReconfig

end QubershipZookeeper
