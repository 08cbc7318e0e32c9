import QubershipZookeeper.DrReconfig
import QubershipZookeeper.Proc
import QubershipZookeeper.SaslConfig

/-!
# The list of the servers (`start` in `docker-entrypoint.sh`)

Every server writes the list of the whole ensemble for itself, before it starts. In a cloud the
list is counted up from the number of servers and their common name; a joint ensemble of two sites
has a script of its own (`DrReconfig`); anywhere else the list is taken apart from a variable. In
all three cases the file is written line by line, and a start that breaks off leaves the lines it
has written.
-/

namespace QubershipZookeeper

namespace ServerList

open Text DrReconfig HierarchicalQuorum

/-! ## The script -/

/-- The variables that the first part of the function reads. A variable that is not set is empty. -/
structure Env where
  serverName : Text := []
  serverId : Text := []
  serverCount : Text := []
  serverDomain : Text := []
  serverNamespace : Text := []
  isCloudEnabled : Text := []
  drJointCluster : Text := []
  drActiveSide : Text := []
  drServerNameSuffix : Text := []
  enableSsl : Text := []
  allowNonencryptedAccess : Text := []
  quorumServers : Text := []
  zookeeperFollowersPort : Text := []
  zookeeperElectionPort : Text := []

/-- What the script relies on of the shell. -/
structure Shell where
  /-- the value of a variable in an arithmetic expression -/
  number : Text → ℤ
  number_decimal : ∀ n : ℕ, number (decimal n) = n

/-- The files that the function writes, by lines. -/
structure Files where
  /-- `zoo.cfg.dynamic` -/
  dynamic : Option (List Text)
  /-- `myid` -/
  myid : Option Text
  deriving DecidableEq

/-- A script that may print a message and end with status 1. -/
abbrev Script : Type → Type := Proc Text Files

/-- A variable with a default. -/
def orDefault (value fallback : Text) : Text := if value = [] then fallback else value

/-- A part of a domain name, with its dot. -/
def dotted (part : Text) : Text := if part = [] then [] else '.' :: part

namespace Env

variable (env : Env)

/-- `SERVER_NAME` -/
def name : Text := orDefault env.serverName "zookeeper".toList

/-- `SERVER_ID` -/
def id : Text := orDefault env.serverId "1".toList

/-- `SERVER_COUNT` -/
def count : Text := orDefault env.serverCount "1".toList

/-- `CLIENT_PORT`: with TLS the list has no port for clients, or that for access without TLS. -/
def clientPort : Text :=
  if env.enableSsl = "true".toList then
    if env.allowNonencryptedAccess = "true".toList then "2182".toList else []
  else "2181".toList

/-- The host name of a server. -/
def host (orderNumber : ℕ) : Text :=
  env.name ++ '-' :: decimal orderNumber ++ dotted env.serverDomain ++ dotted env.serverNamespace

/-- The line of a server. -/
def serverLine (orderNumber : ℕ) : Text :=
  setting "server" orderNumber
    (env.host orderNumber ++ ":2888:3888:participant;".toList ++ env.clientPort)

/-- `QUORUM_SERVERS` -/
def quorumServersText : Text :=
  orDefault env.quorumServers (env.id ++ "@0.0.0.0:".toList ++ env.zookeeperFollowersPort ++
    ':' :: env.zookeeperElectionPort ++ ":participant".toList)

end Env

/-- `read -r -a`: the fields of the first line. -/
def readFields (c : Char) (text : Text) : List Text :=
  SaslConfig.fields c ((text.splitOn '\n').headD [])

/-- `echo "…" >> zoo.cfg.dynamic` -/
def echo (line : Text) : Script Unit :=
  Proc.update fun files => { files with dynamic := some (files.dynamic.getD [] ++ [line]) }

/-- The message if there are more or fewer servers than they should be. -/
def countMessage : Text :=
  "ERROR: The number of QUORUM_SERVERS must be equal to SERVER_COUNT".toList

/-- The message on a server that cannot be taken apart. -/
def formatMessage (quorumServer : Text) : Text :=
  ("ERROR: Incorrect format of quorum server string " ++
    "(<server_id>@<zookeeper_host>:<follower_port>:<election_post>): ").toList ++
      quorumServer ++ ['.']

/-- The line of a server that is given; `none` if it is not in the format. -/
def quorumLine (quorumServer : Text) : Option Text :=
  match readFields '@' quorumServer with
  | [serverId, address] =>
    if serverId = [] then none else some ("server.".toList ++ serverId ++ '=' :: address)
  | _ => none

section Start

variable (shell : Shell) (env : Env)

/-- The list in a cloud. -/
def writeServers : Script Unit := do
  echo "# Server List".toList
  Proc.forEach (List.range' 1 (shell.number env.count).toNat) fun orderNumber =>
    echo (env.serverLine orderNumber)

/-- The list of a joint ensemble. -/
def writeJointServers : Script Unit :=
  Proc.update fun files => { files with
    dynamic := some (drReconfig
      { serverDomain := env.serverDomain
        serverNamespace := env.serverNamespace
        drServerNameSuffix := env.drServerNameSuffix
        serverCount := some (shell.number env.count).toNat } env.drActiveSide) }

/-- The list of the servers that are given. -/
def writeQuorumServers : Script Unit := do
  let quorumServers := readFields ',' env.quorumServersText
  if decimal quorumServers.length ≠ env.count then Proc.raise countMessage
  else
    Proc.forEach (List.range' 1 (shell.number env.count).toNat) fun i =>
      let quorumServer := quorumServers.getD (i - 1) []
      match quorumLine quorumServer with
      | some line => echo line
      | none => Proc.raise (formatMessage quorumServer)

/-- The three ways to a list. -/
def writeList : Script Unit :=
  if orDefault env.isCloudEnabled "true".toList = "true".toList then
    if env.drJointCluster = "true".toList then writeJointServers shell env
    else writeServers shell env
  else writeQuorumServers shell env

/-- The part of `start` that configures the ensemble. A list that is there is left alone. -/
def configure : Script Unit := do
  let dynamic ← Proc.observe Files.dynamic
  if dynamic = none then writeList shell env else pure ()
  Proc.update fun files => { files with myid := some env.id }

/-- The script of a container that gets as far as `start`: what an earlier container has left in
`/tmp/zookeeper` is removed, the configuration of the image is copied, and `start` configures the
ensemble. The exits on the way, for user names that are not unique and for TLS without
certificates, are left out. -/
def entrypoint (image : Option (List Text)) : Script Unit := do
  Proc.update fun files => { files with dynamic := image }
  configure shell env

end Start

/-! ## What a reader makes of the list -/

/-- A server as a line declares it. -/
structure Server where
  id : ℕ
  host : Text
  followersPort : ℕ
  electionPort : ℕ
  /-- the port for clients, if the list has one -/
  clientPort : Option ℕ
  deriving DecidableEq, Repr

/-- `<host>:<port>:<port>:participant` -/
def readAddress (address : Text) : Option (Text × ℕ × ℕ) :=
  match address.splitOn ':' with
  | [host, followersPort, electionPort, role] =>
    if role = "participant".toList then
      (readNat followersPort).bind fun f => (readNat electionPort).map fun e => (host, f, e)
    else none
  | _ => none

/-- The port for clients. Nothing after the semicolon declares none. -/
def readClientPort (text : Text) : Option (Option ℕ) :=
  if text = [] then some none else (readNat text).map some

/-- `server.<id>=<address>;<port for clients>` -/
def readServer (line : Text) : Option Server :=
  let (key, value) := cutAt '=' line
  let (kind, number) := cutAt '.' key
  let (address, clients) := cutAt ';' value
  if kind = "server".toList then
    (readNat number).bind fun id => (readAddress address).bind fun (host, f, e) =>
      (readClientPort clients).map fun clientPort => ⟨id, host, f, e, clientPort⟩
  else none

/-- The servers of a file; `none` if a line cannot be read. -/
def readServers (lines : List Text) : Option (List Server) :=
  (lines.filter fun line => line.head? ≠ some '#').mapM readServer

/-- ZooKeeper's rule without groups: more than half of the servers. -/
def IsQuorum (servers : List Server) (s : Finset ℕ) : Prop :=
  Majority (fun _ => 1) (servers.map Server.id).toFinset s

/-! ## The list in a cloud -/

/-- The file after lines have been appended to it; no line makes no file. -/
def appended (lines : List Text) (files : Files) : Files :=
  if lines = [] then files else { files with dynamic := some (files.dynamic.getD [] ++ lines) }

theorem appended_cons (line : Text) (lines : List Text) (files : Files) :
    appended (line :: lines) files =
      { files with dynamic := some (files.dynamic.getD [] ++ line :: lines) } :=
  if_neg (List.cons_ne_nil line lines)

/-- Lines that are appended one after the other. -/
theorem appended_appended (line : Text) (lines : List Text) (files : Files) :
    appended lines (appended [line] files) = appended (line :: lines) files := by
  rw [appended_cons, appended_cons, appended]
  split
  · next h => rw [h]
  · rw [Option.getD_some, List.append_assoc, List.singleton_append]

/-- A redirected `echo` appends its line, and makes the file if there is none. -/
theorem echo_apply (line : Text) (files : Files) :
    echo line files = .ok () (appended [line] files) := by
  rw [appended_cons]
  rfl

/-- A loop of them appends all lines. -/
theorem forEach_echo (lines : List Text) (files : Files) :
    Proc.forEach lines echo files = .ok () (appended lines files) := by
  induction lines generalizing files with
  | nil => rfl
  | cons line lines ih =>
    rw [Proc.forEach_cons, Proc.bind_ok (echo_apply line files), ih, appended_appended]

section Cloud

variable (shell : Shell) (env : Env)

/-- The list of `n` servers. -/
def serverLines (n : ℕ) : List Text :=
  "# Server List".toList :: (List.range' 1 n).map env.serverLine

/-- The loop of the entrypoint writes a line for each server. -/
theorem writeServers_apply {n : ℕ} (hcount : env.count = decimal n) (files : Files) :
    writeServers shell env files = .ok () (appended (serverLines env n) files) := by
  have hnumber : (shell.number env.count).toNat = n := by
    rw [hcount, shell.number_decimal, Int.toNat_natCast]
  have hlines : writeServers shell env = Proc.forEach (serverLines env n) echo := by
    rw [writeServers, hnumber, serverLines, Proc.forEach_cons, Proc.forEach_map]
  rw [hlines, forEach_echo]

/-- In a cloud, with one site. -/
structure Env.Single : Prop where
  cloud : orDefault env.isCloudEnabled "true".toList = "true".toList
  single : env.drJointCluster ≠ "true".toList

/-- A start in a container without a list of its own. -/
theorem entrypoint_apply (files : Files) :
    entrypoint shell env none files =
      match writeList shell env { files with dynamic := none } with
      | .ok _ written => .ok () { written with myid := some env.id }
      | .raised message written => .raised message written := by
  have hrun : entrypoint shell env none files = (do
      writeList shell env
      Proc.update fun files => { files with myid := some env.id })
        { files with dynamic := none } := rfl
  rw [hrun, Proc.bind_apply]
  cases writeList shell env { files with dynamic := none } <;> rfl

/-- In a cloud a start writes the list of as many servers as it is told. -/
theorem entrypoint_single (h : env.Single) {n : ℕ} (hcount : env.count = decimal n)
    (files : Files) :
    entrypoint shell env none files =
      .ok () { dynamic := some (serverLines env n), myid := some env.id } := by
  rw [entrypoint_apply, writeList, if_pos h.cloud, if_neg h.single,
    writeServers_apply shell env hcount, serverLines, appended_cons]
  rfl

/-- The port for clients as a number. -/
def Env.clientPortNumber : Option ℕ :=
  if env.enableSsl = "true".toList then
    if env.allowNonencryptedAccess = "true".toList then some 2182 else none
  else some 2181

theorem readClientPort_clientPort : readClientPort env.clientPort = some env.clientPortNumber := by
  unfold Env.clientPort Env.clientPortNumber
  split
  · split
    · decide +kernel
    · rfl
  · decide +kernel

theorem readAddress_append {host : Text} (h : ':' ∉ host) :
    readAddress (host ++ ":2888:3888:participant".toList) = some (host, 2888, 3888) := by
  have hsplit : (host ++ ":2888:3888:participant".toList).splitOn ':' =
      host :: ["2888".toList, "3888".toList, "participant".toList] := by
    have hrest : "2888:3888:participant".toList.splitOn ':' =
      ["2888".toList, "3888".toList, "participant".toList] := by decide +kernel
    rw [← hrest, ← splitOn_append_cons h]
    rfl
  rw [readAddress, hsplit]
  have hfollowers : readNat "2888".toList = some 2888 := by decide +kernel
  have helection : readNat "3888".toList = some 3888 := by decide +kernel
  simp only [hfollowers, helection, if_true, Option.bind_some, Option.map_some]

/-- The line of a server, read back. -/
theorem readServer_serverLine {i : ℕ} (h : Avoids [':', ';'] (env.host i)) :
    readServer (env.serverLine i) = some ⟨i, env.host i, 2888, 3888, env.clientPortNumber⟩ := by
  have hkey : '=' ∉ "server".toList ++ '.' :: decimal i := by
    have hdigits : '=' ∉ decimal i := notMem_decimal (by decide)
    simp [hdigits]
  have haddress : ';' ∉ env.host i ++ ":2888:3888:participant".toList := by
    have hhost : ';' ∉ env.host i := h.notMem (by decide)
    simp [hhost]
  have hvalue : env.host i ++ ":2888:3888:participant;".toList ++ env.clientPort =
      (env.host i ++ ":2888:3888:participant".toList) ++ ';' :: env.clientPort := by
    simp
  rw [Env.serverLine, hvalue, readServer, setting, cutAt_append hkey]
  simp only [cutAt_append (show '.' ∉ "server".toList by decide), cutAt_append haddress, if_true,
    readNat_decimal, Option.bind_some,
    readAddress_append (h.notMem (show ':' ∈ [':', ';'] by decide)),
    readClientPort_clientPort, Option.map_some]

/-- The ensemble of `n` servers. -/
def ensemble (n : ℕ) : List Server :=
  (List.range' 1 n).map fun i => ⟨i, env.host i, 2888, 3888, env.clientPortNumber⟩

/-- The list that was written is read back by ZooKeeper as the ensemble. -/
theorem readServers_serverLines {n : ℕ} (h : ∀ i, Avoids [':', ';'] (env.host i)) :
    readServers (serverLines env n) = some (ensemble env n) := by
  have hkeep : (serverLines env n).filter (fun line => line.head? ≠ some '#') =
      (List.range' 1 n).map env.serverLine := by
    rw [serverLines, List.filter_cons_of_neg (by decide)]
    refine List.filter_eq_self.mpr fun line hline => ?_
    obtain ⟨i, -, rfl⟩ := List.mem_map.mp hline
    rfl
  rw [readServers, hkeep, ensemble]
  exact mapM_map_eq_some (fun i => readServer_serverLine env (h i)) _

/-- A quorum of the ensemble is a majority of its servers. -/
theorem isQuorum_ensemble (n : ℕ) (s : Finset ℕ) :
    IsQuorum (ensemble env n) s ↔ n < 2 * (Finset.Icc 1 n ∩ s).card := by
  have hids : ((ensemble env n).map Server.id).toFinset = Finset.Icc 1 n := by
    ext i
    rw [ensemble, List.map_map, List.mem_toFinset, Finset.mem_Icc]
    simp only [Function.comp_def, List.map_id']
    rw [List.mem_range'_1]
    omega
  rw [IsQuorum, majority_iff_of_unit fun _ _ => rfl, hids, Nat.card_Icc, Nat.add_sub_cancel]

end Cloud

/-! ## The list of given servers -/

section Given

variable {c : Char} {text first second : Text}

/-- Two fields: a separator between them, and maybe one at the end. -/
theorem fields_eq_pair_iff : SaslConfig.fields c text = [first, second] ↔ c ∉ first ∧ c ∉ second ∧
    (text = first ++ c :: second ∧ second ≠ [] ∨ text = first ++ c :: second ++ [c]) := by
  have hjoin : [c].intercalate (text.splitOn c) = text := List.intercalate_splitOn c
  have hparts {part : Text} (h : part ∈ text.splitOn c) : c ∉ part := notMem_of_mem_splitOn h
  rw [SaslConfig.fields]
  constructor
  · intro h
    -- a separator at the end leaves an empty part after it, which `read` drops
    split at h
    · next hlast =>
      have hsplit : text.splitOn c = [first, second, []] := by
        rw [← List.dropLast_append_getLast? [] hlast, h]
        rfl
      rw [hsplit] at hjoin hparts
      refine ⟨hparts (by simp), hparts (by simp), .inr ?_⟩
      rw [← hjoin]
      simp [List.intercalate]
    · next hlast =>
      rw [h] at hjoin hparts hlast
      refine ⟨hparts (by simp), hparts (by simp), .inl ⟨?_, ?_⟩⟩
      · rw [← hjoin]
        simp [List.intercalate]
      · rintro rfl
        exact hlast rfl
  · rintro ⟨hfirst, hsecond, ⟨rfl, hne⟩ | rfl⟩
    · rw [splitOn_append_cons hfirst, splitOn_of_notMem hsecond, if_neg (by simpa using hne)]
    · have hend : [c].splitOn c = [[], []] := by
        rw [List.splitOn_cons_eq_if_modifyHead, if_pos (beq_self_eq_true c), List.splitOn_nil]
      rw [List.append_assoc, List.cons_append, splitOn_append_cons hfirst,
        show second ++ [c] = second ++ c :: [] from rfl, splitOn_append_cons hsecond,
        List.splitOn_nil, if_pos (by simp)]
      rfl

end Given

/-- The format of a server that is given: its number, an `@` and its address. One more `@` at the
end is let through, and with it an empty address. -/
def Given (quorumServer serverId address : Text) : Prop :=
  serverId ≠ [] ∧ '@' ∉ serverId ∧ '@' ∉ address ∧
    (quorumServer = serverId ++ '@' :: address ∧ address ≠ [] ∨
      quorumServer = serverId ++ '@' :: address ++ ['@'])

/-- The line that declares a server that is given. -/
def Declares (quorumServer line : Text) : Prop :=
  ∃ serverId address, Given quorumServer serverId address ∧
    line = "server.".toList ++ serverId ++ '=' :: address

theorem readFields_of_notMem {c : Char} {text : Text} (h : '\n' ∉ text) :
    readFields c text = SaslConfig.fields c text := by
  rw [readFields, splitOn_of_notMem h, List.headD_cons]

/-- A server of the given list is accepted exactly if it declares a line. -/
theorem quorumLine_eq_some_iff {quorumServer line : Text} (h : '\n' ∉ quorumServer) :
    quorumLine quorumServer = some line ↔ Declares quorumServer line := by
  rw [quorumLine, readFields_of_notMem h]
  constructor
  · intro hline
    split at hline
    · next serverId address hfields =>
      obtain ⟨hid, haddress, htext⟩ := fields_eq_pair_iff.mp hfields
      split at hline
      · cases hline
      · next hne =>
        cases hline
        exact ⟨serverId, address, ⟨hne, hid, haddress, htext⟩, rfl⟩
    · cases hline
  · rintro ⟨serverId, address, ⟨hne, hid, haddress, htext⟩, rfl⟩
    rw [fields_eq_pair_iff.mpr ⟨hid, haddress, htext⟩]
    exact if_neg hne

/-- Otherwise it is reported. -/
theorem quorumLine_eq_none_iff {quorumServer : Text} (h : '\n' ∉ quorumServer) :
    quorumLine quorumServer = none ↔ ∀ line, ¬ Declares quorumServer line := by
  simp only [← quorumLine_eq_some_iff h, Option.eq_none_iff_forall_ne_some, ne_eq]

/-- One round of the loop over the given servers. -/
def declare (quorumServer : Text) : Script Unit :=
  match quorumLine quorumServer with
  | some line => echo line
  | none => Proc.raise (formatMessage quorumServer)

/-- The loop over the given servers: a line for each, or a message on the first that is not in the
format. -/
theorem forEach_declare {quorumServers : List Text} (h : ∀ q ∈ quorumServers, '\n' ∉ q)
    (files : Files) :
    match Proc.forEach quorumServers declare files with
    | .ok _ files' => ∃ lines, List.Forall₂ Declares quorumServers lines ∧
        files' = appended lines files
    | .raised message files' => ∃ before quorumServer after lines,
        quorumServers = before ++ quorumServer :: after ∧ List.Forall₂ Declares before lines ∧
        (∀ line, ¬ Declares quorumServer line) ∧ message = formatMessage quorumServer ∧
        files' = appended lines files := by
  -- for any files: those of a later server have the lines of the servers before it
  induction quorumServers generalizing files with
  | nil => exact ⟨[], .nil, rfl⟩
  | cons q qs ih =>
    have hq : '\n' ∉ q := h q List.mem_cons_self
    rcases hline : quorumLine q with - | line
    · have hraise : declare q files = .raised (formatMessage q) files := by
        rw [declare, hline]
        rfl
      rw [Proc.forEach_cons, Proc.bind_raised hraise]
      exact ⟨[], q, qs, [], rfl, .nil, (quorumLine_eq_none_iff hq).mp hline, rfl, rfl⟩
    · have hdeclares : Declares q line := (quorumLine_eq_some_iff hq).mp hline
      have hecho : declare q files = .ok () (appended [line] files) := by
        rw [declare, hline]
        exact echo_apply line files
      have hrest := ih (fun q' hq' => h q' (List.mem_cons_of_mem q hq')) (appended [line] files)
      rw [Proc.forEach_cons, Proc.bind_ok hecho]
      rcases hloop : Proc.forEach qs declare (appended [line] files) with ⟨u, t⟩ | ⟨m, t⟩
      · rw [hloop] at hrest
        obtain ⟨lines, hlines, rfl⟩ := hrest
        exact ⟨line :: lines, .cons hdeclares hlines, appended_appended line lines files⟩
      · rw [hloop] at hrest
        obtain ⟨before, bad, after, lines, hqs, hlines, hbad, hm, ht⟩ := hrest
        rw [appended_appended] at ht
        exact ⟨q :: before, bad, after, line :: lines, congrArg (List.cons q) hqs,
          .cons hdeclares hlines, hbad, hm, ht⟩

theorem map_getD_range' (xs : List Text) :
    (List.range' 1 xs.length).map (fun i => xs.getD (i - 1) []) = xs := by
  refine List.ext_getElem (by rw [List.length_map, List.length_range']) fun i hi hi' => ?_
  rw [List.getElem_map, List.getElem_range', Nat.one_mul, Nat.add_sub_cancel_left,
    List.getD_eq_getElem _ _ hi']

/-- `read` stops at the end of the first line. -/
theorem newline_notMem_readFields {c : Char} {text part : Text} (h : part ∈ readFields c text) :
    '\n' ∉ part := by
  have hline : '\n' ∉ (text.splitOn '\n').headD [] := by
    rcases hsplit : text.splitOn '\n' with - | ⟨line, rest⟩
    · exact List.not_mem_nil
    · exact notMem_of_mem_splitOn (hsplit ▸ List.mem_cons_self)
  have hpart : part ∈ ((text.splitOn '\n').headD []).splitOn c := by
    unfold readFields SaslConfig.fields at h
    split at h
    · exact List.dropLast_subset _ h
    · exact h
  exact fun hnewline => hline (subset_of_mem_splitOn hpart hnewline)

section Quorum

variable (shell : Shell) (env : Env)

/-- The servers that are given. -/
def Env.given : List Text := readFields ',' env.quorumServersText

/-- Where the count is right, the loop goes over the given servers. -/
theorem writeQuorumServers_eq (h : decimal env.given.length = env.count) :
    writeQuorumServers shell env = Proc.forEach env.given declare := by
  have hnumber : (shell.number env.count).toNat = env.given.length := by
    rw [← h, shell.number_decimal, Int.toNat_natCast]
  have hloop : Proc.forEach env.given declare =
      Proc.forEach (List.range' 1 env.given.length) fun i =>
        declare (env.given.getD (i - 1) []) := by
    rw [← Proc.forEach_map declare (fun i => env.given.getD (i - 1) []), map_getD_range']
  rw [hloop, ← hnumber]
  exact if_neg (not_not.mpr h)

/-- What a start outside of a cloud comes to. -/
structure Env.GivenOutcome (outcome : Outcome Text Files Unit) : Prop where
  /-- there are as many servers as there should be, and the file declares them in their order -/
  accepted : ∀ files, outcome = .ok () files → decimal env.given.length = env.count ∧
    ∃ lines, List.Forall₂ Declares env.given lines ∧
      files = ⟨if lines = [] then none else some lines, some env.id⟩
  /-- the message is about the number of servers, or the first one that is not in the format -/
  refused : ∀ message files, outcome = .raised message files →
    decimal env.given.length ≠ env.count ∧ message = countMessage ∨
    ∃ before quorumServer after, env.given = before ++ quorumServer :: after ∧
      (∀ q ∈ before, ∃ line, Declares q line) ∧ (∀ line, ¬ Declares quorumServer line) ∧
      message = formatMessage quorumServer

/-- **The list of given servers.** What is accepted is in the format, and what is not is named. -/
theorem entrypoint_given (h : orDefault env.isCloudEnabled "true".toList ≠ "true".toList)
    (files : Files) : env.GivenOutcome (entrypoint shell env none files) := by
  have hrun := entrypoint_apply shell env files
  rw [writeList, if_neg h] at hrun
  by_cases hcount : decimal env.given.length = env.count
  · have hlines : ∀ q ∈ env.given, '\n' ∉ q := fun q hq => newline_notMem_readFields hq
    have hloop := forEach_declare hlines { files with dynamic := none }
    rw [writeQuorumServers_eq shell env hcount] at hrun
    rcases hlist : Proc.forEach env.given declare
      { files with dynamic := none } with ⟨u, t⟩ | ⟨m, t⟩
    · rw [hlist] at hloop hrun
      obtain ⟨lines, hlines, rfl⟩ := hloop
      refine ⟨fun files' hok => ⟨hcount, lines, hlines, ?_⟩, fun message files' hraised => ?_⟩
      · cases hrun.symm.trans hok
        simp only [appended]
        split <;> rfl
      · cases hrun.symm.trans hraised
    · rw [hlist] at hloop hrun
      obtain ⟨before, quorumServer, after, lines, hgiven, hlines, hbad, hm, -⟩ := hloop
      refine ⟨fun files' hok => ?_, fun message files' hraised => ?_⟩
      · cases hrun.symm.trans hok
      · cases hrun.symm.trans hraised
        refine .inr ⟨before, quorumServer, after, hgiven, fun q hq => ?_, hbad, hm⟩
        obtain ⟨i, hi, rfl⟩ := List.getElem_of_mem hq
        exact ⟨_, hlines.get hi (hlines.length_eq ▸ hi)⟩
  · have hcheck : writeQuorumServers shell env = Proc.raise countMessage := if_pos hcount
    rw [hcheck, Proc.raise_apply] at hrun
    refine ⟨fun files' hok => ?_, fun message files' hraised => ?_⟩
    · cases hrun.symm.trans hok
    · cases hrun.symm.trans hraised
      exact .inl ⟨hcount, rfl⟩

end Quorum

/-- A shell that knows decimal numbers only. -/
def sampleShell : Shell where
  number text := (readNat text).getD 0
  number_decimal n := by rw [readNat_decimal, Option.getD_some]

/-- Two servers, the second of which has no address. -/
def sampleGiven : Env where
  serverCount := "2".toList
  isCloudEnabled := "false".toList
  quorumServers := "1@zookeeper-1:2888:3888,2".toList

theorem entrypoint_sampleGiven :
    orDefault sampleGiven.isCloudEnabled "true".toList ≠ "true".toList ∧
      sampleGiven.GivenOutcome (entrypoint sampleShell sampleGiven none ⟨none, none⟩) ∧
      (entrypoint sampleShell sampleGiven none ⟨none, none⟩).next =
        ⟨some ["server.1=zookeeper-1:2888:3888".toList], none⟩ :=
  ⟨by decide +kernel, entrypoint_given sampleShell sampleGiven (by decide +kernel) _,
    by decide +kernel⟩

end ServerList

end QubershipZookeeper
