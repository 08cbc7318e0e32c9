import Mathlib.Data.Finmap
import QubershipZookeeper.FilterLoop
import QubershipZookeeper.ServerList
import QubershipZookeeper.SnapshotChoice

/-!
# A transactional backup (`transactional_backup` in `backup.py`)

Three parties take part. The backup daemon asks ZooKeeper for the servers and looks for the leader
among them; the **assistant** on the leader's pod (`main.go`) copies the leader's data directory
into a temporary directory on a shared volume; and the daemon chooses from the copy what it keeps,
and stores it. Any of the requests can fail, the assistant can break off midway, and so can the
filter.

`transactionalBackup_spec` says when a backup returns and what it has stored then; that the
temporary directory is gone however it ends; and that the storage is as before unless it was the
filter that failed.
-/

namespace QubershipZookeeper

namespace TransactionalBackup

open Text

/-! ## Files -/

/-- What a name in a directory stands for. -/
inductive Entry where
  | file (bytes : Bytes) (mtime : ℕ)
  | directory

/-- The contents of a directory, in the order of `os.listdir`. -/
structure Folder where
  entries : List (String × Entry)
  nodup : (entries.map Prod.fst).Nodup

namespace Folder

variable (folder : Folder)

/-- The bytes of a file. -/
def bytes (name : String) : Option Bytes :=
  match folder.entries.lookup name with
  | some (.file bytes _) => some bytes
  | _ => none

/-- `st_mtime` -/
def mtime (name : String) : ℕ :=
  match folder.entries.lookup name with
  | some (.file _ mtime) => mtime
  | _ => 0

/-- What the choice of the files looks at. -/
def directory : Directory where
  listdir := folder.entries.map Prod.fst
  isfile name := (folder.bytes name).isSome
  mtime := folder.mtime

end Folder

/-- The files of the storage folder. -/
abbrev Storage : Type := Finmap fun _ : String => Bytes

/-- The shared volume: the temporary directory, if it is there, and the storage folder. -/
structure Volume where
  tmp : Option Folder
  storage : Storage

/-! ## The servers -/

/-- What goes wrong when the assistant copies. -/
inductive StoreFault where
  /-- the directory that is there cannot be removed, or only in part -/
  | remove (left : Folder)
  /-- the directory cannot be made -/
  | mkdir
  /-- the copy breaks off -/
  | copy (copied : Folder)

/-- `storeZooKeeperFiles`: the `Status` of the result, and what is in the destination. -/
def storeZooKeeperFiles (source : Folder) (fault : Option StoreFault)
    (destination : Option Folder) :
    String × Option Folder :=
  match fault, destination with
  | some (.remove left), some _ => ("Error", some left)
  | some .mkdir, _ => ("Error", none)
  | some (.copy copied), _ => ("Error", some copied)
  | _, _ => ("Ok", some source)

/-- What the daemon sees of a server. -/
structure Peer where
  /-- the answer to `srvr`; `none` if the server cannot be connected to -/
  srvr : Option Text
  /-- the data directory -/
  data : Folder
  /-- what becomes of the request to the assistant; `none` if it is not answered -/
  store : Option (Option StoreFault)

/-- What the daemon can ask. -/
structure Ensemble where
  /-- the answer to `conf`; `none` if there is none -/
  conf : Option Text
  /-- the server at an address -/
  peer : Text → Peer

/-- Python's `\w`, which beyond ASCII depends on tables. -/
structure WordClass where
  contains : Char → Bool
  contains_ascii : ∀ c : Char, c.toNat < 128 → contains c = (c.isAlphanum || c = '_')

/-- `[\w\-.]` -/
def WordClass.inName (word : WordClass) (c : Char) : Bool := word.contains c || c = '-' || c = '.'

/-- `([\w\-.]+):` at the beginning of a text: the group, and what follows. -/
def matchHost (word : WordClass) (text : Text) : Option (Text × Text) :=
  match text.takeWhile word.inName, text.dropWhile word.inName with
  | c :: host, ':' :: rest => some (c :: host, rest)
  | _, _ => none

/-- `server\.[0-9]+=([\w\-.]+):` at the beginning of a text. Neither run can be cut short: an equals
sign is no digit, and a colon is in no name. -/
def matchServer (word : WordClass) (text : Text) : Option (Text × Text) :=
  if "server.".toList.isPrefixOf text then
    match (text.drop 7).takeWhile Char.isDigit, (text.drop 7).dropWhile Char.isDigit with
    | _ :: _, '=' :: rest => matchHost word rest
    | _, _ => none
  else none

/-- `re.findall`, after so many characters that belong to the last match. -/
def findServers (word : WordClass) : ℕ → Text → List Text
  | _, [] => []
  | skip + 1, _ :: text => findServers word skip text
  | 0, c :: text =>
    match matchServer word (c :: text) with
    | some (host, rest) => host :: findServers word (text.length - rest.length) text
    | none => findServers word 0 text

/-! ## The script -/

/-- How a backup fails. -/
inductive Failure where
  /-- an exception of a library or of the system -/
  | library
  /-- the exception `ZooKeeper leader isn't found in servers: …` -/
  | noLeader (servers : List Text)
  /-- `sys.exit(1)` -/
  | exit
  /-- an exception of the filter -/
  | filter (e : PyError)

/-- A part of the script. -/
abbrev Script : Type → Type := Proc Failure Volume

/-- `create_directory` for the temporary directory. -/
def createDirectory : Script Unit :=
  Proc.update fun v => { v with tmp := some (v.tmp.getD ⟨[], List.nodup_nil⟩) }

/-- `remove_directory_with_content` for the temporary directory. -/
def removeDirectory (v : Volume) : Volume := { v with tmp := none }

/-- The answer of a leader. -/
def SaysLeader (answer : Text) : Prop := "Mode: leader".toList <:+: answer

instance (answer : Text) : Decidable (SaysLeader answer) :=
  inferInstanceAs (Decidable ("Mode: leader".toList <:+: answer))

section Script

variable (word : WordClass) (ensemble : Ensemble)

/-- `__get_zookeeper_servers` -/
def getZooKeeperServers : Script (List Text) :=
  match ensemble.conf with
  | some answer => pure (findServers word 0 answer)
  | none => Proc.raise .library

/-- `__find_zookeeper_leader` -/
def findZooKeeperLeader : List Text → Script (Option Text)
  | [] => pure none
  | server :: servers =>
    match (ensemble.peer server).srvr with
    | some answer => if SaysLeader answer then pure (some server) else findZooKeeperLeader servers
    | none => Proc.raise .library

/-- `__copy_logs_from_zookeeper_leader` -/
def copyLogsFromZooKeeperLeader (leader : Text) : Script Unit := fun v =>
  match (ensemble.peer leader).store with
  | some fault =>
    let (status, tmp) := storeZooKeeperFiles (ensemble.peer leader).data fault v.tmp
    if status ≠ "Ok" then .raised .exit { v with tmp := tmp } else .ok () { v with tmp := tmp }
  | none => .raised .library v

/-- `get_snapshot_and_transaction_logs` for the temporary directory. -/
def chooseFiles : Script (String × List String) := fun v =>
  match v.tmp with
  | some tmp =>
    match getSnapshotAndTransactionLogs tmp.directory with
    | some chosen => .ok chosen v
    | none => .raised .exit v
  | none => .raised .library v

/-- The bytes of a file of the temporary directory. -/
def Volume.tmpBytes (v : Volume) (name : String) : Option Bytes :=
  v.tmp.bind fun tmp => tmp.bytes name

/-- Write a file of the storage folder. -/
def Volume.write (v : Volume) (name : String) (bytes : Bytes) : Volume :=
  { v with storage := v.storage.insert name bytes }

/-- `copy_snapshot` -/
def copySnapshot (name : String) : Script Unit := fun v =>
  match v.tmpBytes name with
  | some bytes => .ok () (v.write name bytes)
  | none => .raised .library v

/-- `filter_and_store_transaction_log`: what is written before an exception stays. -/
def filterAndStore (name : String) : Script Unit := fun v =>
  match v.tmpBytes name with
  | some bytes =>
    match filterAndStoreTransactionLog ⟨bytes, []⟩ with
    | .ok _ files => .ok () (v.write name files.output)
    | .raised e files => .raised (.filter e) (v.write name files.output)
  | none => .raised .library v

/-- What the daemon does with the copy. -/
def storeFiles : Script Unit := do
  let (snapshot, transactionLogs) ← chooseFiles
  copySnapshot snapshot
  Proc.forEach transactionLogs filterAndStore

/-- The `try` block of `transactional_backup`. -/
def attempt : Script Unit := do
  createDirectory
  let servers ← getZooKeeperServers word ensemble
  let leader ← findZooKeeperLeader ensemble servers
  match leader with
  | none => Proc.raise (.noLeader servers)
  | some leader => do
    copyLogsFromZooKeeperLeader ensemble leader
    storeFiles

/-- `transactional_backup` -/
def transactionalBackup : Script Unit := Proc.withFinally (attempt word ensemble) removeDirectory

end Script

/-! ## The servers that are found -/

section Servers

open ServerList
open DrReconfig (setting)

variable {word : WordClass}

theorem inName_eq_false {c : Char} (hascii : c.toNat < 128)
    (h : (c.isAlphanum || c = '_' || c = '-' || c = '.') = false) : word.inName c = false := by
  rw [WordClass.inName, word.contains_ascii c hascii]
  exact h

/-- What follows a text in another line. -/
def below (rest : Text) (found : Text × Text) : Text × Text := (found.1, found.2 ++ '\n' :: rest)

/-- A host name does not go on beyond its line. -/
theorem matchHost_line (line rest : Text) :
    matchHost word (line ++ '\n' :: rest) = (matchHost word line).map (below rest) := by
  have hstop : word.inName '\n' = false := inName_eq_false (by decide) (by decide)
  rw [matchHost, matchHost, takeWhile_append_stop hstop, dropWhile_append_stop hstop]
  rcases line.takeWhile word.inName with - | ⟨c, host⟩
  · rfl
  · rcases line.dropWhile word.inName with - | ⟨d, after⟩
    · rfl
    · by_cases hd : d = ':'
      · subst hd
        rfl
      · simp [hd]

/-- A match does not go on in the next line. -/
theorem matchServer_line (word : WordClass) (line rest : Text) :
    matchServer word (line ++ '\n' :: rest) = (matchServer word line).map (below rest) := by
  rw [matchServer, matchServer, isPrefixOf_append_stop (by decide)]
  split
  next hprefix =>
    obtain ⟨t, rfl⟩ := List.isPrefixOf_iff_prefix.mp hprefix
    have hstop : Char.isDigit '\n' = false := by decide
    have hdrop (text : Text) : ("server.".toList ++ text).drop 7 = text := rfl
    rw [List.append_assoc, hdrop, hdrop, takeWhile_append_stop hstop, dropWhile_append_stop hstop]
    rcases t.takeWhile Char.isDigit with - | ⟨c, number⟩
    · rfl
    · rcases t.dropWhile Char.isDigit with - | ⟨d, after⟩
      · rfl
      · by_cases hd : d = '='
        · subst hd
          exact matchHost_line after rest
        · simp [hd]
  · rfl

/-- A match begins with the first letter of `server`. -/
theorem matchServer_of_ne {c : Char} (hc : c ≠ 's') (text : Text) :
    matchServer word (c :: text) = none := by
  have hprefix : "server.".toList.isPrefixOf (c :: text) = false := by
    simp [List.isPrefixOf, Ne.symm hc]
  rw [matchServer, hprefix]
  rfl

/-- The matches in a line and those in the lines below it. -/
theorem findServers_line (line rest : Text) {skip : ℕ} (hskip : skip ≤ line.length) :
    findServers word skip (line ++ '\n' :: rest) =
      findServers word skip line ++ findServers word 0 rest := by
  induction line generalizing skip with
  | nil =>
    obtain rfl : skip = 0 := Nat.le_zero.mp hskip
    simp only [List.nil_append, findServers, matchServer_of_ne (show '\n' ≠ 's' by decide)]
  | cons c line ih =>
    cases skip with
    | succ skip => exact ih (Nat.le_of_succ_le_succ hskip)
    | zero =>
      have hmatch := matchServer_line word (c :: line) rest
      rw [List.cons_append] at hmatch ⊢
      rw [findServers, findServers, hmatch]
      rcases matchServer word (c :: line) with - | ⟨host, after⟩
      · exact ih (Nat.zero_le _)
      · have hlength : (line ++ '\n' :: rest).length - (after ++ '\n' :: rest).length =
            line.length - after.length := by
          simp only [List.length_append]
          omega
        simp only [Option.map_some, below, hlength, List.cons_append]
        rw [ih (Nat.sub_le _ _)]

/-- The lines of an answer. -/
def printed (lines : List Text) : Text := lines.flatMap fun line => line ++ ['\n']

/-- The servers are found line by line. -/
theorem findServers_printed (lines : List Text) :
    findServers word 0 (printed lines) = lines.flatMap (findServers word 0) := by
  induction lines with
  | nil => rfl
  | cons line lines ih =>
    rw [List.flatMap_cons, ← ih, ← findServers_line line (printed lines) (Nat.zero_le _)]
    simp [printed]

theorem findServers_skip (xs rest : Text) :
    findServers word xs.length (xs ++ rest) = findServers word 0 rest := by
  induction xs with
  | nil => rfl
  | cons x xs ih => exact ih

/-- A line of the list is matched with its host. -/
theorem matchServer_setting (word : WordClass) (n : ℕ) {host : Text} (rest : Text) (hne : host ≠ [])
    (hhost : ∀ c ∈ host, word.inName c = true) :
    matchServer word (setting "server" n (host ++ ':' :: rest)) = some (host, rest) := by
  have hcolon : word.inName ':' = false := inName_eq_false (by decide) (by decide)
  have hequals : Char.isDigit '=' = false := by decide
  have hprefix : "server.".toList.isPrefixOf (setting "server" n (host ++ ':' :: rest)) = true :=
    rfl
  have hdrop : (setting "server" n (host ++ ':' :: rest)).drop 7 =
      decimal n ++ '=' :: (host ++ ':' :: rest) := rfl
  have hdigits : ∀ c ∈ decimal n, Char.isDigit c = true := fun c hc => isDigit_of_mem_decimal hc
  rw [matchServer, if_pos hprefix, hdrop, takeWhile_append_stop hequals,
    dropWhile_append_stop hequals,
    List.takeWhile_eq_self_iff.mpr hdigits, List.dropWhile_eq_nil_iff.mpr hdigits]
  obtain ⟨d, number, hnumber⟩ := List.exists_cons_of_ne_nil (decimal_ne_nil n)
  obtain ⟨c, name, rfl⟩ := List.exists_cons_of_ne_nil hne
  rw [hnumber]
  show matchHost word (c :: name ++ ':' :: rest) = _
  rw [matchHost, takeWhile_append_stop hcolon, dropWhile_append_stop hcolon,
    List.takeWhile_eq_self_iff.mpr hhost, List.dropWhile_eq_nil_iff.mpr hhost]
  rfl

/-- A line of the list has its host, and then the servers that its address has. -/
theorem findServers_setting (n : ℕ) {host : Text} (rest : Text) (hne : host ≠ [])
    (hhost : ∀ c ∈ host, word.inName c = true) :
    findServers word 0 (setting "server" n (host ++ ':' :: rest)) =
      host :: findServers word 0 rest := by
  have hmatch := matchServer_setting word n rest hne hhost
  have hline : setting "server" n (host ++ ':' :: rest) =
      's' :: (("erver.".toList ++ decimal n ++ '=' :: host ++ [':']) ++ rest) := by
    simp [setting]
  rw [hline] at hmatch ⊢
  rw [findServers, hmatch]
  simp only [List.length_append, Nat.add_sub_cancel]
  rw [← List.length_append, ← List.length_append, ← List.length_append, findServers_skip]

/-- The parts of the names of the servers can be read as names. -/
def Named (word : WordClass) (env : Env) : Prop :=
  ∀ c ∈ env.name ++ env.serverDomain ++ env.serverNamespace, word.inName c = true

theorem inName_of_isDigit {c : Char} (h : c.isDigit = true) : word.inName c = true := by
  have hascii : c.toNat < 128 := by
    simp only [Char.isDigit, Bool.and_eq_true, decide_eq_true_eq] at h
    have hle : c.val.toNat ≤ 57 := h.2
    exact Nat.lt_of_le_of_lt hle (by decide)
  rw [WordClass.inName, word.contains_ascii c hascii, Char.isAlphanum, h]
  simp

/-- The hosts of the list are made of the characters that the pattern takes. -/
theorem Named.host {env : Env} (h : Named word env) (i : ℕ) :
    ∀ c ∈ env.host i, word.inName c = true := by
  have hdotted {part : Text} (hpart : ∀ c ∈ part, word.inName c = true) :
      ∀ c ∈ dotted part, word.inName c = true := by
    intro c hc
    unfold dotted at hc
    split at hc
    · cases hc
    · rcases List.mem_cons.mp hc with rfl | hc
      · simp [WordClass.inName]
      · exact hpart c hc
  simp only [Named, List.forall_mem_append] at h
  simp only [Env.host, List.append_assoc, List.cons_append, List.forall_mem_append,
    List.forall_mem_cons]
  refine ⟨h.1.1, ?_, fun c hc => ?_, hdotted h.1.2, hdotted h.2⟩
  · simp [WordClass.inName]
  · exact inName_of_isDigit (isDigit_of_mem_decimal hc)

/-- **The daemon asks the servers of the list**: in an answer that shows the hosts of the list, each
with its ports, role and client address, and other lines, it finds exactly the servers of the list,
in their order. The names of the servers are made of word characters, dashes and dots, and neither
the addresses nor the other lines have a server in them. -/
theorem findServers_ensemble {env : Env} (h : Named word env) (n : ℕ) {before after : List Text}
    {address : ℕ → Text} (haddress : ∀ i, findServers word 0 (address i) = [])
    (hbefore : ∀ line ∈ before, findServers word 0 line = [])
    (hafter : ∀ line ∈ after, findServers word 0 line = []) :
    findServers word 0 (printed (before ++ (List.range' 1 n).map (fun i =>
      setting "server" i (env.host i ++ ':' :: address i)) ++ after)) =
      (List.range' 1 n).map env.host := by
  have hnone {lines : List Text} (hlines : ∀ line ∈ lines, findServers word 0 line = []) :
      lines.flatMap (findServers word 0) = [] := List.flatMap_eq_nil_iff.mpr hlines
  have hhost (i : ℕ) : findServers word 0 (setting "server" i (env.host i ++ ':' :: address i)) =
      [env.host i] := by
    rw [findServers_setting i (address i) (by simp [Env.host]) (h.host i), haddress i]
  rw [findServers_printed, List.flatMap_append, List.flatMap_append, hnone hbefore, hnone hafter,
    List.nil_append, List.append_nil, List.flatMap_map]
  simp only [hhost]
  exact List.map_eq_flatMap.symm

/-- Words in ASCII. -/
def asciiWords : WordClass where
  contains c := c.isAlphanum || c = '_'
  contains_ascii _ _ := rfl

/-- The variables of a server in the namespace `zk`. -/
def sampleEnv : Env where
  serverDomain := "zookeeper-server".toList
  serverNamespace := "zk".toList

theorem findServers_sampleEnv :
    (Named asciiWords sampleEnv ∧
      findServers asciiWords 0 "2888:3888:observer;zookeeper-server:2181".toList = [] ∧
      findServers asciiWords 0 "serverId=1".toList = [] ∧
      findServers asciiWords 0 "quorumPort=2888".toList = []) ∧
    findServers asciiWords 0 (printed (["serverId=1".toList, "quorumPort=2888".toList] ++
      (List.range' 1 3).map (fun i => setting "server" i
        (sampleEnv.host i ++ ':' :: "2888:3888:observer;zookeeper-server:2181".toList)) ++ [])) =
      (List.range' 1 3).map sampleEnv.host := by
  have hnamed : Named asciiWords sampleEnv := List.all_eq_true.mp (by decide)
  have hlines : ∀ line ∈ ["serverId=1".toList, "quorumPort=2888".toList],
      findServers asciiWords 0 line = [] := by decide
  have haddress : findServers asciiWords 0
    "2888:3888:observer;zookeeper-server:2181".toList = [] := by
    decide
  refine ⟨⟨hnamed, haddress, hlines _ (.head _), hlines _ (.tail _ (.head _))⟩, ?_⟩
  exact findServers_ensemble hnamed 3 (fun _ => haddress) hlines nofun

end Servers

/-! ## The leader -/

/-- The daemon finds the leader: it is the first of the servers that says so, and all servers before
it can be connected to. -/
def Ensemble.Finds (word : WordClass) (ensemble : Ensemble) (leader : Text) : Prop :=
  ∃ answer before after, ensemble.conf = some answer ∧
    findServers word 0 answer = before ++ leader :: after ∧
    (∀ server ∈ before, ∃ a, (ensemble.peer server).srvr = some a ∧ ¬ SaysLeader a) ∧
    ∃ a, (ensemble.peer leader).srvr = some a ∧ SaysLeader a

section Leader

variable {word : WordClass} {ensemble : Ensemble} {v v' : Volume}

/-- The loop over the servers stops at one that says it is the leader. -/
theorem findZooKeeperLeader_leader {server : Text} {servers : List Text} {a : Text}
    (ha : (ensemble.peer server).srvr = some a) (h : SaysLeader a) :
    findZooKeeperLeader ensemble (server :: servers) = pure (some server) := by
  rw [findZooKeeperLeader, ha]
  exact if_pos h

/-- It goes on after any other. -/
theorem findZooKeeperLeader_other {server : Text} {servers : List Text} {a : Text}
    (ha : (ensemble.peer server).srvr = some a) (h : ¬ SaysLeader a) :
    findZooKeeperLeader ensemble (server :: servers) = findZooKeeperLeader ensemble servers := by
  rw [findZooKeeperLeader, ha]
  exact if_neg h

/-- It fails at one that does not answer. -/
theorem findZooKeeperLeader_unreachable {server : Text} {servers : List Text}
    (ha : (ensemble.peer server).srvr = none) :
    findZooKeeperLeader ensemble (server :: servers) = Proc.raise .library := by
  rw [findZooKeeperLeader, ha]

/-- Asking changes nothing, and only a library fails. -/
theorem findZooKeeperLeader_quiet (ensemble : Ensemble) (servers : List Text) (v : Volume) :
    (∃ leader, findZooKeeperLeader ensemble servers v = .ok leader v) ∨
      findZooKeeperLeader ensemble servers v = .raised .library v := by
  induction servers with
  | nil => exact .inl ⟨none, rfl⟩
  | cons server servers ih =>
    rcases ha : (ensemble.peer server).srvr with - | a
    · exact .inr (congrFun (findZooKeeperLeader_unreachable ha) v)
    · by_cases h : SaysLeader a
      · exact .inl ⟨some server, congrFun (findZooKeeperLeader_leader ha h) v⟩
      · rw [findZooKeeperLeader_other ha h]
        exact ih

/-- So the leader is found exactly if all servers before it answer and none of them leads. -/
theorem findZooKeeperLeader_some_iff {servers : List Text} {leader : Text} :
    findZooKeeperLeader ensemble servers v = .ok (some leader) v ↔
      ∃ before after, servers = before ++ leader :: after ∧
        (∀ server ∈ before, ∃ a, (ensemble.peer server).srvr = some a ∧ ¬ SaysLeader a) ∧
        ∃ a, (ensemble.peer leader).srvr = some a ∧ SaysLeader a := by
  induction servers with
  | nil =>
    refine iff_of_false (fun h => by cases h) ?_
    rintro ⟨before, after, h, -⟩
    cases before <;> cases h
  | cons server servers ih =>
    constructor
    · intro h
      rcases ha : (ensemble.peer server).srvr with - | a
      · -- a server that does not answer ends the search, even if the leader comes later
        rw [findZooKeeperLeader_unreachable ha] at h
        cases h
      · by_cases hleader : SaysLeader a
        · rw [findZooKeeperLeader_leader ha hleader] at h
          cases h
          exact ⟨[], servers, rfl, nofun, a, ha, hleader⟩
        · rw [findZooKeeperLeader_other ha hleader] at h
          obtain ⟨before, after, rfl, hbefore, hfound⟩ := ih.mp h
          refine ⟨server :: before, after, rfl, ?_, hfound⟩
          exact List.forall_mem_cons.mpr ⟨⟨a, ha, hleader⟩, hbefore⟩
    · rintro ⟨before, after, hservers, hbefore, a, ha, hleader⟩
      cases before with
      | nil =>
        obtain ⟨rfl, rfl⟩ := List.cons.inj hservers
        rw [findZooKeeperLeader_leader ha hleader]
        rfl
      | cons first before =>
        obtain ⟨rfl, rfl⟩ := List.cons.inj hservers
        obtain ⟨⟨b, hb, hnot⟩, hbefore⟩ := List.forall_mem_cons.mp hbefore
        rw [findZooKeeperLeader_other hb hnot]
        exact ih.mpr ⟨before, after, rfl, hbefore, a, ha, hleader⟩

end Leader

/-! ## The copy -/

section Copy

variable {ensemble : Ensemble} {leader : Text} {v v' : Volume}

/-- Copying leaves the storage of the backup alone. -/
theorem copyLogsFromZooKeeperLeader_storage (ensemble : Ensemble) (leader : Text) (v : Volume) :
    (copyLogsFromZooKeeperLeader ensemble leader v).next.storage = v.storage := by
  unfold copyLogsFromZooKeeperLeader
  split
  · dsimp only
    split <;> rfl
  · rfl

/-- The temporary directory was made before, so that a removal that fails is an error. -/
theorem copyLogsFromZooKeeperLeader_ok_iff (htmp : v.tmp ≠ none) :
    copyLogsFromZooKeeperLeader ensemble leader v = .ok () v' ↔
      (ensemble.peer leader).store = some none ∧
        v' = { v with tmp := some (ensemble.peer leader).data } := by
  obtain ⟨tmp, htmp⟩ := Option.ne_none_iff_exists'.mp htmp
  unfold copyLogsFromZooKeeperLeader
  rcases (ensemble.peer leader).store with - | - | left | - | copied
  all_goals simp [storeZooKeeperFiles, htmp, eq_comm]

end Copy

/-! ## What is stored -/

section Chosen

variable {folder : Folder} {snapshot : String} {logs : List String}

/-- The files that are chosen: all are files of the directory, and the snapshot is named as one and
is not one of the logs, which were modified after it. -/
structure Chosen (folder : Folder) (snapshot : String) (logs : List String) : Prop where
  named : contained "snapshot." snapshot = true
  isfile : (folder.bytes snapshot).isSome
  isfiles : ∀ log ∈ logs, (folder.bytes log).isSome
  nodup : logs.Nodup
  apart : snapshot ∉ logs

/-- What was chosen is there. -/
theorem chosen_of_eq_some
    (h : getSnapshotAndTransactionLogs folder.directory = some (snapshot, logs)) :
    Chosen folder snapshot logs := by
  unfold getSnapshotAndTransactionLogs at h
  dsimp only at h
  split at h
  · cases h
  next first rest hsnapshots =>
    cases h
    obtain ⟨last, hlast⟩ := exists_latest folder.mtime first rest
    have hfold : (first :: rest).foldl (newer folder.directory.mtime) first = last :=
      hlast.foldl_newer
    rw [hsnapshots, hfold]
    have hmem : last ∈ first :: rest := hlast.mem
    rw [← hsnapshots] at hmem
    refine ⟨(List.mem_filter.mp hmem).2, ?_, fun log hlog => ?_, ?_, fun hlast => ?_⟩
    · exact (List.mem_filter.mp (List.mem_filter.mp hmem).1).2
    · exact (List.mem_filter.mp (List.mem_filter.mp (List.mem_filter.mp hlog).1).1).2
    · exact ((folder.nodup.filter _).filter _).filter _
    · exact lt_irrefl _ (of_decide_eq_true (List.mem_filter.mp hlast).2)

end Chosen

/-- The storage has the chosen files of a directory, the logs filtered, and is otherwise as before.
-/
def Stored (folder : Folder) (before after : Storage) : Prop :=
  ∃ snapshot logs, getSnapshotAndTransactionLogs folder.directory = some (snapshot, logs) ∧
    after.lookup snapshot = folder.bytes snapshot ∧
    (∀ log ∈ logs, ∃ stored, (folder.bytes log).bind storedLog = some stored ∧
      after.lookup log = some stored) ∧
    ∀ name, name ≠ snapshot → name ∉ logs → after.lookup name = before.lookup name

section Store

variable {v v' : Volume} {folder : Folder}

theorem lookup_write_self (v : Volume) (name : String) (bytes : Bytes) :
    (v.write name bytes).storage.lookup name = some bytes := Finmap.lookup_insert _

theorem lookup_write_of_ne (v : Volume) {name other : String} (bytes : Bytes) (h : other ≠ name) :
    (v.write name bytes).storage.lookup other = v.storage.lookup other :=
  Finmap.lookup_insert_of_ne _ h

/-- The filter on one log. -/
theorem filterAndStore_cases {name : String} {bytes : Bytes} (h : v.tmpBytes name = some bytes) :
    (∃ stored, storedLog bytes = some stored ∧
    filterAndStore name v = .ok () (v.write name stored)) ∨
      storedLog bytes = none ∧ ∃ e stored, filterAndStore name v =
        .raised (.filter e) (v.write name stored) := by
  rcases hrun : filterAndStoreTransactionLog ⟨bytes, []⟩ with ⟨_, files⟩ | ⟨e, files⟩
  · exact .inl
      ⟨files.output, by simp only [storedLog, hrun], by simp only [filterAndStore, h, hrun]⟩
  · exact .inr ⟨by simp only [storedLog, hrun], e, files.output, by
      simp only [filterAndStore, h, hrun]⟩

/-- The loop over the logs. -/
theorem forEach_filterAndStore_ok_iff {logs : List String} (htmp : v.tmp = some folder)
    (hfiles : ∀ log ∈ logs, (folder.bytes log).isSome) (hnodup : logs.Nodup) :
    Proc.forEach logs filterAndStore v = .ok () v' ↔ v'.tmp = some folder ∧
      (∀ log ∈ logs, ∃ stored, (folder.bytes log).bind storedLog = some stored ∧
        v'.storage.lookup log = some stored) ∧
      ∀ name, name ∉ logs → v'.storage.lookup name = v.storage.lookup name := by
  induction logs generalizing v with
  | nil =>
    constructor
    · intro h
      cases h
      exact ⟨htmp, nofun, fun _ _ => rfl⟩
    · rintro ⟨htmp', -, hsame⟩
      have hstorage : v'.storage = v.storage := Finmap.ext_lookup fun name => hsame name nofun
      obtain ⟨tmp, storage⟩ := v
      obtain ⟨tmp', storage'⟩ := v'
      obtain rfl : storage' = storage := hstorage
      obtain rfl : tmp' = tmp := htmp'.trans htmp.symm
      rfl
  | cons log logs ih =>
    obtain ⟨hlog, hfiles⟩ := List.forall_mem_cons.mp hfiles
    obtain ⟨hfresh, hnodup⟩ := List.nodup_cons.mp hnodup
    obtain ⟨bytes, hbytes⟩ := Option.isSome_iff_exists.mp hlog
    have htmpBytes : v.tmpBytes log = some bytes := by
      rw [Volume.tmpBytes, htmp]
      exact hbytes
    rw [Proc.forEach_cons, List.forall_mem_cons, hbytes]
    rcases filterAndStore_cases htmpBytes with ⟨stored, hstored, hrun⟩ | ⟨hstored, e, stored, hrun⟩
    · -- the rest of the loop does not write this log again, for no log is listed twice
      rw [Proc.bind_ok hrun, ih (v := v.write log stored) htmp hfiles hnodup]
      refine and_congr Iff.rfl ⟨?_, ?_⟩
      · rintro ⟨hlogs, hsame⟩
        refine ⟨⟨⟨stored, hstored, ?_⟩, hlogs⟩, fun name hname => ?_⟩
        · rw [hsame log hfresh, lookup_write_self]
        · obtain ⟨hne, hname⟩ := not_or.mp (mt List.mem_cons.mpr hname)
          rw [hsame name hname, lookup_write_of_ne v stored hne]
      · rintro ⟨⟨⟨stored', hstored', hlookup⟩, hlogs⟩, hsame⟩
        obtain rfl : stored = stored' := Option.some.inj (hstored.symm.trans hstored')
        refine ⟨hlogs, fun name hname => ?_⟩
        by_cases hne : name = log
        · rw [hne, lookup_write_self, hlookup]
        · rw [lookup_write_of_ne v stored hne]
          exact hsame name (by simp [hne, hname])
    · rw [Proc.bind_raised hrun]
      refine iff_of_false (fun h => by cases h) ?_
      rintro ⟨-, ⟨⟨stored', hstored', -⟩, -⟩, -⟩
      cases hstored.symm.trans hstored'

/-- Only the filter fails in the loop. -/
theorem forEach_filterAndStore_raised {logs : List String} (htmp : v.tmp = some folder)
    (hfiles : ∀ log ∈ logs, (folder.bytes log).isSome) {e : Failure}
    (h : Proc.forEach logs filterAndStore v = .raised e v') : ∃ error, e = .filter error := by
  induction logs generalizing v with
  | nil => cases h
  | cons log logs ih =>
    obtain ⟨hlog, hfiles⟩ := List.forall_mem_cons.mp hfiles
    obtain ⟨bytes, hbytes⟩ := Option.isSome_iff_exists.mp hlog
    have htmpBytes : v.tmpBytes log = some bytes := by
      rw [Volume.tmpBytes, htmp]
      exact hbytes
    rw [Proc.forEach_cons] at h
    rcases filterAndStore_cases htmpBytes with ⟨stored, -, hrun⟩ | ⟨-, error, stored, hrun⟩
    · rw [Proc.bind_ok hrun] at h
      exact ih (v := v.write log stored) htmp hfiles h
    · rw [Proc.bind_raised hrun] at h
      cases h
      exact ⟨error, rfl⟩

/-- What becomes of a copy. -/
theorem storeFiles_cases (htmp : v.tmp = some folder) :
    getSnapshotAndTransactionLogs folder.directory = none ∧ storeFiles v = .raised .exit v ∨
      ∃ snapshot logs bytes,
        getSnapshotAndTransactionLogs folder.directory = some (snapshot, logs) ∧
        folder.bytes snapshot = some bytes ∧ Chosen folder snapshot logs ∧
        storeFiles v = Proc.forEach logs filterAndStore (v.write snapshot bytes) := by
  have hchoose : chooseFiles v = match getSnapshotAndTransactionLogs folder.directory with
      | some chosen => .ok chosen v
      | none => .raised .exit v := by
    unfold chooseFiles
    rw [htmp]
  rcases h : getSnapshotAndTransactionLogs folder.directory with - | ⟨snapshot, logs⟩ <;>
    rw [h] at hchoose
  · exact .inl ⟨rfl, Proc.bind_raised hchoose⟩
  · have hchosen := chosen_of_eq_some h
    obtain ⟨bytes, hbytes⟩ := Option.isSome_iff_exists.mp hchosen.isfile
    have hcopy : copySnapshot snapshot v = .ok () (v.write snapshot bytes) := by
      rw [copySnapshot, Volume.tmpBytes, htmp]
      simp only [Option.bind_some, hbytes]
    exact .inr ⟨snapshot, logs, bytes, rfl, hbytes, hchosen, (Proc.bind_ok hchoose).trans
      (Proc.bind_ok hcopy)⟩

/-- **Storing the chosen files** returns exactly if it leaves the storage with them, the logs
filtered. -/
theorem storeFiles_ok_iff (htmp : v.tmp = some folder) :
    storeFiles v = .ok () v' ↔ v'.tmp = some folder ∧ Stored folder v.storage v'.storage := by
  rcases storeFiles_cases htmp with ⟨hnone, hrun⟩
    | ⟨snapshot, logs, bytes, hsome, hbytes, hchosen, hrun⟩
  · rw [hrun]
    refine iff_of_false (fun h => by cases h) ?_
    rintro ⟨-, snapshot, logs, hsome, -⟩
    cases hnone.symm.trans hsome
  · rw [hrun, forEach_filterAndStore_ok_iff (v := v.write snapshot bytes) htmp hchosen.isfiles
      hchosen.nodup]
    refine and_congr Iff.rfl ⟨?_, ?_⟩
    · rintro ⟨hlogs, hsame⟩
      refine ⟨snapshot, logs, hsome, ?_, hlogs, fun name hne hname => ?_⟩
      · rw [hsame snapshot hchosen.apart, lookup_write_self, hbytes]
      · rw [hsame name hname, lookup_write_of_ne v bytes hne]
    · rintro ⟨snapshot', logs', hsome', hsnapshot, hlogs, hsame⟩
      cases hsome.symm.trans hsome'
      refine ⟨hlogs, fun name hname => ?_⟩
      by_cases hne : name = snapshot
      · rw [hne, lookup_write_self, hsnapshot, hbytes]
      · rw [lookup_write_of_ne v bytes hne]
        exact hsame name hne hname

/-- A log that cannot be filtered may leave a part behind; other failures leave nothing. -/
theorem storeFiles_raised (htmp : v.tmp = some folder) {e : Failure}
    (h : storeFiles v = .raised e v') : (∃ error, e = .filter error) ∨ v'.storage = v.storage := by
  rcases storeFiles_cases htmp with ⟨-, hrun⟩ | ⟨snapshot, logs, bytes, -, -, hchosen, hrun⟩ <;>
    rw [hrun] at h
  · cases h
    exact .inr rfl
  · exact .inl (forEach_filterAndStore_raised (v := v.write snapshot bytes) htmp hchosen.isfiles h)

end Store

/-! ## A backup -/

section Backup

variable {word : WordClass} {ensemble : Ensemble} {v v' : Volume}

/-- The volume once the temporary directory is made. -/
def Volume.opened (v : Volume) : Volume :=
  { v with tmp := some (v.tmp.getD ⟨[], List.nodup_nil⟩) }

/-- The backup either ends before the leader is found, with the storage as it was, or goes on with
the leader. -/
theorem attempt_cases (word : WordClass) (ensemble : Ensemble) (v : Volume) :
    ((∀ leader, ¬ ensemble.Finds word leader) ∧
      ∃ e, attempt word ensemble v = .raised e v.opened) ∨
    ∃ leader, ensemble.Finds word leader ∧ attempt word ensemble v =
      (do copyLogsFromZooKeeperLeader ensemble leader; storeFiles : Script Unit) v.opened := by
  have hopen : createDirectory v = .ok () v.opened := rfl
  rw [attempt, Proc.bind_ok hopen]
  rcases hconf : ensemble.conf with - | answer
  · -- without an answer to `conf` there is nobody to be asked
    have hservers : getZooKeeperServers word ensemble v.opened = .raised .library v.opened := by
      rw [getZooKeeperServers, hconf]
      rfl
    refine .inl ⟨?_, .library, Proc.bind_raised hservers⟩
    rintro leader ⟨answer, _, _, hanswer, -⟩
    cases hconf.symm.trans hanswer
  · have hservers : getZooKeeperServers word ensemble v.opened =
        .ok (findServers word 0 answer) v.opened := by
      rw [getZooKeeperServers, hconf]
      rfl
    rw [Proc.bind_ok hservers]
    have hfinds {leader : Text} : ensemble.Finds word leader ↔
        findZooKeeperLeader ensemble (findServers word 0 answer) v.opened =
          .ok (some leader) v.opened := by
      rw [findZooKeeperLeader_some_iff, Ensemble.Finds, hconf]
      constructor
      · rintro ⟨_, before, after, ⟨⟩, h⟩
        exact ⟨before, after, h⟩
      · rintro ⟨before, after, h⟩
        exact ⟨answer, before, after, rfl, h⟩
    rcases findZooKeeperLeader_quiet ensemble (findServers word 0 answer) v.opened with
      ⟨- | leader, hleader⟩ | hleader
    · refine .inl ⟨fun leader hfound => ?_, _, Proc.bind_ok hleader⟩
      cases hleader.symm.trans (hfinds.mp hfound)
    · exact .inr ⟨leader, hfinds.mpr hleader, Proc.bind_ok hleader⟩
    · refine .inl ⟨fun leader hfound => ?_, .library, Proc.bind_raised hleader⟩
      cases hleader.symm.trans (hfinds.mp hfound)

/-- There is one leader to be found. -/
theorem Ensemble.Finds.unique {leader leader' : Text} (h : ensemble.Finds word leader)
    (h' : ensemble.Finds word leader') : leader = leader' := by
  obtain ⟨answer, before, after, hconf, hservers⟩ := h
  obtain ⟨answer', before', after', hconf', hservers'⟩ := h'
  cases hconf.symm.trans hconf'
  have hfirst := (findZooKeeperLeader_some_iff (v := ⟨none, ∅⟩)).mpr ⟨before, after, hservers⟩
  have hsecond := (findZooKeeperLeader_some_iff (v := ⟨none, ∅⟩)).mpr ⟨before', after', hservers'⟩
  cases hfirst.symm.trans hsecond
  rfl

/-- With the leader the attempt returns exactly if the assistant copies and all that is chosen can
be stored. -/
theorem attempt_ok_iff : attempt word ensemble v = .ok () v' ↔
    ∃ leader, ensemble.Finds word leader ∧ (ensemble.peer leader).store = some none ∧
      v'.tmp = some (ensemble.peer leader).data ∧
      Stored (ensemble.peer leader).data v.storage v'.storage := by
  rcases attempt_cases word ensemble v with ⟨hnone, e, hrun⟩ |
    ⟨leader, hleader, hrun⟩
  · rw [hrun]
    refine iff_of_false (fun h => by cases h) ?_
    rintro ⟨leader, hleader, -⟩
    exact hnone leader hleader
  · rw [hrun]
    constructor
    · intro h
      obtain ⟨_, v₁, hcopy, hstore⟩ := Proc.bind_ok_inv h
      obtain ⟨hok, rfl⟩ := (copyLogsFromZooKeeperLeader_ok_iff (Option.some_ne_none _)).mp hcopy
      exact ⟨leader, hleader, hok,
        (storeFiles_ok_iff (v := { v.opened with tmp := some _ }) rfl).mp hstore⟩
    · rintro ⟨leader', hleader', hok, hstored⟩
      obtain rfl := hleader.unique hleader'
      have hcopy := (copyLogsFromZooKeeperLeader_ok_iff (v := v.opened) (Option.some_ne_none _)).mpr
        ⟨hok, rfl⟩
      rw [Proc.bind_ok hcopy]
      exact (storeFiles_ok_iff rfl).mpr hstored

/-- An attempt that fails leaves the storage as it was, unless it was the filter that failed. -/
theorem attempt_raised {e : Failure} (h : attempt word ensemble v = .raised e v') :
    (∃ error, e = .filter error) ∨ v'.storage = v.storage := by
  rcases attempt_cases word ensemble v with ⟨-, e', hrun⟩ | ⟨leader, -, hrun⟩ <;>
    rw [hrun] at h
  · cases h
    exact .inr rfl
  · rcases hcopy : copyLogsFromZooKeeperLeader ensemble leader v.opened with ⟨_, v₁⟩ | ⟨e₁, v₁⟩
    · rw [Proc.bind_ok hcopy] at h
      obtain ⟨-, rfl⟩ := (copyLogsFromZooKeeperLeader_ok_iff (Option.some_ne_none _)).mp hcopy
      exact storeFiles_raised (v := { v.opened with tmp := some _ }) rfl h
    · rw [Proc.bind_raised hcopy] at h
      cases h
      have hstorage := copyLogsFromZooKeeperLeader_storage ensemble leader v.opened
      rw [hcopy] at hstorage
      exact .inr hstorage

/-- When a backup returns, and with what. -/
theorem transactionalBackup_ok_iff : transactionalBackup word ensemble v = .ok () v' ↔
    v'.tmp = none ∧ ∃ leader, ensemble.Finds word leader ∧
      (ensemble.peer leader).store = some none ∧
      Stored (ensemble.peer leader).data v.storage v'.storage := by
  constructor
  · intro h
    obtain ⟨t, hrun, rfl⟩ := Proc.withFinally_ok_inv h
    obtain ⟨leader, hleader, hok, -, hstored⟩ := attempt_ok_iff.mp hrun
    exact ⟨rfl, leader, hleader, hok, hstored⟩
  · rintro ⟨htmp, leader, hleader, hok, hstored⟩
    have hrun : attempt word ensemble v =
        .ok () { v' with tmp := some (ensemble.peer leader).data } :=
      attempt_ok_iff.mpr ⟨leader, hleader, hok, rfl, hstored⟩
    obtain ⟨tmp, storage⟩ := v'
    cases htmp
    exact Proc.withFinally_ok hrun

/-- What a backup that fails may leave behind. -/
theorem transactionalBackup_raised {e : Failure}
    (h : transactionalBackup word ensemble v = .raised e v') :
    (∃ error, e = .filter error) ∨ v'.storage = v.storage := by
  obtain ⟨t, hrun, rfl⟩ := Proc.withFinally_raised_inv h
  have hkept : (∃ error, e = .filter error) ∨ t.storage = v.storage := attempt_raised hrun
  exact hkept

/-- **A transactional backup**: the temporary directory is gone however it ends; it returns exactly
if the leader is found, its assistant has copied the data, and all that is chosen of it can be
stored, which then is what the storage has; and if it fails, the storage is as it was, unless it was
the filter that failed. -/
theorem transactionalBackup_spec (word : WordClass) (ensemble : Ensemble) (v : Volume) :
    (transactionalBackup word ensemble v).next.tmp = none ∧
    (∀ v', transactionalBackup word ensemble v = .ok () v' ↔ v'.tmp = none ∧
      ∃ leader, ensemble.Finds word leader ∧ (ensemble.peer leader).store = some none ∧
        Stored (ensemble.peer leader).data v.storage v'.storage) ∧
    ∀ e v', transactionalBackup word ensemble v = .raised e v' →
      (∃ error, e = .filter error) ∨ v'.storage = v.storage := by
  refine ⟨?_, fun v' => transactionalBackup_ok_iff, fun e v' h => transactionalBackup_raised h⟩
  rw [transactionalBackup, Proc.next_withFinally]
  rfl

end Backup

/-! ### A backup that returns -/

/-- The record that creates `/a`. -/
def sampleRecord : LogRecord := .sample (.create (.sample false)) create_fits

/-- A log that opens a session and creates `/a`. -/
def sampleLog : LogFile :=
  ⟨sampleHeader, length_sampleHeader,
    [.sample (.createSession 4000) createSession_fits, sampleRecord],
    .zeroLength 0 []⟩

/-- The log without the session. -/
def sampleFiltered : Bytes := sampleHeader ++ encodeRecords [sampleRecord] ++ END_OF_STREAM

theorem storedLog_sampleLog : storedLog sampleLog.encode = some sampleFiltered := by
  rw [storedLog_eq_filtered]
  rfl

/-- A server that says it is the leader, with a snapshot, a log from before and a log from after it.
-/
def sampleLeader : Peer where
  srvr := some "Mode: leader".toList
  data := ⟨[("snapshot.1f", .file [0x5a, 0x4b] 7), ("acceptedEpoch", .file [] 9),
    ("log.1", .file [] 3), ("log.20", .file sampleLog.encode 8)], by decide⟩
  store := some none

/-- An ensemble of one server. -/
def sampleEnsemble : Ensemble where
  conf := some "server.1=zookeeper-1:2888:3888:participant;0.0.0.0:2181".toList
  peer _ := sampleLeader

/-- The storage folder after a backup of the sample. -/
def sampleStorage : Storage :=
  ((∅ : Storage).insert "snapshot.1f" [0x5a, 0x4b]).insert "log.20" sampleFiltered

theorem finds_sampleEnsemble : sampleEnsemble.Finds asciiWords "zookeeper-1".toList :=
  ⟨_, [], [], rfl, by decide, nofun, _, rfl, by decide⟩

theorem chosen_sampleLeader : getSnapshotAndTransactionLogs sampleLeader.data.directory =
    some ("snapshot.1f", ["log.20"]) := by decide

theorem bytes_sampleLeader : (sampleLeader.data.bytes "log.20").bind storedLog =
    some sampleFiltered := by
  have hbytes : sampleLeader.data.bytes "log.20" = some sampleLog.encode := rfl
  rw [hbytes, Option.bind_some, storedLog_sampleLog]

theorem stored_sampleLeader : Stored sampleLeader.data ∅ sampleStorage := by
  refine ⟨"snapshot.1f", ["log.20"], chosen_sampleLeader, ?_, fun log hlog => ?_,
    fun name hname hlogs => ?_⟩
  · rw [sampleStorage, Finmap.lookup_insert_of_ne _ (by decide), Finmap.lookup_insert]
    rfl
  · obtain rfl := List.mem_singleton.mp hlog
    exact ⟨sampleFiltered, bytes_sampleLeader, Finmap.lookup_insert _⟩
  · rw [sampleStorage, Finmap.lookup_insert_of_ne _ (mt List.mem_singleton.mpr hlogs),
      Finmap.lookup_insert_of_ne _ hname]

theorem transactionalBackup_sampleEnsemble :
    (sampleEnsemble.Finds asciiWords "zookeeper-1".toList ∧
      Stored sampleLeader.data ∅ sampleStorage) ∧
    transactionalBackup asciiWords sampleEnsemble ⟨none, ∅⟩ = .ok () ⟨none, sampleStorage⟩ :=
  ⟨⟨finds_sampleEnsemble, stored_sampleLeader⟩,
    ((transactionalBackup_spec asciiWords sampleEnsemble ⟨none, ∅⟩).2.1 _).mpr
      ⟨rfl, _, finds_sampleEnsemble, rfl, stored_sampleLeader⟩⟩

end TransactionalBackup

end QubershipZookeeper
