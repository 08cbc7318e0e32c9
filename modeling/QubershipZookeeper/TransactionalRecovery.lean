import QubershipZookeeper.TransactionalBackup

/-!
# A transactional recovery (`transactional_recovery` in `restore.py`)

The daemon puts the files of a backup into a directory for recovery on the shared volume, and has
all servers stopped and started again. A server that finds files there when it starts (`start` in
`docker-entrypoint.sh`) replaces its data directory by them. Then the directory is removed.

`recovery_of_backup` follows a backup all the way: after a recovery that returns, every server has
started with what was chosen of the leader's data, and with nothing else.
-/

namespace QubershipZookeeper

namespace TransactionalRecovery

open Text TransactionalBackup

/-! ## The parties -/

/-- The shared volume, and the data directories of the servers as they have started with them. -/
structure Site where
  /-- the directory for recovery, if it is there -/
  recover : Option Storage
  /-- the storage folder of a backup -/
  storage : Storage
  /-- the files in the data directory of a server -/
  data : Text → String → Option Bytes

/-- The pattern `*` of the shell leaves such a name out. -/
def Hidden (name : String) : Prop := name.toList.head? = some '.'

instance (name : String) : Decidable (Hidden name) := inferInstanceAs (Decidable (_ = _))

/-- `rm -rfv <data>/*` and `cp -rp <recover>/. <data>` -/
def replaced (files : Storage) (data : String → Option Bytes) (name : String) : Option Bytes :=
  match files.lookup name with
  | some bytes => some bytes
  | none => if Hidden name then data name else none

/-- The part of `start` that copies a backup, if there is something to copy. -/
def startServer (server : Text) (site : Site) : Site :=
  match site.recover with
  | some files =>
    if files = ∅ then site
    else { site with data := Function.update site.data server (replaced files (site.data server)) }
  | none => site

/-- What happens on the way. -/
structure Course where
  /-- what is in the directory if copying the files breaks off -/
  copyFault : Option Storage
  /-- all servers have stopped -/
  scaledDown : Bool
  /-- the servers that start while the daemon waits for them, one after the other -/
  starts : List Text
  /-- all servers have started -/
  scaledUp : Bool

/-- A part of the script; its failures are exceptions. -/
abbrev Script : Type → Type := Proc Unit Site

/-- `create_directory` for the directory for recovery. -/
def createDirectory : Script Unit :=
  Proc.update fun site => { site with recover := some (site.recover.getD ∅) }

/-- `copy_zookeeper_logs` -/
def copyZooKeeperLogs (fault : Option Storage) : Script Unit := fun site =>
  match fault with
  | some left => .raised () { site with recover := some left }
  | none => .ok () { site with recover := some (site.storage ∪ site.recover.getD ∅) }

/-- A request that is waited for. -/
def check (done : Bool) : Script Unit := if done then pure () else Proc.raise ()

/-- The `try` block of `transactional_recovery`. -/
def attempt (course : Course) : Script Unit := do
  createDirectory
  copyZooKeeperLogs course.copyFault
  check course.scaledDown
  Proc.forEach course.starts fun server => Proc.update (startServer server)
  check course.scaledUp

/-- `transactional_recovery` -/
def transactionalRecovery (course : Course) : Script Unit :=
  Proc.withFinally (attempt course) fun site => { site with recover := none }

/-- How a backup is restored. -/
inductive Mode where
  | transactional
  | hierarchical
  deriving DecidableEq

/-- `determine_mode` -/
def determineMode (storage : Storage) : Mode :=
  if ∃ name ∈ storage.keys, contained "snapshot." name || contained "log." name then .transactional
  else .hierarchical

/-! ## The servers -/

/-- What a server has after it has started with files for recovery. -/
def Loaded (files : Storage) (data : String → Option Bytes) : Prop :=
  ∀ name, ¬ Hidden name → data name = files.lookup name

/-- A data directory that was replaced has the files of the backup, and nothing else but hidden
ones. -/
theorem loaded_replaced (files : Storage) (data : String → Option Bytes) :
    Loaded files (replaced files data) := by
  intro name hname
  unfold replaced
  rcases files.lookup name with - | bytes
  · exact if_neg hname
  · rfl

/-- A server that finds files for a recovery starts with them. -/
theorem startServer_some {site : Site} {files : Storage} (h : site.recover = some files)
    (hne : files ≠ ∅) (server : Text) :
    startServer server site =
      { site with
        data := Function.update site.data server (replaced files (site.data server)) } := by
  rw [startServer, h]
  exact if_neg hne

/-- The servers start one after the other; what a server has is decided by its last start. -/
theorem forEach_startServer {files : Storage} (hne : files ≠ ∅) (starts : List Text) (site : Site)
    (h : site.recover = some files) :
    ∃ data, Proc.forEach starts (fun server => Proc.update (startServer server)) site =
        (.ok () { site with data := data } : Outcome Unit Site Unit) ∧
      (∀ server ∈ starts, Loaded files (data server)) ∧
      ∀ server, Loaded files (site.data server) → Loaded files (data server) := by
  induction starts generalizing site with
  | nil => exact ⟨site.data, rfl, nofun, fun _ hloaded => hloaded⟩
  | cons server starts ih =>
    obtain ⟨data, hrun, hstarted, hkept⟩ := ih
      { site with data := Function.update site.data server (replaced files (site.data server)) } h
    have hself : Loaded files (data server) := by
      refine hkept server ?_
      dsimp only
      rw [Function.update_self]
      exact loaded_replaced files _
    refine ⟨data, ?_, List.forall_mem_cons.mpr ⟨hself, hstarted⟩, fun other hother => ?_⟩
    · have hstart : (Proc.update (startServer server) : Script Unit) site = .ok () { site with
          data := Function.update site.data server (replaced files (site.data server)) } :=
        congrArg (Outcome.ok ()) (startServer_some h hne server)
      rw [Proc.forEach_cons, Proc.bind_ok hstart]
      exact hrun
    · by_cases hother' : other = server
      · exact hother' ▸ hself
      · refine hkept other ?_
        dsimp only
        rw [Function.update_of_ne hother']
        exact hother

/-! ## A recovery -/

/-- A check changes nothing. -/
theorem check_ok_inv {done : Bool} {site site' : Site} {a : Unit}
    (h : check done site = .ok a site') :
    done = true ∧ site' = site := by
  cases done
  · cases h
  · cases h
    exact ⟨rfl, rfl⟩

/-- The files of the backup are put beside those that are there. -/
theorem copyZooKeeperLogs_ok_inv {fault : Option Storage} {site site' : Site} {a : Unit}
    (h : copyZooKeeperLogs fault site = .ok a site') :
    site' = { site with recover := some (site.storage ∪ site.recover.getD ∅) } := by
  cases fault with
  | some left => cases h
  | none =>
    cases h
    rfl

/-- A recovery into a directory that was not there: every server that has started has the files of
the backup. -/
theorem transactionalRecovery_loads {course : Course} {site site' : Site}
    (hclean : site.recover = none) (hfiles : site.storage ≠ ∅)
    (h : transactionalRecovery course site = .ok () site') :
    site'.recover = none ∧ site'.storage = site.storage ∧
      ∀ server ∈ course.starts, Loaded site.storage (site'.data server) := by
  obtain ⟨t, hattempt, rfl⟩ := Proc.withFinally_ok_inv h
  refine ⟨rfl, ?_⟩
  obtain ⟨_, s₁, hopen, h₁⟩ := Proc.bind_ok_inv hattempt
  cases hopen
  obtain ⟨_, s₂, hcopy, h₂⟩ := Proc.bind_ok_inv h₁
  obtain rfl : s₂ = { site with recover := some site.storage } := by
    rw [copyZooKeeperLogs_ok_inv hcopy]
    simp [hclean]
  obtain ⟨_, s₃, hdown, h₃⟩ := Proc.bind_ok_inv h₂
  obtain ⟨-, rfl⟩ := check_ok_inv hdown
  obtain ⟨_, s₄, hstart, hup⟩ := Proc.bind_ok_inv h₃
  obtain ⟨-, rfl⟩ := check_ok_inv hup
  obtain ⟨data, hrun, hloaded, -⟩ := forEach_startServer hfiles course.starts
    { site with recover := some site.storage } rfl
  cases hrun.symm.trans hstart
  exact ⟨rfl, hloaded⟩

/-! ## From a backup to the servers -/

/-- What a backup into an empty folder stores, file by file. -/
theorem lookup_of_stored {folder : TransactionalBackup.Folder} {storage : Storage}
    (h : Stored folder ∅ storage) :
    ∃ snapshot logs, getSnapshotAndTransactionLogs folder.directory = some (snapshot, logs) ∧
      ∀ name, storage.lookup name =
        if name = snapshot then folder.bytes name
        else if name ∈ logs then (folder.bytes name).bind storedLog else none := by
  obtain ⟨snapshot, logs, hchosen, hsnapshot, hlogs, hothers⟩ := h
  refine ⟨snapshot, logs, hchosen, fun name => ?_⟩
  split
  next hname => rw [hname, hsnapshot]
  next hname =>
    split
    next hlog =>
      obtain ⟨stored, hstored, hlookup⟩ := hlogs name hlog
      rw [hlookup, hstored]
    next hlog => rw [hothers name hname hlog, Finmap.lookup_empty]

/-- A stored backup is restored as a transactional one. -/
theorem determineMode_of_stored {folder : TransactionalBackup.Folder} {before storage : Storage}
    (h : Stored folder before storage) : determineMode storage = .transactional := by
  obtain ⟨snapshot, logs, heq, hsnapshot, -⟩ := h
  have hchosen := chosen_of_eq_some heq
  refine if_pos ⟨snapshot, ?_, by rw [hchosen.named, Bool.true_or]⟩
  rw [Finmap.mem_keys, ← Finmap.lookup_isSome, hsnapshot]
  exact hchosen.isfile

/-- A backup is not empty: it has a snapshot at least. -/
theorem ne_empty_of_stored {folder : TransactionalBackup.Folder} {before storage : Storage}
    (h : Stored folder before storage) : storage ≠ ∅ := by
  obtain ⟨snapshot, logs, heq, hsnapshot, -⟩ := h
  rintro rfl
  have hfile := (chosen_of_eq_some heq).isfile
  rw [← hsnapshot, Finmap.lookup_empty] at hfile
  cases hfile

/-- **A backup comes back on every server**: a recovery from a transactional backup into an empty
folder is a transactional one, and if it returns, every server that was started has started with
exactly the chosen snapshot of the leader and its chosen logs, filtered; hidden files apart, nothing
else is left in the data directory. -/
theorem recovery_of_backup {word : WordClass} {ensemble : Ensemble}
    {tmp : Option TransactionalBackup.Folder} {b : TransactionalBackup.Volume}
    (hbackup : transactionalBackup word ensemble ⟨tmp, ∅⟩ = .ok () b) {course : Course}
    {site site' : Site} (hstorage : site.storage = b.storage) (hclean : site.recover = none)
    (hrecovery : transactionalRecovery course site = .ok () site') :
    determineMode site.storage = .transactional ∧ site'.recover = none ∧
      site'.storage = site.storage ∧
      ∃ leader, ensemble.Finds word leader ∧ ∃ snapshot logs,
        getSnapshotAndTransactionLogs (ensemble.peer leader).data.directory =
          some (snapshot, logs) ∧
        ∀ server ∈ course.starts, ∀ name, ¬ Hidden name → site'.data server name =
          if name = snapshot then (ensemble.peer leader).data.bytes name
          else if name ∈ logs then ((ensemble.peer leader).data.bytes name).bind storedLog
          else none := by
  obtain ⟨-, leader, hleader, -, hstored⟩ := transactionalBackup_ok_iff.mp hbackup
  rw [← hstorage] at hstored
  obtain ⟨hrecover, hsame, hloaded⟩ :=
    transactionalRecovery_loads hclean (ne_empty_of_stored hstored)
    hrecovery
  obtain ⟨snapshot, logs, hchosen, hlookup⟩ := lookup_of_stored hstored
  refine ⟨determineMode_of_stored hstored, hrecover, hsame, leader, hleader,
    snapshot, logs, hchosen,
    fun server hserver name hname => ?_⟩
  rw [hloaded server hserver name hname, hlookup name]

/-! ### A recovery that returns -/

/-- The servers stop and start, and nothing fails. -/
def sampleCourse : Course where
  copyFault := none
  scaledDown := true
  starts := ["zookeeper-1".toList]
  scaledUp := true

/-- The volume after the backup of the sample, with a server that has other data. -/
def sampleSite : Site where
  recover := none
  storage := sampleStorage
  data _ name := if name = "log.2" then some [] else none

theorem recovery_of_backup_sampleSite :
    ∃ site', transactionalRecovery sampleCourse sampleSite = .ok () site' ∧
      determineMode sampleSite.storage = .transactional ∧ site'.recover = none ∧
      site'.storage = sampleSite.storage ∧
      site'.data "zookeeper-1".toList "log.20" = some sampleFiltered := by
  have hbackup : transactionalBackup asciiWords sampleEnsemble ⟨none, ∅⟩ =
      .ok () ⟨none, sampleSite.storage⟩ :=
    transactionalBackup_ok_iff.mpr ⟨rfl, _, finds_sampleEnsemble, rfl, stored_sampleLeader⟩
  obtain ⟨_, site', hrecovery⟩ := Outcome.returned_iff.mp
    (show (transactionalRecovery sampleCourse sampleSite).returned = true from rfl)
  obtain ⟨hmode, hrecover, hstorage, leader, -, snapshot, logs, hchosen, hdata⟩ :=
    recovery_of_backup hbackup rfl rfl hrecovery
  have hchosen : some (snapshot, logs) = some ("snapshot.1f", ["log.20"]) :=
    hchosen.symm.trans chosen_sampleLeader
  cases hchosen
  refine ⟨site', hrecovery, hmode, hrecover, hstorage, ?_⟩
  rw [hdata _ (.head _) "log.20" (by decide), if_neg (by decide), if_pos (.head _)]
  exact bytes_sampleLeader

end TransactionalRecovery

end QubershipZookeeper
