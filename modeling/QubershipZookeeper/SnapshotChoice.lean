import Mathlib.Data.List.Infix
import Mathlib.Data.List.Nodup
import Mathlib.Data.Nat.Digits.Lemmas

/-!
# Choosing what a transactional backup keeps (`process_zookeeper_logs.py`)

`get_snapshot_and_transaction_logs` looks at the names and modification times of
a directory that was copied from the ZooKeeper leader. It keeps the snapshot
that was modified last, and the transaction logs modified after it.

What the backup needs is a statement about transactions, not about times: the
snapshot `snapshot.<z>` reflects the transactions up to `z`, so whatever a log
holds above `z` has to be in a log that is kept. The second half of the module
compares the two.
-/

namespace QubershipZookeeper

/-- What the function asks of the directory: `os.listdir`, `isfile` and the
`st_mtime` of `os.stat`. Names are relative to the directory. -/
structure Directory where
  listdir : List String
  isfile : String → Bool
  mtime : String → ℕ

/-- Python's `part in name`. -/
def contained (part name : String) : Bool :=
  part.toList <:+: name.toList

/-- The later of two files; the one found first where the times agree. -/
def newer {α : Type} (mtime : α → ℕ) (last file : α) : α :=
  if mtime last < mtime file then file else last

/-- `get_snapshot_and_transaction_logs`; `none` is the `sys.exit(1)`. -/
def getSnapshotAndTransactionLogs (directory : Directory) : Option (String × List String) :=
  let files := directory.listdir.filter directory.isfile
  let snapshots := files.filter (contained "snapshot.")
  let transactionLogs := files.filter (contained "log.")
  match snapshots with
  | [] => none
  | first :: _ =>
    let lastSnapshot := snapshots.foldl (newer directory.mtime) first
    some (lastSnapshot,
      transactionLogs.filter fun log => directory.mtime lastSnapshot < directory.mtime log)

/-! ## The loop over the snapshots -/

section Newer

variable {α β : Type} {mtime : α → ℕ}

/-- `file` is the first of the latest files of the list. -/
def Latest (mtime : α → ℕ) (files : List α) (file : α) : Prop :=
  ∃ before after, files = before ++ file :: after ∧
    (∀ other ∈ before, mtime other < mtime file) ∧ ∀ other ∈ after, mtime other ≤ mtime file

theorem Latest.mem {files : List α} {file : α} (h : Latest mtime files file) : file ∈ files := by
  obtain ⟨before, after, rfl, -⟩ := h
  simp

/-- The loop stays with a file that nothing is later than. -/
theorem foldl_newer_of_le {last : α} {files : List α}
    (h : ∀ file ∈ files, mtime file ≤ mtime last) : files.foldl (newer mtime) last = last := by
  induction files with
  | nil => rfl
  | cons file files ih =>
    have hfile : ¬ mtime last < mtime file := by
      simpa using h file (by simp)
    rw [List.foldl_cons, newer, if_neg hfile]
    exact ih fun other hother => h other (by simp [hother])

/-- While all files are earlier than a given one, the loop stays at an earlier one. -/
theorem foldl_newer_lt {last file : α} {files : List α} (hlast : mtime last < mtime file)
    (h : ∀ other ∈ files, mtime other < mtime file) :
    mtime (files.foldl (newer mtime) last) < mtime file := by
  induction files generalizing last with
  | nil => exact hlast
  | cons other files ih =>
    rw [List.foldl_cons]
    refine ih ?_ fun x hx => h x (by simp [hx])
    rw [newer]
    split
    · exact h other (by simp)
    · exact hlast

/-- The loop, started at the head of the list, ends at the first latest file. -/
theorem Latest.foldl_newer {first file : α} {rest : List α}
    (h : Latest mtime (first :: rest) file) :
    (first :: rest).foldl (newer mtime) first = file := by
  obtain ⟨before, after, heq, hbefore, hafter⟩ := h
  -- the value on reaching `file` is `file` itself or something older
  have hreach : newer mtime (before.foldl (newer mtime) first) file = file := by
    cases before with
    | nil =>
      obtain ⟨rfl, -⟩ := List.cons.inj heq
      exact ite_self _
    | cons x before =>
      obtain ⟨rfl, -⟩ := List.cons.inj heq
      have hlt := foldl_newer_lt (hbefore first (by simp)) hbefore
      rw [newer, if_pos hlt]
  rw [heq, List.foldl_append, List.foldl_cons, hreach]
  exact foldl_newer_of_le hafter

/-- There is one first latest file. -/
theorem Latest.unique {files : List α} {file other : α} (h : Latest mtime files file)
    (h' : Latest mtime files other) : file = other := by
  cases files with
  | nil => cases h.mem
  | cons first rest => exact h.foldl_newer.symm.trans h'.foldl_newer

/-- There is one in every list with a file in it. -/
theorem exists_latest (mtime : α → ℕ) (first : α) (rest : List α) :
    ∃ file, Latest mtime (first :: rest) file := by
  induction rest generalizing first with
  | nil => exact ⟨first, [], [], by simp⟩
  | cons second rest ih =>
    obtain ⟨file, before, after, heq, hbefore, hafter⟩ := ih second
    by_cases hlt : mtime first < mtime file
    · refine ⟨file, first :: before, after, by simp [heq], ?_, hafter⟩
      rintro other hother
      rcases List.mem_cons.mp hother with rfl | hother
      · exact hlt
      · exact hbefore other hother
    · refine ⟨first, [], second :: rest, rfl, by simp, ?_⟩
      rintro other hother
      rw [heq] at hother
      have hle : mtime other ≤ mtime file := by
        rcases List.mem_append.mp hother with hother | hother
        · exact (hbefore other hother).le
        · rcases List.mem_cons.mp hother with rfl | hother
          · exact le_rfl
          · exact hafter other hother
      exact hle.trans (not_lt.mp hlt)

/-- The loop over names is the loop over the files they name. -/
theorem foldl_newer_map (mtime : α → ℕ) {mtime' : β → ℕ} {name : α → β} {first : α} {files : List α}
    (h : ∀ file ∈ first :: files, mtime' (name file) = mtime file) :
    (files.map name).foldl (newer mtime') (name first) =
      name (files.foldl (newer mtime) first) := by
  induction files generalizing first with
  | nil => rfl
  | cons file files ih =>
    have hstep : newer mtime' (name first) (name file) = name (newer mtime first file) := by
      rw [newer, newer, h first (by simp), h file (by simp), apply_ite name]
    have hnext : newer mtime first file = file ∨ newer mtime first file = first := by
      rw [newer]
      exact ite_eq_or_eq _ _ _
    rw [List.map_cons, List.foldl_cons, List.foldl_cons, hstep]
    refine ih ?_
    rintro other hother
    rcases List.mem_cons.mp hother with rfl | hother
    · rcases hnext with hnext | hnext <;> rw [hnext] <;> exact h _ (by simp)
    · exact h other (by simp [hother])

end Newer

/-! ## The files ZooKeeper writes -/

/-- A file of the data directory: a snapshot with the zxid of its name, or a
transaction log with the zxid of its name and the zxids of what it holds. -/
inductive DataFile where
  | snapshot (zxid mtime : ℕ)
  | log (zxid mtime : ℕ) (transactions : List ℕ)
  deriving DecidableEq, Repr

namespace DataFile

/-- `snapshot.<zxid>` and `log.<zxid>`, the zxid in hexadecimal digits. -/
def name : DataFile → String
  | .snapshot zxid _ => String.ofList ("snapshot.".toList ++ Nat.toDigits 16 zxid)
  | .log zxid _ _ => String.ofList ("log.".toList ++ Nat.toDigits 16 zxid)

def mtime : DataFile → ℕ
  | .snapshot _ mtime => mtime
  | .log _ mtime _ => mtime

def isSnapshot : DataFile → Bool
  | .snapshot _ _ => true
  | .log _ _ _ => false

/-- The zxids a transaction log holds. -/
def transactions : DataFile → List ℕ
  | .snapshot _ _ => []
  | .log _ _ transactions => transactions

end DataFile

/-- Hexadecimal digits do not run on into the letters of the two name stems. -/
theorem toDigits_sixteen_le {zxid : ℕ} {c : Char} (h : c ∈ Nat.toDigits 16 zxid) : c ≤ 'f' := by
  have hcore : ∀ fuel n digits, (∀ d ∈ digits, d ≤ 'f') →
      ∀ d ∈ Nat.toDigitsCore 16 fuel n digits, d ≤ 'f' := by
    intro fuel
    induction fuel with
    | zero =>
      intro n digits hdigits
      exact hdigits
    | succ fuel ih =>
      intro n digits hdigits
      have hdigit : ∀ r < 16, Nat.digitChar r ≤ 'f' := by decide
      have hcons : ∀ d ∈ Nat.digitChar (n % 16) :: digits, d ≤ 'f' := by
        rintro d hd
        rcases List.mem_cons.mp hd with rfl | hd
        · exact hdigit _ (Nat.mod_lt _ (by decide))
        · exact hdigits d hd
      rw [Nat.toDigitsCore]
      split
      · exact hcons
      · exact ih _ _ hcons
  exact hcore _ _ _ (by simp) c h

/-- A part with a letter beyond the digits is not found in a name without it. -/
theorem contained_name {part stem : String} {zxid : ℕ} (letter : Char) (hletter : 'f' < letter)
    (hpart : letter ∈ part.toList) (hstem : letter ∉ stem.toList) :
    contained part (String.ofList (stem.toList ++ Nat.toDigits 16 zxid)) = false := by
  rw [contained, decide_eq_false_iff_not, String.toList_ofList]
  intro hpart'
  rcases List.mem_append.mp (hpart'.subset hpart) with hmem | hmem
  · exact hstem hmem
  · exact absurd (toDigits_sixteen_le hmem) (Char.not_le.mpr hletter)

theorem contained_stem {stem : String} {zxid : ℕ} :
    contained stem (String.ofList (stem.toList ++ Nat.toDigits 16 zxid)) = true := by
  rw [contained, decide_eq_true_eq, String.toList_ofList]
  exact (List.prefix_append _ _).isInfix

/-- The two substring tests tell snapshots from logs. -/
theorem DataFile.contained_snapshot (file : DataFile) :
    contained "snapshot." file.name = file.isSnapshot := by
  cases file with
  | snapshot zxid mtime => exact contained_stem
  | log zxid mtime transactions => exact contained_name 's' (by decide) (by decide) (by decide)

theorem DataFile.contained_log (file : DataFile) :
    contained "log." file.name = !file.isSnapshot := by
  cases file with
  | snapshot zxid mtime => exact contained_name 'l' (by decide) (by decide) (by decide)
  | log zxid mtime transactions => exact contained_stem

/-- The files of one directory, no two of one name. -/
structure DataDirectory where
  files : List DataFile
  nodup : (files.map DataFile.name).Nodup

namespace DataDirectory

variable (dir : DataDirectory)

/-- The directory as the backup script sees it. -/
def directory : Directory where
  listdir := dir.files.map DataFile.name
  isfile name := name ∈ dir.files.map DataFile.name
  mtime name := ((dir.files.find? fun file => file.name = name).map DataFile.mtime).getD 0

def snapshots : List DataFile :=
  dir.files.filter DataFile.isSnapshot

def logs : List DataFile :=
  dir.files.filter fun file => !file.isSnapshot

variable {dir}

/-- In a directory a name stands for one file. -/
theorem name_inj {file other : DataFile} (hfile : file ∈ dir.files) (hother : other ∈ dir.files)
    (h : file.name = other.name) : file = other :=
  List.inj_on_of_nodup_map dir.nodup hfile hother h

/-- So its time can be looked up by the name. -/
theorem mtime_name {file : DataFile} (h : file ∈ dir.files) :
    dir.directory.mtime file.name = file.mtime := by
  have hfind : dir.files.find? (fun other => other.name = file.name) = some file := by
    cases hfound : dir.files.find? fun other => other.name = file.name with
    | none =>
      have hnone := List.find?_eq_none.mp hfound file h
      simp at hnone
    | some other =>
      have hname : other.name = file.name := by
        simpa using List.find?_some hfound
      rw [name_inj (List.mem_of_find?_eq_some hfound) h hname]
  show ((dir.files.find? fun other => other.name = file.name).map DataFile.mtime).getD 0 = _
  rw [hfind]
  rfl

theorem listdir_filter_isfile :
    dir.directory.listdir.filter dir.directory.isfile = dir.files.map DataFile.name :=
  List.filter_eq_self.mpr fun _ hname => decide_eq_true hname

/-- The names that look like snapshots are the names of the snapshots. -/
theorem filter_snapshots :
    (dir.files.map DataFile.name).filter (contained "snapshot.") =
      dir.snapshots.map DataFile.name := by
  rw [List.filter_map, snapshots]
  exact congrArg _ (List.filter_congr fun file _ => file.contained_snapshot)

theorem filter_logs :
    (dir.files.map DataFile.name).filter (contained "log.") = dir.logs.map DataFile.name := by
  rw [List.filter_map, logs]
  exact congrArg _ (List.filter_congr fun file _ => file.contained_log)

/-- What the function returns, said of files instead of names. -/
theorem getSnapshotAndTransactionLogs_eq {snapshot : DataFile}
    (h : Latest DataFile.mtime dir.snapshots snapshot) :
    getSnapshotAndTransactionLogs dir.directory = some (snapshot.name,
      (dir.logs.filter fun log => snapshot.mtime < log.mtime).map DataFile.name) := by
  have hfiles : ∀ file ∈ dir.snapshots, dir.directory.mtime file.name = file.mtime :=
    fun file hfile => mtime_name (List.mem_of_mem_filter hfile)
  cases hsnapshots : dir.snapshots with
  | nil =>
    have hmem := h.mem
    simp [hsnapshots] at hmem
  | cons first rest =>
    have hmem : snapshot ∈ dir.snapshots := h.mem
    -- the loop begins with the first snapshot and meets it again, which changes nothing
    have hlast : ((first :: rest).map DataFile.name).foldl (newer dir.directory.mtime) first.name =
        snapshot.name := by
      rw [hsnapshots] at h hfiles
      have hsame : ∀ file ∈ first :: first :: rest,
          dir.directory.mtime file.name = file.mtime :=
        fun file hfile => hfiles file (by simpa using hfile)
      rw [foldl_newer_map DataFile.mtime hsame, h.foldl_newer]
    have hlogs : ∀ log ∈ dir.logs,
        decide (dir.directory.mtime snapshot.name < dir.directory.mtime log.name) =
          decide (snapshot.mtime < log.mtime) := by
      intro log hlog
      rw [hfiles _ hmem, mtime_name (List.mem_of_mem_filter hlog)]
    simp only [getSnapshotAndTransactionLogs, listdir_filter_isfile, filter_snapshots, filter_logs,
      hsnapshots, List.map_cons]
    rw [← List.map_cons, hlast, List.filter_map]
    exact congrArg (fun kept => some (snapshot.name, kept.map DataFile.name))
      (List.filter_congr hlogs)

variable (dir)

/-- No committed transaction is lost: with `snapshot.<z>` chosen, whatever a log
of the directory holds above `z` is held by a chosen log. -/
def KeepsCommitted : Prop :=
  ∀ chosen kept, getSnapshotAndTransactionLogs dir.directory = some (chosen, kept) →
    ∀ z mtime, .snapshot z mtime ∈ dir.files → (DataFile.snapshot z mtime).name = chosen →
      ∀ log ∈ dir.files, ∀ zxid ∈ log.transactions, z < zxid →
        ∃ other ∈ dir.files, other.name ∈ kept ∧ zxid ∈ other.transactions

end DataDirectory

/-- Every transaction above the zxid of the latest snapshot is in a log that was
appended to after that snapshot was finished. -/
def Outlived (files : List DataFile) : Prop :=
  ∀ z mtime, Latest DataFile.mtime (files.filter DataFile.isSnapshot) (.snapshot z mtime) →
    ∀ log ∈ files, ∀ zxid ∈ log.transactions, z < zxid →
      ∃ other ∈ files, mtime < other.mtime ∧ zxid ∈ other.transactions

/-- Only logs hold transactions. -/
theorem DataFile.isSnapshot_of_mem_transactions {file : DataFile} {zxid : ℕ}
    (h : zxid ∈ file.transactions) : file.isSnapshot = false := by
  cases file with
  | snapshot z mtime => cases h
  | log z mtime transactions => rfl

/-- The choice by modification time, said of the files. -/
theorem DataDirectory.keepsCommitted_iff_outlived (dir : DataDirectory) :
    dir.KeepsCommitted ↔ Outlived dir.files := by
  constructor
  · intro hkeeps z mtime hlatest log hlog zxid hzxid hz
    have hmem : DataFile.snapshot z mtime ∈ dir.files := List.mem_of_mem_filter hlatest.mem
    obtain ⟨other, hother, hkept, hheld⟩ :=
      hkeeps _ _ (getSnapshotAndTransactionLogs_eq hlatest) z mtime hmem rfl log hlog zxid hzxid hz
    obtain ⟨file, hfile, hname⟩ := List.mem_map.mp hkept
    obtain ⟨hfile, hlt⟩ := List.mem_filter.mp hfile
    obtain rfl := name_inj (List.mem_of_mem_filter hfile) hother hname
    exact ⟨file, hother, of_decide_eq_true hlt, hheld⟩
  · intro houtlived chosen kept hchosen z mtime hmem hname log hlog zxid hzxid hz
    -- a snapshot is there, so the loop has found the latest one
    have hsnapshot : DataFile.snapshot z mtime ∈ dir.snapshots :=
      List.mem_filter.mpr ⟨hmem, rfl⟩
    obtain ⟨first, rest, hcons⟩ := List.exists_cons_of_ne_nil (List.ne_nil_of_mem hsnapshot)
    obtain ⟨latest, hlatest⟩ := exists_latest DataFile.mtime first rest
    rw [← hcons] at hlatest
    rw [getSnapshotAndTransactionLogs_eq hlatest] at hchosen
    obtain ⟨rfl, rfl⟩ := Prod.mk.inj (Option.some.inj hchosen)
    have hin : latest ∈ dir.files := List.mem_of_mem_filter hlatest.mem
    obtain rfl := name_inj hmem hin hname
    obtain ⟨other, hother, hlt, hheld⟩ := houtlived z mtime hlatest log hlog zxid hzxid hz
    refine ⟨other, hother, List.mem_map_of_mem ?_, hheld⟩
    refine List.mem_filter.mpr ⟨List.mem_filter.mpr ⟨hother, ?_⟩, decide_eq_true hlt⟩
    rw [DataFile.isSnapshot_of_mem_transactions hheld]
    rfl

/-! ## A server that writes the directory

The server appends to one log at a time, starts a new one when it is told to
roll, and writes a snapshot next to all this: between the moment a snapshot is
begun, which fixes its zxid, and the moment it is finished, which fixes its
modification time, appends go on.
-/

inductive WriterEvent where
  | append
  | rollLog
  | beginSnapshot
  | endSnapshot
  deriving DecidableEq, Repr

structure Writer where
  clock : ℕ
  lastZxid : ℕ
  /-- The finished files, and the log being appended to while there is one. -/
  closed : List DataFile
  current : Option (ℕ × ℕ × List ℕ)
  /-- The zxid of the snapshot being written. -/
  writing : Option ℕ
  deriving DecidableEq, Repr

namespace Writer

def start : Writer := ⟨0, 0, [], none, none⟩

def currentLog (w : Writer) : List DataFile :=
  match w.current with
  | some (zxid, mtime, transactions) => [.log zxid mtime transactions]
  | none => []

def files (w : Writer) : List DataFile :=
  w.closed ++ w.currentLog

def step (w : Writer) : WriterEvent → Writer
  | .append =>
    let zxid := w.lastZxid + 1
    let (name, transactions) := match w.current with
      | some (name, _, transactions) => (name, transactions)
      | none => (zxid, [])
    { w with
      clock := w.clock + 1
      lastZxid := zxid
      current := some (name, w.clock + 1, transactions ++ [zxid]) }
  | .rollLog => { w with closed := w.files, current := none }
  | .beginSnapshot => { w with writing := some w.lastZxid }
  | .endSnapshot =>
    match w.writing with
    | some zxid =>
      { w with
        clock := w.clock + 1
        closed := w.closed ++ [.snapshot zxid (w.clock + 1)]
        writing := none }
    | none => w

def run (events : List WriterEvent) : Writer :=
  events.foldl step start

/-- A snapshot is begun and finished, and no other one is finished later. -/
structure LastSnapshot (events before during after : List WriterEvent) : Prop where
  split : events = (before ++ .beginSnapshot :: during) ++ .endSnapshot :: after
  unbegun : .beginSnapshot ∉ during
  unfinished : .endSnapshot ∉ during
  last : ¬ List.Sublist [.beginSnapshot, .endSnapshot] after

/-- Every log that was appended to while the last snapshot was being written was
appended to again after that: none of them stays as the snapshot left it. -/
def Resumed (events : List WriterEvent) : Prop :=
  ∀ before during after, LastSnapshot events before during after →
    ∀ log ∈ (run (before ++ .beginSnapshot :: during)).files, log ∉ (run before).files →
      log ∉ (run events).files

/-! ### What a server does in a step and in a run -/

theorem run_append (events later : List WriterEvent) :
    run (events ++ later) = later.foldl step (run events) :=
  List.foldl_append

/-- The files after an append: the finished ones, and a log stamped with the new
time that holds what the current log held and the new transaction. -/
theorem files_step_append (w : Writer) :
    ∃ name transactions,
      (w.step .append).files =
        w.closed ++ [.log name (w.clock + 1) (transactions ++ [w.lastZxid + 1])] ∧
      ∀ zxid ∈ transactions, ∃ log ∈ w.currentLog, zxid ∈ log.transactions := by
  cases hcurrent : w.current with
  | none =>
    refine ⟨w.lastZxid + 1, [], ?_, by simp⟩
    simp [step, files, currentLog, hcurrent]
  | some current =>
    obtain ⟨name, mtime, transactions⟩ := current
    refine ⟨name, transactions, ?_, ?_⟩
    · simp [step, files, currentLog, hcurrent]
    · intro zxid hzxid
      exact ⟨.log name mtime transactions, by simp [currentLog, hcurrent], hzxid⟩

/-- Rolling the log changes no file. -/
theorem files_step_rollLog (w : Writer) : (w.step .rollLog).files = w.files :=
  List.append_nil _

/-- There is nothing to be finished where nothing was begun. -/
theorem step_endSnapshot_of_none {w : Writer} (h : w.writing = none) : w.step .endSnapshot = w := by
  simp [step, h]

/-- A finished snapshot has the zxid of its begin, and the time of its end. -/
theorem files_step_endSnapshot {w : Writer} {zxid : ℕ} (h : w.writing = some zxid) :
    (w.step .endSnapshot).files =
      w.closed ++ [.snapshot zxid (w.clock + 1)] ++ w.currentLog := by
  simp [step, h, files, currentLog]

theorem clock_le_step (w : Writer) (event : WriterEvent) : w.clock ≤ (w.step event).clock := by
  cases event with
  | append => exact Nat.le_succ _
  | rollLog => exact le_rfl
  | beginSnapshot => exact le_rfl
  | endSnapshot => cases h : w.writing <;> simp [step, h]

theorem lastZxid_le_step (w : Writer) (event : WriterEvent) :
    w.lastZxid ≤ (w.step event).lastZxid := by
  cases event with
  | append => exact Nat.le_succ _
  | rollLog => exact le_rfl
  | beginSnapshot => exact le_rfl
  | endSnapshot => cases h : w.writing <;> simp [step, h]

/-- A file that a step has changed has a new time, and if it is not a snapshot that
was finished, then a new transaction. -/
theorem mem_files_step {w : Writer} {event : WriterEvent} {file : DataFile}
    (h : file ∈ (w.step event).files) :
    file ∈ w.files ∨ w.clock < file.mtime ∧
      (event = .endSnapshot ∨ ∃ zxid ∈ file.transactions, w.lastZxid < zxid) := by
  cases event with
  | append =>
    obtain ⟨name, transactions, hfiles, -⟩ := w.files_step_append
    rw [hfiles] at h
    rcases List.mem_append.mp h with hclosed | hnew
    · exact .inl (List.mem_append_left _ hclosed)
    · obtain rfl := List.mem_singleton.mp hnew
      exact .inr ⟨Nat.lt_succ_self _, .inr ⟨w.lastZxid + 1,
        List.mem_append_right _ (List.mem_singleton_self _), Nat.lt_succ_self _⟩⟩
  | rollLog =>
    rw [files_step_rollLog] at h
    exact .inl h
  | beginSnapshot => exact .inl h
  | endSnapshot =>
    cases hwriting : w.writing with
    | none =>
      rw [step_endSnapshot_of_none hwriting] at h
      exact .inl h
    | some zxid =>
      rw [files_step_endSnapshot hwriting] at h
      rcases List.mem_append.mp h with h | hcurrent
      · rcases List.mem_append.mp h with hclosed | hnew
        · exact .inl (List.mem_append_left _ hclosed)
        · obtain rfl := List.mem_singleton.mp hnew
          exact .inr ⟨Nat.lt_succ_self _, .inl rfl⟩
      · exact .inl (List.mem_append_right _ hcurrent)

/-- The same of a run. -/
theorem mem_files_foldl {w : Writer} {events : List WriterEvent} {file : DataFile}
    (h : file ∈ (events.foldl step w).files) :
    file ∈ w.files ∨ w.clock < file.mtime ∧
      (.endSnapshot ∈ events ∨ ∃ zxid ∈ file.transactions, w.lastZxid < zxid) := by
  induction events generalizing w with
  | nil => exact .inl h
  | cons event events ih =>
    rcases ih h with hstep | ⟨htime, hnew⟩
    · rcases mem_files_step hstep with hold | ⟨htime, hnew⟩
      · exact .inl hold
      · exact .inr ⟨htime, hnew.imp_left fun heq : event = _ => heq ▸ List.mem_cons_self⟩
    · refine .inr ⟨(w.clock_le_step event).trans_lt htime, ?_⟩
      rcases hnew with hend | ⟨zxid, hzxid, hlt⟩
      · exact .inl (List.mem_cons_of_mem _ hend)
      · exact .inr ⟨zxid, hzxid, (w.lastZxid_le_step event).trans_lt hlt⟩

/-- Without appends and finished snapshots all files stay as they are. -/
theorem files_foldl_of_idle {w : Writer} {events : List WriterEvent} (happend : .append ∉ events)
    (hend : .endSnapshot ∉ events) : (events.foldl step w).files = w.files := by
  induction events generalizing w with
  | nil => rfl
  | cons event events ih =>
    rw [List.mem_cons, not_or] at happend hend
    rw [List.foldl_cons, ih happend.2 hend.2]
    cases event with
    | append => exact absurd rfl happend.1
    | rollLog => exact w.files_step_rollLog
    | beginSnapshot => rfl
    | endSnapshot => exact absurd rfl hend.1

/-- The order in a directory that a server writes: transactions are numbered on, times
go on, and no two logs hold the same transaction. -/
structure Orderly (w : Writer) : Prop where
  zxids : ∀ file ∈ w.files, ∀ zxid ∈ file.transactions, zxid ≤ w.lastZxid
  times : ∀ file ∈ w.files, file.mtime ≤ w.clock
  apart : w.files.Pairwise fun file other => file.transactions.Disjoint other.transactions

theorem orderly_start : start.Orderly where
  zxids _ h := by cases h
  times _ h := by cases h
  apart := .nil

/-- A new transaction is in the current log only, and has a new number. -/
theorem Orderly.append {w : Writer} (h : w.Orderly) : (w.step .append).Orderly := by
  obtain ⟨name, transactions, hfiles, hheld⟩ := w.files_step_append
  obtain ⟨hclosed, -, hcurrent⟩ := List.pairwise_append.mp h.apart
  refine ⟨?_, ?_, ?_⟩ <;> rw [hfiles]
  · intro file hfile zxid hzxid
    rcases List.mem_append.mp hfile with hfile | hfile
    · exact (h.zxids file (List.mem_append_left _ hfile) zxid hzxid).trans (Nat.le_succ _)
    · obtain rfl := List.mem_singleton.mp hfile
      rcases List.mem_append.mp hzxid with hzxid | hzxid
      · obtain ⟨log, hlog, hmem⟩ := hheld zxid hzxid
        exact (h.zxids log (List.mem_append_right _ hlog) zxid hmem).trans (Nat.le_succ _)
      · exact (List.mem_singleton.mp hzxid).le
  · intro file hfile
    rcases List.mem_append.mp hfile with hfile | hfile
    · exact (h.times file (List.mem_append_left _ hfile)).trans (Nat.le_succ _)
    · obtain rfl := List.mem_singleton.mp hfile
      exact le_rfl
  · refine List.pairwise_append.mpr ⟨hclosed, List.pairwise_singleton _ _, ?_⟩
    intro file hfile other hother zxid hzxid hzxid'
    obtain rfl := List.mem_singleton.mp hother
    rcases List.mem_append.mp hzxid' with hold | hnew
    · obtain ⟨log, hlog, hmem⟩ := hheld zxid hold
      exact hcurrent file hfile log hlog hzxid hmem
    · have hle := h.zxids file (List.mem_append_left _ hfile) zxid hzxid
      rw [List.mem_singleton.mp hnew] at hle
      exact absurd hle (Nat.not_succ_le_self _)

/-- A finished snapshot holds no transactions. -/
theorem Orderly.endSnapshot {w : Writer} (h : w.Orderly) : (w.step .endSnapshot).Orderly := by
  cases hwriting : w.writing with
  | none =>
    rw [step_endSnapshot_of_none hwriting]
    exact h
  | some zxid =>
    have hclock : (w.step .endSnapshot).clock = w.clock + 1 := by simp [step, hwriting]
    have hlast : (w.step .endSnapshot).lastZxid = w.lastZxid := by simp [step, hwriting]
    have hsplit : ∀ file ∈ (w.step .endSnapshot).files, file ∈ w.files ∨
        file = .snapshot zxid (w.clock + 1) := by
      intro file hfile
      rw [files_step_endSnapshot hwriting] at hfile
      simp only [files, List.mem_append, List.mem_singleton] at hfile ⊢
      tauto
    refine ⟨fun file hfile => ?_, fun file hfile => ?_, ?_⟩
    · rw [hlast]
      rcases hsplit file hfile with hfile | rfl
      · exact h.zxids file hfile
      · exact fun _ hzxid => nomatch hzxid
    · rw [hclock]
      rcases hsplit file hfile with hfile | rfl
      · exact (h.times file hfile).trans (Nat.le_succ _)
      · exact le_rfl
    · rw [files_step_endSnapshot hwriting, List.append_assoc]
      obtain ⟨hclosed, hcurrent, hapart⟩ := List.pairwise_append.mp h.apart
      refine List.pairwise_append.mpr ⟨hclosed,
        List.pairwise_cons.mpr ⟨fun _ _ => List.disjoint_nil_left _, hcurrent⟩, ?_⟩
      intro file hfile other hother
      rcases List.mem_cons.mp hother with rfl | hother
      · exact List.disjoint_nil_right _
      · exact hapart file hfile other hother

/-- One step keeps the order. -/
theorem Orderly.step {w : Writer} (h : w.Orderly) (event : WriterEvent) :
    (w.step event).Orderly := by
  cases event with
  | append => exact h.append
  | rollLog => exact ⟨w.files_step_rollLog ▸ h.zxids, w.files_step_rollLog ▸ h.times,
      w.files_step_rollLog ▸ h.apart⟩
  | beginSnapshot => exact ⟨h.zxids, h.times, h.apart⟩
  | endSnapshot => exact h.endSnapshot

/-- The order holds after every run. -/
theorem orderly_run (events : List WriterEvent) : (run events).Orderly :=
  events.foldlRecOn step orderly_start fun _ h event _ => h.step event

/-- A transaction is in one file only. -/
theorem Orderly.eq_of_mem {w : Writer} (h : w.Orderly) {file other : DataFile} {zxid : ℕ}
    (hfile : file ∈ w.files) (hother : other ∈ w.files) (hzxid : zxid ∈ file.transactions)
    (hzxid' : zxid ∈ other.transactions) : file = other := by
  have : Std.Symm fun file other : DataFile => file.transactions.Disjoint other.transactions :=
    ⟨fun _ _ hdisjoint => hdisjoint.symm⟩
  by_contra hne
  exact h.apart.forall hfile hother hne hzxid hzxid'

/-! ### The last snapshot -/

/-- The snapshots of the directory. -/
def snapshots (w : Writer) : List DataFile :=
  w.files.filter DataFile.isSnapshot

theorem snapshots_eq (w : Writer) : w.snapshots = w.closed.filter DataFile.isSnapshot := by
  rw [snapshots, files, List.filter_append]
  cases h : w.current <;> simp [currentLog, h, DataFile.isSnapshot]

/-- Only an end can add a snapshot. -/
theorem snapshots_step_of_ne {w : Writer} {event : WriterEvent} (h : event ≠ .endSnapshot) :
    (w.step event).snapshots = w.snapshots := by
  cases event with
  | append => rw [snapshots_eq, snapshots_eq]; rfl
  | rollLog => rw [snapshots, files_step_rollLog]; rfl
  | beginSnapshot => rfl
  | endSnapshot => exact absurd rfl h

theorem snapshots_foldl_of_not_mem {w : Writer} {events : List WriterEvent}
    (h : .endSnapshot ∉ events) : (events.foldl step w).snapshots = w.snapshots := by
  induction events generalizing w with
  | nil => rfl
  | cons event events ih =>
    rw [List.mem_cons, not_or] at h
    rw [List.foldl_cons, ih h.2, snapshots_step_of_ne fun heq => h.1 heq.symm]

/-- No snapshot is added by events without a snapshot that is begun and then finished. -/
theorem snapshots_foldl {w : Writer} {events : List WriterEvent} (hw : w.writing = none)
    (h : ¬ List.Sublist [.beginSnapshot, .endSnapshot] events) :
    (events.foldl step w).snapshots = w.snapshots := by
  induction events generalizing w with
  | nil => rfl
  | cons event events ih =>
    have hrest : ¬ List.Sublist [.beginSnapshot, .endSnapshot] events :=
      fun hsub => h (hsub.cons event)
    rw [List.foldl_cons]
    cases event with
    | append => exact Eq.trans (ih hw hrest) (snapshots_step_of_ne nofun)
    | rollLog => exact Eq.trans (ih hw hrest) (snapshots_step_of_ne nofun)
    | beginSnapshot =>
      have hend : .endSnapshot ∉ events := fun hmem =>
        h ((List.singleton_sublist.mpr hmem).cons_cons .beginSnapshot)
      exact (snapshots_foldl_of_not_mem hend).trans (snapshots_step_of_ne nofun)
    | endSnapshot => rw [step_endSnapshot_of_none hw, ih hw hrest]

/-- Where a snapshot was begun and finished there is a last one. -/
theorem exists_lastSnapshot {events : List WriterEvent}
    (h : List.Sublist [.beginSnapshot, .endSnapshot] events) :
    ∃ before during after, LastSnapshot events before during after := by
  induction events with
  | nil => cases h
  | cons event events ih =>
    by_cases hrest : List.Sublist [.beginSnapshot, .endSnapshot] events
    · obtain ⟨before, during, after, hlast⟩ := ih hrest
      exact ⟨event :: before, during, after, by rw [hlast.split]; rfl, hlast.unbegun,
        hlast.unfinished, hlast.last⟩
    · -- the first event begins it, and the first end after that finishes it
      cases h with
      | cons _ hsub => exact absurd hsub hrest
      | cons_cons _ hsub =>
        obtain ⟨during, after, rfl, hend⟩ :=
          List.eq_append_cons_of_mem (List.singleton_sublist.mp hsub)
        refine ⟨[], during, after, rfl, fun hbegin => hrest ?_, hend, fun hsub => hrest ?_⟩
        · exact (List.singleton_sublist.mpr hbegin).append
            (List.singleton_sublist.mpr List.mem_cons_self)
        · exact hsub.trans ((List.sublist_cons_self _ _).trans (List.sublist_append_right _ _))

/-- A snapshot that is being written stays so until its end or another begin. -/
theorem writing_foldl {w : Writer} {events : List WriterEvent} (hbegin : .beginSnapshot ∉ events)
    (hend : .endSnapshot ∉ events) : (events.foldl step w).writing = w.writing := by
  induction events generalizing w with
  | nil => rfl
  | cons event events ih =>
    rw [List.mem_cons, not_or] at hbegin hend
    rw [List.foldl_cons, ih hbegin.2 hend.2]
    cases event with
    | append => rfl
    | rollLog => rfl
    | beginSnapshot => exact absurd rfl hbegin.1
    | endSnapshot => exact absurd rfl hend.1

namespace LastSnapshot

variable {events before during after : List WriterEvent}

theorem run_eq (h : LastSnapshot events before during after) :
    run events =
      after.foldl step ((run (before ++ .beginSnapshot :: during)).step .endSnapshot) := by
  rw [h.split, run_append, List.foldl_cons]

/-- It has the transactions up to the moment it was begun. -/
theorem writing (h : LastSnapshot events before during after) :
    (run (before ++ .beginSnapshot :: during)).writing = some (run before).lastZxid := by
  rw [run_append, List.foldl_cons, writing_foldl h.unbegun h.unfinished]
  rfl

/-- It is the latest one of the directory. -/
theorem latest (h : LastSnapshot events before during after) :
    Latest DataFile.mtime (run events).snapshots
      (.snapshot (run before).lastZxid ((run (before ++ .beginSnapshot :: during)).clock + 1)) := by
  have hnone : ((run (before ++ .beginSnapshot :: during)).step .endSnapshot).writing = none := by
    simp [step, h.writing]
  rw [h.run_eq, snapshots_foldl hnone h.last]
  refine ⟨(run (before ++ .beginSnapshot :: during)).snapshots, [], ?_, ?_, by simp⟩
  · rw [snapshots_eq, snapshots_eq]
    simp [step, h.writing, DataFile.isSnapshot]
  · intro file hfile
    exact Nat.lt_succ_of_le ((orderly_run _).times file (List.mem_of_mem_filter hfile))

/-- A file that was changed while the snapshot was being written is one with a
transaction that the snapshot need not have. -/
theorem not_mem_iff (h : LastSnapshot events before during after) {log : DataFile}
    (hlog : log ∈ (run (before ++ .beginSnapshot :: during)).files) :
    log ∉ (run before).files ↔ ∃ zxid ∈ log.transactions, (run before).lastZxid < zxid := by
  constructor
  · intro hchanged
    rw [run_append, List.foldl_cons] at hlog
    rcases mem_files_foldl hlog with hold | ⟨-, hend | hnew⟩
    · exact absurd hold hchanged
    · exact absurd hend h.unfinished
    · exact hnew
  · rintro ⟨zxid, hzxid, hlt⟩ hold
    exact absurd ((orderly_run before).zxids log hold zxid hzxid) (not_le.mpr hlt)

end LastSnapshot

/-- In a directory that a server has written, the transactions above the latest snapshot are
outlived by their logs exactly if no log was given up while that snapshot was being written. -/
theorem outlived_run_iff (events : List WriterEvent) :
    Outlived (run events).files ↔ Resumed events := by
  constructor
  · intro houtlived before during after hlast log hlog hchanged hstays
    obtain ⟨zxid, hzxid, hlt⟩ := (hlast.not_mem_iff hlog).mp hchanged
    obtain ⟨other, hother, htime, hheld⟩ :=
      houtlived _ _ hlast.latest log hstays zxid hzxid hlt
    -- the log is the only one with this transaction, and it is older than the snapshot
    obtain rfl := (orderly_run events).eq_of_mem hstays hother hzxid hheld
    have hle := (orderly_run _).times log hlog
    omega
  · intro hresumed z mtime hlatest log hlog zxid hzxid hlt
    have hsub : List.Sublist [.beginSnapshot, .endSnapshot] events := by
      by_contra hsub
      have hnone : (run events).snapshots = [] := snapshots_foldl rfl hsub
      have hmem : DataFile.snapshot z mtime ∈ (run events).snapshots := hlatest.mem
      rw [hnone] at hmem
      cases hmem
    obtain ⟨before, during, after, hlast⟩ := exists_lastSnapshot hsub
    obtain ⟨rfl, rfl⟩ := DataFile.snapshot.inj (hlatest.unique hlast.latest)
    refine ⟨log, hlog, ?_, hzxid⟩
    by_contra htime
    have hlog' := hlog
    rw [hlast.run_eq] at hlog'
    rcases mem_files_foldl hlog' with hold | ⟨hnew, -⟩
    · -- a log with nothing new since the end of the snapshot is as it was then
      rw [files_step_endSnapshot hlast.writing] at hold
      have hbefore : log ∈ (run (before ++ .beginSnapshot :: during)).files := by
        simp only [files, List.mem_append, List.mem_singleton] at hold ⊢
        rcases hold with (hclosed | rfl) | hcurrent
        · exact .inl hclosed
        · cases hzxid
        · exact .inr hcurrent
      exact hresumed before during after hlast log hbefore
        ((hlast.not_mem_iff hbefore).mpr ⟨zxid, hzxid, hlt⟩) hlog
    · have hclock : ((run (before ++ .beginSnapshot :: during)).step .endSnapshot).clock =
          (run (before ++ .beginSnapshot :: during)).clock + 1 := by
        simp [step, hlast.writing]
      omega

/-- A server that appends nothing while it writes its last snapshot leaves a directory
from which the backup loses nothing. -/
theorem outlived_run {events : List WriterEvent}
    (h : ∀ before during after, LastSnapshot events before during after → .append ∉ during) :
    Outlived (run events).files := by
  refine (outlived_run_iff events).mpr fun before during after hlast log hlog hchanged => ?_
  rw [run_append, List.foldl_cons,
    files_foldl_of_idle (h before during after hlast) hlast.unfinished] at hlog
  exact absurd hlog hchanged

end Writer

/-- **When the choice by modification time is right.** It keeps every committed transaction exactly
if those above the latest snapshot are in logs that were appended to after it was finished; and of a
server that means: every log it appended to while it wrote its last snapshot it appended to again
after that. -/
theorem DataDirectory.keepsCommitted_iff (dir : DataDirectory) :
    (dir.KeepsCommitted ↔ Outlived dir.files) ∧
      ∀ events, dir.files = (Writer.run events).files →
        (dir.KeepsCommitted ↔ Writer.Resumed events) := by
  refine ⟨dir.keepsCommitted_iff_outlived, fun events hfiles => ?_⟩
  rw [dir.keepsCommitted_iff_outlived, hfiles]
  exact Writer.outlived_run_iff events

/-- One transaction is appended while the snapshot is written, none after. -/
def busyServer : List WriterEvent :=
  [.append, .beginSnapshot, .append, .endSnapshot]

def busyDirectory : DataDirectory where
  files := (Writer.run busyServer).files
  nodup := by decide

/-- The log is older than the snapshot, and the second transaction is lost. -/
theorem not_keepsCommitted_busyDirectory : ¬ busyDirectory.KeepsCommitted := by
  intro h
  have hchosen : getSnapshotAndTransactionLogs busyDirectory.directory =
    some ("snapshot.1", []) := by
    decide +kernel
  obtain ⟨other, -, hkept, -⟩ := h "snapshot.1" [] hchosen 1 3 (by decide) (by decide)
    (.log 1 2 [1, 2]) (by decide) 2 (by decide) (by decide)
  cases hkept

end QubershipZookeeper
