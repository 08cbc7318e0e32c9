import Mathlib

/-!
# Metrics of the stored backups (`backup_metric.py`)

The monitoring pod asks the backup daemon for the list of its backups and for
one record per backup, counts the successful ones and remembers the latest
time. Every answer goes through `_get_request_with_path`, which turns any
failure of the request into an empty string; the caller then subscripts that
string as if it were the record.
-/

namespace QubershipZookeeper

namespace BackupMetric

/-- The fields of a `listbackups/<id>` record that the metric reads. -/
structure BackupInfo : Type where
  /-- whether the value of `failed` is a true one -/
  failed : Bool
  /-- the time of the backup, when the record has one -/
  ts : Option ℤ
  deriving DecidableEq, Repr

/-- The part of the daemon's `storage` report that the metric reads: the `ts`
of `lastSuccessful`, when there is such an object and it has one. -/
structure Storage : Type where
  lastSuccessful : Option (Option ℤ)
  deriving DecidableEq, Repr

/-- What `_get_request_with_path` returns. -/
inductive Answer (α : Type) : Type where
  /-- the decoded body of the response -/
  | json (body : α)
  /-- `''`, after any exception -/
  | emptyString
  deriving DecidableEq, Repr

/-- The exceptions the metric can raise. -/
inductive Raised : Type where
  /-- `TypeError`: string indices must be integers -/
  | typeError
  deriving DecidableEq, Repr

/-- The backup daemon as one run of the script meets it: its answers to
`listbackups` and to `listbackups/<id>`; `none` where the request fails. -/
structure Daemon : Type where
  listbackups : Option (List String)
  backup : String → Option BackupInfo

/-- `_get_request_with_path` -/
def getRequestWithPath {α : Type} : Option α → Answer α
  | some body => .json body
  | none => .emptyString

/-- `for backup in backups_list`: a string is iterated by its characters, and
the empty one has none. -/
def Answer.items : Answer (List String) → List String
  | .json ids => ids
  | .emptyString => []

/-- `backup_info_json['failed']`, together with the record it was read from -/
def Answer.readFailed : Answer BackupInfo → Except Raised (Bool × BackupInfo)
  | .json info => .ok (info.failed, info)
  | .emptyString => .error .typeError

/-- The two running values of the loop. -/
structure Tally : Type where
  successfulBackupsCount : ℕ
  lastSuccessfulBackupTime : ℤ
  deriving DecidableEq, Repr

/-- One round of the loop over the backups. -/
def countBackup (d : Daemon) (tally : Tally) (backup : String) : Except Raised Tally := do
  let (failed, info) ← (getRequestWithPath (d.backup backup)).readFailed
  if !failed then
    let backupTime := info.ts.getD (-1)
    let last := tally.lastSuccessfulBackupTime
    return ⟨tally.successfulBackupsCount + 1, if backupTime > last then backupTime else last⟩
  else
    return tally

/-- `storage.get('lastSuccessful', {}).get('ts', -1)` -/
def Storage.lastSuccessfulTs (storage : Storage) : ℤ :=
  (storage.lastSuccessful.getD none).getD (-1)

/-- `_get_successful_backups_info`: the count and the time it returns. -/
def getSuccessfulBackupsInfo (d : Daemon) (storage : Storage) : Except Raised (ℕ × ℤ) := do
  let backupsList := getRequestWithPath d.listbackups
  let tally ← backupsList.items.foldlM (countBackup d) ⟨0, -1⟩
  let last := if tally.lastSuccessfulBackupTime = -1
    then storage.lastSuccessfulTs else tally.lastSuccessfulBackupTime
  return (tally.successfulBackupsCount, last)

/-! ## What the metric is to say -/

section Summary

variable (d : Daemon) (ids : List String)

/-- The records of the listed backups that were obtained and are not failed. -/
def successful : List BackupInfo :=
  (ids.filterMap d.backup).filter fun info => !info.failed

/-- The times of the successful backups. -/
def times : List ℤ :=
  (successful d ids).filterMap BackupInfo.ts

/-- The intended summary: how many backups succeeded, and the latest of their
times, or else what the storage report says. -/
def summary (storage : Storage) : ℕ × ℤ :=
  ((successful d ids).length, (times d ids).max?.getD storage.lastSuccessfulTs)

end Summary

section Order

variable {d : Daemon} {ids ids' : List String}

/-- The order in which the backups are listed does not matter. -/
theorem successful_perm (h : ids'.Perm ids) : (successful d ids').Perm (successful d ids) :=
  (h.filterMap _).filter _

theorem max?_perm {xs ys : List ℤ} (h : xs.Perm ys) : xs.max? = ys.max? := by
  rcases hy : ys.max? with - | m
  · rw [List.max?_eq_none_iff] at hy ⊢
    subst hy
    exact h.eq_nil
  · rw [List.max?_eq_some_iff] at hy ⊢
    obtain ⟨hm, hle⟩ := hy
    exact ⟨h.mem_iff.mpr hm, fun b hb => hle b (h.mem_iff.mp hb)⟩

/-- The summary does not look at the order of the list. -/
theorem summary_perm (storage : Storage) (h : ids'.Perm ids) :
    summary d ids' storage = summary d ids storage := by
  have hs : (successful d ids').Perm (successful d ids) := successful_perm h
  have ht : (times d ids').max? = (times d ids).max? := max?_perm (hs.filterMap _)
  simp only [summary, hs.length_eq, ht]

end Order

/-! ## What the loop computes -/

section Loop

variable {d : Daemon}

@[simp]
theorem successful_cons {i : String} {ids : List String} {info : BackupInfo}
    (h : d.backup i = some info) :
    successful d (i :: ids)
      = if info.failed then successful d ids else info :: successful d ids := by
  simp only [successful, List.filterMap_cons, h, List.filter_cons, Bool.not_eq_true']
  cases info.failed <;> simp

/-- One round over an obtained record: a failed one leaves the tally, a
successful one is counted and its time joins the maximum. -/
theorem countBackup_of_answered {i : String} {info : BackupInfo} (h : d.backup i = some info)
    (tally : Tally) :
    countBackup d tally i = .ok (if info.failed then tally else
      ⟨tally.successfulBackupsCount + 1,
        max tally.lastSuccessfulBackupTime (info.ts.getD (-1))⟩) := by
  have hmax (a b : ℤ) : (if b > a then b else a) = max a b := by omega
  simp only [countBackup, getRequestWithPath, h, Answer.readFailed, hmax]
  cases info.failed <;> rfl

/-- A backup without an answer ends the count with an error. -/
theorem countBackup_of_unanswered {i : String} (h : d.backup i = none) (tally : Tally) :
    countBackup d tally i = .error .typeError := by
  simp only [countBackup, getRequestWithPath, h, Answer.readFailed]
  rfl

/-- A time that is missing counts as `-1`, which a running maximum from `-1`
on never notices. -/
theorem max_getD_eq_foldl {last : ℤ} (hlast : -1 ≤ last) (info : BackupInfo)
    (infos : List BackupInfo) :
    (infos.filterMap BackupInfo.ts).foldl max (max last (info.ts.getD (-1)))
      = ((info :: infos).filterMap BackupInfo.ts).foldl max last := by
  rcases hts : info.ts with - | t
  · simp [hts, max_eq_left hlast]
  · simp [hts]

/-- The whole loop over answered requests. -/
theorem foldlM_countBackup {ids : List String} (h : ∀ i ∈ ids, (d.backup i).isSome)
    {tally : Tally} (hlast : -1 ≤ tally.lastSuccessfulBackupTime) :
    ids.foldlM (countBackup d) tally
      = .ok ⟨tally.successfulBackupsCount + (successful d ids).length,
          (times d ids).foldl max tally.lastSuccessfulBackupTime⟩ := by
  induction ids generalizing tally with
  | nil => rfl
  | cons i ids ih =>
    obtain ⟨info, hinfo⟩ := Option.isSome_iff_exists.mp (h i List.mem_cons_self)
    have hrest : ∀ j ∈ ids, (d.backup j).isSome := fun j hj => h j (List.mem_cons_of_mem i hj)
    rw [List.foldlM_cons, countBackup_of_answered hinfo]
    cases hfailed : info.failed with
    | true =>
      have := ih hrest hlast
      rw [times, successful_cons hinfo, hfailed]
      exact this
    | false =>
      have hmax : -1 ≤ (Tally.mk (tally.successfulBackupsCount + 1)
          (max tally.lastSuccessfulBackupTime (info.ts.getD (-1)))).lastSuccessfulBackupTime :=
        le_max_of_le_left hlast
      have hround := ih hrest hmax
      rw [times, max_getD_eq_foldl hlast] at hround
      rw [times, successful_cons hinfo, hfailed]
      refine hround.trans ?_
      simp only [Bool.false_eq_true, if_false, List.length_cons]
      congr 2
      omega

/-- A request without an answer ends the script, wherever it stands. -/
theorem foldlM_countBackup_of_unanswered {ids : List String} (h : ∃ i ∈ ids, d.backup i = none)
    (tally : Tally) : ids.foldlM (countBackup d) tally = .error .typeError := by
  induction ids generalizing tally with
  | nil => simp at h
  | cons i ids ih =>
    rw [List.foldlM_cons]
    rcases hi : d.backup i with - | info
    · rw [countBackup_of_unanswered hi]
      rfl
    · rw [countBackup_of_answered hi]
      apply ih
      obtain ⟨j, hj, hnone⟩ := h
      rcases List.mem_cons.mp hj with rfl | hj
      · rw [hi] at hnone
        cases hnone
      · exact ⟨j, hj, hnone⟩

end Loop

/-! ## When the script reports the summary -/

/-- For every order in which the daemon may list the backups, the script
returns, and returns the intended summary. -/
def Reports (d : Daemon) (ids : List String) (storage : Storage) : Prop :=
  ∀ ids', ids'.Perm ids →
    getSuccessfulBackupsInfo { d with listbackups := some ids' } storage
      = .ok (summary d ids storage)

/-- Every request for a record is answered. -/
def AllAnswered (d : Daemon) (ids : List String) : Prop :=
  ∀ i ∈ ids, (d.backup i).isSome

/-- The initial value `-1` of the maximum cannot be mistaken for "no time": there
is none, one of them is not negative, or the latest is what the storage report
says anyway. -/
def SentinelHarmless (d : Daemon) (ids : List String) (storage : Storage) : Prop :=
  times d ids = [] ∨ (∃ t ∈ times d ids, 0 ≤ t)
    ∨ (times d ids).max? = some storage.lastSuccessfulTs

section Report

variable {d : Daemon} {ids : List String} {storage : Storage}

/-- The time returned once all records are in. -/
def reportedTime (storage : Storage) (ts : List ℤ) : ℤ :=
  if ts.foldl max (-1) = -1 then storage.lastSuccessfulTs else ts.foldl max (-1)

/-- If all backups are answered for, the metric counts them. -/
theorem getSuccessfulBackupsInfo_of_answered (h : AllAnswered d ids) :
    getSuccessfulBackupsInfo { d with listbackups := some ids } storage
      = .ok ((successful d ids).length, reportedTime storage (times d ids)) := by
  have hloop : ids.foldlM (countBackup { d with listbackups := some ids }) ⟨0, -1⟩
      = .ok ⟨0 + (successful d ids).length, (times d ids).foldl max (-1)⟩ :=
    foldlM_countBackup h le_rfl
  rw [Nat.zero_add] at hloop
  simp only [getSuccessfulBackupsInfo, getRequestWithPath, Answer.items, hloop]
  rfl

/-- If one is not, the metric fails with a type error. -/
theorem getSuccessfulBackupsInfo_of_unanswered (h : ¬ AllAnswered d ids) :
    getSuccessfulBackupsInfo { d with listbackups := some ids } storage
      = .error .typeError := by
  simp only [AllAnswered, not_forall, Option.not_isSome_iff_eq_none, exists_prop] at h
  have hloop : ids.foldlM (countBackup { d with listbackups := some ids }) ⟨0, -1⟩
      = .error .typeError :=
    foldlM_countBackup_of_unanswered h _
  simp only [getSuccessfulBackupsInfo, getRequestWithPath, Answer.items, hloop]
  rfl

/-- The returned time is the latest one exactly when the sentinel does no harm. -/
theorem reportedTime_eq_iff :
    reportedTime storage (times d ids) = (times d ids).max?.getD storage.lastSuccessfulTs
      ↔ SentinelHarmless d ids storage := by
  rw [reportedTime, SentinelHarmless, List.foldl_max]
  rcases hmax : (times d ids).max? with - | m
  · have : times d ids = [] := List.max?_eq_none_iff.mp hmax
    simp [this]
  · obtain ⟨hm, hle⟩ := List.max?_eq_some_iff.mp hmax
    have hne : times d ids ≠ [] := List.ne_nil_of_mem hm
    have hnonneg : (∃ t ∈ times d ids, 0 ≤ t) ↔ 0 ≤ m :=
      ⟨fun ⟨t, ht, h0⟩ => h0.trans (hle t ht), fun h0 => ⟨m, hm, h0⟩⟩
    simp only [hne, hnonneg, Option.getD_some, Option.some.injEq, false_or]
    by_cases h0 : 0 ≤ m
    · simp only [h0, true_or, iff_true]
      split <;> omega
    · simp only [h0, false_or]
      split <;> omega

/-- **The metric is right exactly when every record was obtained and the
sentinel does no harm.** One unanswered request is enough to end the script,
whatever the other answers. -/
theorem reports_iff (d : Daemon) (ids : List String) (storage : Storage) :
    Reports d ids storage ↔ AllAnswered d ids ∧ SentinelHarmless d ids storage := by
  constructor
  · intro h
    have hself := h ids (List.Perm.refl ids)
    by_cases hall : AllAnswered d ids
    · rw [getSuccessfulBackupsInfo_of_answered hall] at hself
      have htime := congrArg Prod.snd (Except.ok.inj hself)
      exact ⟨hall, reportedTime_eq_iff.mp htime⟩
    · rw [getSuccessfulBackupsInfo_of_unanswered hall] at hself
      cases hself
  · rintro ⟨hall, hharmless⟩ ids' hperm
    have hall' : AllAnswered d ids' := fun i hi => hall i (hperm.mem_iff.mp hi)
    have htimes : (times d ids').Perm (times d ids) := (successful_perm hperm).filterMap _
    rw [getSuccessfulBackupsInfo_of_answered hall', ← summary_perm storage hperm, summary]
    congr 2
    apply reportedTime_eq_iff.mpr
    rcases hharmless with hnil | ⟨t, ht, h0⟩ | hmax
    · exact .inl (htimes.trans (.of_eq hnil)).eq_nil
    · exact .inr (.inl ⟨t, htimes.mem_iff.mpr ht, h0⟩)
    · exact .inr (.inr ((max?_perm htimes).trans hmax))

end Report

/-- A daemon that has two backups and fails to deliver the record of one. -/
def flakyDaemon : Daemon where
  listbackups := some ["20240101T0000", "20240102T0000"]
  backup
    | "20240101T0000" => some ⟨false, some 1704067200000⟩
    | _ => none

/-- Instead of one successful backup, the script reports a `TypeError`. -/
theorem not_reports_flakyDaemon :
    getSuccessfulBackupsInfo flakyDaemon ⟨none⟩ = .error .typeError ∧
    ¬ Reports flakyDaemon ["20240101T0000", "20240102T0000"] ⟨none⟩ := by
  have hrun : getSuccessfulBackupsInfo flakyDaemon ⟨none⟩ = .error .typeError := by decide
  refine ⟨hrun, fun h => ?_⟩
  have := (h _ (List.Perm.refl _)).symm.trans hrun
  cases this

end BackupMetric

end QubershipZookeeper
