import QubershipZookeeper.ParseTransactionLogs

/-!
# Filtering transaction logs (`process_zookeeper_logs.py`)

`filter_and_store_transaction_log` copies a log record by record, leaving out
those whose `transaction_bytes` the parser has blanked. The loop ends in one of
three ways: at the terminating zero length (`EOS`), at a record of a type the
parser does not list (`UnknownType`) — both write the end marker and return —
or with any other exception, which escapes.

A header with a wrong magic number is reported and otherwise ignored, so the
check leaves no trace in the model.
-/

namespace QubershipZookeeper

/-- The `while True` loop. Every round consumes at least twelve bytes or raises,
so the bound is never used up: see `filterLoop_bound`. -/
def filterLoop : ℕ → FileProc Unit
  | 0 => Proc.raise .diverged
  | bound + 1 => do
    let transaction ← readTxn
    -- the debug message is formatted before it is known whether it is printed
    let _ ← Proc.lift transaction.str
    writeOutput transaction.transactionBytes
    filterLoop bound

/-- The two `except` clauses around the loop. -/
def endOfLog : PyError → Option (FileProc Unit)
  | .eos => some (writeOutput END_OF_STREAM)
  | .unknownType _ => some (writeOutput END_OF_STREAM)
  | _ => none

/-- `filter_and_store_transaction_log`. -/
def filterAndStoreTransactionLog : FileProc Unit := do
  let logHeader ← readLogFileHeader
  -- a header that is not valid is only reported: the bytes are copied all the same
  writeOutput logHeader.dataBytes
  let bound ← Proc.observe fun files => files.input.length + 1
  (filterLoop bound).recover endOfLog

/-- The file that a run on the given log leaves behind, if the run returns. -/
def storedLog (log : Bytes) : Option Bytes :=
  match filterAndStoreTransactionLog ⟨log, []⟩ with
  | .ok _ files => some files.output
  | .raised _ _ => none

/-! ## The loop ends -/

/-- A stream read never leaves more input than it found. -/
theorem readStream_input {count : ℤ} {files files' : LogFiles} {data : Bytes}
    (h : readStream count files = .ok data files') : files'.input.length ≤ files.input.length := by
  unfold readStream at h
  split at h
  · cases h
    simp
  · split at h
    · cases h
      simp
    · cases h

/-- A stream read of `count` bytes that got them all has consumed them. -/
theorem readStream_full {count : ℕ} {files files' : LogFiles} {data : Bytes}
    (h : readStream count files = .ok data files') (hlen : data.length = count) :
    files'.input.length + count = files.input.length := by
  unfold readStream at h
  rw [if_pos (by omega)] at h
  cases h
  rw [Int.toNat_natCast, List.length_take] at hlen
  rw [Int.toNat_natCast, List.length_drop]
  omega

/-- What was unpacked had the length of its format. -/
theorem unpack_length {fs : List Format} {bs : Bytes} {fields : List ℤ}
    (h : Format.unpack fs bs = .ok fields) : bs.length = Format.sizes fs := by
  unfold Format.unpack at h
  split at h
  · assumption
  · cases h

theorem runReader_ok_inv {α : Type} {m : Reader α} {record : TransactionData}
    {files files' : LogFiles} {a : α} (h : runReader m record files = .ok a files') :
    files' = files := by
  unfold runReader at h
  split at h
  · cases h
    rfl
  · cases h

/-- The head of a record takes twelve bytes. -/
theorem readTxnHead_consumes {files files' : LogFiles} {head : TxnHead}
    (h : readTxnHead files = .ok head files') :
    files'.input.length + 12 = files.input.length := by
  obtain ⟨dataBytes, f₁, h₁, h'⟩ := Proc.bind_ok_inv h
  obtain ⟨fields, f₂, h₂, h''⟩ := Proc.bind_ok_inv h'
  obtain ⟨hunpack, rfl⟩ := Proc.lift_ok_inv h₂
  have hframe := readStream_full h₁ (unpack_length hunpack)
  split at h''
  · cases h''
  · cases h''
    exact hframe

/-- The rest of it never gives any back. -/
theorem readTxnRest_input {head : TxnHead} {files files' : LogFiles} {txn : Txn}
    (h : readTxnRest head files = .ok txn files') :
    files'.input.length ≤ files.input.length := by
  obtain ⟨data, f₁, h₁, h'⟩ := Proc.bind_ok_inv h
  obtain ⟨parsed, f₂, h₂, h''⟩ := Proc.bind_ok_inv h'
  obtain ⟨eor, f₃, h₃, h'''⟩ := Proc.bind_ok_inv h''
  obtain ⟨-, rfl⟩ := Proc.pure_ok_inv h'''
  obtain rfl := runReader_ok_inv h₂
  exact le_trans (readStream_input h₃) (readStream_input h₁)

/-- A record that was read has consumed its twelve-byte frame at least. -/
theorem readTxn_consumes {files files' : LogFiles} {txn : Txn}
    (h : readTxn files = .ok txn files') : files'.input.length + 12 ≤ files.input.length := by
  obtain ⟨head, f₁, h₁, h₂⟩ := Proc.bind_ok_inv h
  have hhead := readTxnHead_consumes h₁
  have hrest := readTxnRest_input h₂
  omega

/-- **The loop ends**: a bound above the length of the input is never used up. -/
theorem filterLoop_bound {bound : ℕ} {files : LogFiles} (hb : files.input.length < bound) :
    ∀ files', filterLoop bound files ≠ .raised .diverged files' := by
  induction bound generalizing files with
  | zero => omega
  | succ bound ih =>
    intro files' h
    rw [filterLoop, Proc.bind_apply] at h
    rcases htxn : readTxn files with ⟨txn, f₁⟩ | ⟨e, f₁⟩
    · rw [htxn] at h
      have hcons := readTxn_consumes htxn
      rcases hstr : txn.str with e | text
      · -- formatting raises nothing but a `KeyError`
        rw [str_raises hstr] at hstr
        simp only [hstr, Proc.lift_error, Proc.raise_bind, Proc.raise_apply] at h
        cases h
      · simp only [hstr, Proc.lift_ok, Proc.bind_apply, writeOutput, Proc.update_apply] at h
        exact ih (by simp only; omega) _ h
    · rw [htxn] at h
      cases h
      exact (readTxn_raises _ _ _ htxn).1 rfl

end QubershipZookeeper
