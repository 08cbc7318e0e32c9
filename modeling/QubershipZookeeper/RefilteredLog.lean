import QubershipZookeeper.FilterLoop

/-!
# Filtering a log twice

The other results about the filter start from logs that ZooKeeper wrote. This one is about
**arbitrary** bytes: whenever `filter_and_store_transaction_log` returns, its output is a log
again, made of whole records of the input, and filtering it once more changes nothing.

A run that returns has never read a record short: a short read leaves nothing for the
frame of the next record, and that raises `struct.error`, which nothing catches
(`filterLoop_nil`).
-/

namespace QubershipZookeeper

open Codec

/-! ## Raw records -/

/-- A record as bytes: a frame that gives the length of the transaction, the transaction,
whatever is in it, and the byte that ends the record. -/
structure RawRecord : Type where
  /-- checksum and length -/
  head : Bytes
  /-- the transaction -/
  data : Bytes
  /-- end of record -/
  eor : UInt8
  /-- the frame has its fixed size -/
  head_length : head.length = 12
  /-- the frame gives the length of the transaction -/
  data_length : bytesToInt (head.drop 8) = data.length
  /-- the length is not the zero that ends a log -/
  data_ne_nil : data ≠ []

namespace RawRecord

variable (r : RawRecord)

/-- The bytes of a record. -/
def bytes : Bytes := r.head ++ (r.data ++ [r.eor])

/-- What `Txn` makes of a record whose transaction has been read. -/
def txn (parsed : TxnHeader × Option TxnEntry) : Txn where
  crc := bytesToInt (r.head.take 8)
  txnLen := r.data.length
  header := parsed.1
  entry := parsed.2
  transactionBytes := if isDropped parsed.1.type parsed.2 then [] else r.bytes

/-- The head of a raw record says how long its data is. -/
theorem unpack_head :
    Format.unpack [.long, .int] r.head =
      .ok [bytesToInt (r.head.take 8), (r.data.length : ℤ)] := by
  have hlast : (r.head.drop 8).take 4 = r.head.drop 8 :=
    List.take_of_length_le (by rw [List.length_drop, r.head_length])
  rw [Format.unpack, if_pos (by rw [r.head_length]; rfl)]
  simp only [Format.decodeAll, Format.decode, Format.size, hlast, r.data_length]

/-- Reading a record, whatever follows it. -/
theorem readTxn_eq (rest out : Bytes) :
    readTxn ⟨r.bytes ++ rest, out⟩ =
      match readTransaction (.new r.data) with
      | .ok parsed _ => .ok (r.txn parsed) ⟨rest, out⟩
      | .raised e _ => .raised e ⟨[r.eor] ++ rest, out⟩ := by
  have hpos : (r.data.length : ℤ) ≠ 0 := by
    simpa using r.data_ne_nil
  have hhead : readTxnHead ⟨r.head ++ (r.data ++ ([r.eor] ++ rest)), out⟩ =
      .ok ⟨r.head, bytesToInt (r.head.take 8), r.data.length⟩
        ⟨r.data ++ ([r.eor] ++ rest), out⟩ := by
    rw [readTxnHead, Proc.bind_ok (readStream_append (by rw [r.head_length]; rfl)), r.unpack_head,
      Proc.lift_ok, Proc.pure_bind]
    exact congrFun (if_neg hpos) _
  rw [bytes, List.append_assoc, List.append_assoc, readTxn, Proc.bind_ok hhead, readTxnRest,
    Proc.bind_ok (readStream_append rfl)]
  rcases hparsed : readTransaction (.new r.data) with ⟨parsed, record⟩ | ⟨e, record⟩
  · have hrun : ∀ files, runReader readTransaction (.new r.data) files = .ok parsed files := by
      intro files
      rw [runReader, hparsed]
    rw [Proc.bind_ok (hrun _), Proc.bind_ok (readStream_one ..)]
    simp only [RawRecord.txn, bytes, List.append_assoc]
    rfl
  · rw [Proc.bind_raised (by rw [runReader, hparsed])]

/-- The record is read as a whole, formatted, and copied. -/
def Copied : Prop :=
  ∃ txn : Txn, (∀ rest out, readTxn ⟨r.bytes ++ rest, out⟩ = .ok txn ⟨rest, out⟩) ∧
    (∃ text, txn.str = .ok text) ∧ txn.transactionBytes = r.bytes

variable {r} in
/-- One round of the loop on a record that is copied. -/
theorem Copied.filterLoop (h : r.Copied) (bound : ℕ) (rest out : Bytes) :
    filterLoop (bound + 1) ⟨r.bytes ++ rest, out⟩ = filterLoop bound ⟨rest, out ++ r.bytes⟩ := by
  obtain ⟨txn, hread, ⟨text, hstr⟩, hbytes⟩ := h
  rw [QubershipZookeeper.filterLoop, Proc.bind_ok (hread rest out), hstr, Proc.lift_ok,
    Proc.pure_bind, writeOutput, Proc.bind_ok (Proc.update_apply ..), hbytes]

theorem bytes_ne_nil : r.bytes ≠ [] := by
  simp [bytes]

end RawRecord

/-! ## Every run that returns -/

/-- At the end of the file the loop fails. -/
theorem filterLoop_nil {bound : ℕ} {out : Bytes} {e : PyError} {files : LogFiles}
    (h : filterLoop bound ⟨[], out⟩ = .raised e files) : endOfLog e = none := by
  cases bound with
  | zero =>
    cases h
    rfl
  | succ bound =>
    have hshort : ([] : Bytes).length < 12 := by decide
    obtain ⟨files', hcut⟩ := filterLoop_cut hshort
    rw [hcut] at h
    cases h
    rfl

/-- Nothing has been written. -/
def SameOutput (files files' : LogFiles) : Prop := files'.output = files.output

instance : Std.Refl SameOutput := ⟨fun _ => rfl⟩

instance : IsTrans LogFiles SameOutput := ⟨fun _ _ _ h h' => h'.trans h⟩

/-- Reading writes nothing. -/
theorem readStream_within (count : ℤ) : Proc.Within SameOutput (readStream count) := by
  intro files
  unfold readStream
  split
  · rfl
  · split <;> rfl

theorem runReader_within {α : Type} (m : Reader α) (record : TransactionData) :
    Proc.Within SameOutput (runReader m record) := by
  intro files
  unfold runReader
  rcases m record with ⟨a, r⟩ | ⟨e, r⟩ <;> rfl

/-- Reading a record writes nothing. -/
theorem readTxn_within : Proc.Within SameOutput readTxn := by
  refine Proc.Within.bind ?_ fun head => ?_
  · refine (readStream_within _).bind fun dataBytes => (Proc.within_lift _).bind fun fields => ?_
    split
    · exact Proc.within_raise _
    · exact Proc.within_pure _
  · exact (readStream_within _).bind fun _ => (runReader_within _ _).bind fun _ =>
      (readStream_within _).bind fun _ => Proc.within_pure _

/-- What a stream read returns and leaves. -/
theorem readStream_ok_inv {count : ℤ} {input out data : Bytes} {files : LogFiles}
    (h : readStream count ⟨input, out⟩ = .ok data files) :
    files.input = [] ∨ 0 ≤ count ∧ data.length = count.toNat ∧ input = data ++ files.input := by
  unfold readStream at h
  split at h
  next hcount =>
    cases h
    by_cases hlen : count.toNat < input.length
    · exact .inr ⟨hcount, List.length_take_of_le hlen.le, (List.take_append_drop _ _).symm⟩
    · exact .inl (List.drop_eq_nil_of_le (not_lt.mp hlen))
  next =>
    split at h <;> cases h
    exact .inl rfl

/-- The frame of a record, and the length in it. -/
theorem readTxnHead_ok_inv {input out : Bytes} {head : TxnHead} {files : LogFiles}
    (h : readTxnHead ⟨input, out⟩ = .ok head files) :
    input = head.dataBytes ++ files.input ∧ head.dataBytes.length = 12 ∧
      bytesToInt (head.dataBytes.drop 8) = head.txnLen ∧ head.txnLen ≠ 0 := by
  obtain ⟨dataBytes, f₁, hframe, h⟩ := Proc.bind_ok_inv h
  obtain ⟨fields, f₂, hfields, h⟩ := Proc.bind_ok_inv h
  obtain ⟨hunpack, rfl⟩ := Proc.lift_ok_inv hfields
  have hlength : dataBytes.length = 12 := unpack_length hunpack
  have hlast : (dataBytes.drop 8).take 4 = dataBytes.drop 8 :=
    List.take_of_length_le (by rw [List.length_drop, hlength])
  rw [Format.unpack, if_pos (unpack_length hunpack)] at hunpack
  cases hunpack
  simp only [Format.decodeAll, Format.decode, Format.size, hlast, List.getD_cons_succ,
    List.getD_cons_zero] at h
  split at h
  · cases h
  next hzero =>
    cases h
    rw [readStream, if_pos (by decide)] at hframe
    cases hframe
    exact ⟨(List.take_append_drop _ _).symm, hlength, rfl, hzero⟩

/-- A record that was read is whole, unless the end of the file was met. -/
theorem readTxn_ok_inv {input out : Bytes} {txn : Txn} {files : LogFiles}
    (h : readTxn ⟨input, out⟩ = .ok txn files) :
    files.output = out ∧ (files.input = [] ∨ ∃ r : RawRecord, input = r.bytes ++ files.input) := by
  refine ⟨readTxn_within.ok h, ?_⟩
  obtain ⟨head, f₁, hhead, h₁⟩ := Proc.bind_ok_inv h
  obtain ⟨hinput, hlength, hfield, hzero⟩ := readTxnHead_ok_inv hhead
  obtain ⟨data, f₂, hdata, h₂⟩ := Proc.bind_ok_inv h₁
  obtain ⟨parsed, f₃, hparsed, h₃⟩ := Proc.bind_ok_inv h₂
  obtain rfl := runReader_ok_inv hparsed
  obtain ⟨eor, f₄, heor, h₄⟩ := Proc.bind_ok_inv h₃
  obtain ⟨-, rfl⟩ := Proc.pure_ok_inv h₄
  have hdata := readStream_ok_inv hdata
  have heor := readStream_ok_inv heor
  rcases heor with hend | ⟨-, hone, hrest'⟩
  · exact .inl hend
  rcases hdata with hend | ⟨hpos, hlen, hrest⟩
  · -- nothing was left for the byte that ends the record
    rw [hend] at hrest'
    exact .inl (List.append_eq_nil_iff.mp hrest'.symm).2
  obtain ⟨b, rfl⟩ := List.length_eq_one_iff.mp hone
  have hne : data ≠ [] := by
    rintro rfl
    exact hzero (by simp at hlen; omega)
  have hall : input = head.dataBytes ++ (data ++ [b]) ++ files.input := by
    rw [hinput, hrest, hrest', List.append_assoc, List.append_assoc]
  exact .inr ⟨⟨head.dataBytes, data, b, hlength, by rw [hfield, hlen]; omega, hne⟩, hall⟩

/-- A record of the input either does not reach the output, or is copied. -/
theorem RawRecord.copied_or_dropped {r : RawRecord} {txn : Txn} {rest out : Bytes}
    {files : LogFiles}
    (h : readTxn ⟨r.bytes ++ rest, out⟩ = .ok txn files) {text : String}
    (hstr : txn.str = .ok text) :
    txn.transactionBytes = [] ∨ txn.transactionBytes = r.bytes ∧ r.Copied := by
  have hread := r.readTxn_eq
  rcases hparsed : readTransaction (.new r.data) with ⟨parsed, record⟩ | ⟨e, record⟩
  · simp only [hparsed] at hread
    rw [hread] at h
    cases h
    by_cases hdropped : isDropped parsed.1.type parsed.2 = true
    · exact .inl (if_pos hdropped)
    · have hbytes : (r.txn parsed).transactionBytes = r.bytes := if_neg hdropped
      exact .inr ⟨hbytes, r.txn parsed, hread, ⟨text, hstr⟩, hbytes⟩
  · simp only [hparsed] at hread
    rw [hread] at h
    cases h

/-- **The loop copies whole records.** When it ends in order, what it has written are whole
records of what it has read, in their order. -/
theorem filterLoop_copies {bound : ℕ} {input out : Bytes} {e : PyError} {files : LogFiles}
    (h : filterLoop bound ⟨input, out⟩ = .raised e files) (hend : endOfLog e ≠ none) :
    ∃ (records copied : List RawRecord) (rest : Bytes),
      input = records.flatMap RawRecord.bytes ++ rest ∧ copied.Sublist records ∧
      files.output = out ++ copied.flatMap RawRecord.bytes ∧ ∀ r ∈ copied, r.Copied := by
  induction bound generalizing input out with
  | zero =>
    cases h
    exact absurd rfl hend
  | succ bound ih =>
    rcases htxn : readTxn ⟨input, out⟩ with ⟨txn, files₁⟩ | ⟨e', files₁⟩
    · rw [filterLoop, Proc.bind_ok htxn] at h
      rcases hstr : txn.str with e' | text
      · rw [hstr, Proc.lift_error, Proc.raise_bind, Proc.raise_apply] at h
        cases h
        rw [str_raises hstr] at hend
        exact absurd rfl hend
      · rw [hstr, Proc.lift_ok, Proc.pure_bind, writeOutput,
          Proc.bind_ok (Proc.update_apply ..)] at h
        obtain ⟨houtput, hcut | ⟨r, rfl⟩⟩ := readTxn_ok_inv htxn
        · -- a record that was cut short is the last thing the loop gets to see
          rw [hcut] at h
          exact absurd (filterLoop_nil h) hend
        · obtain ⟨records, copied, rest, hinput, hsub, hout, hcopied⟩ := ih h
          rw [hinput]
          rcases RawRecord.copied_or_dropped htxn hstr with hbytes | ⟨hbytes, hr⟩
          · refine ⟨r :: records, copied, rest, by simp, hsub.cons _, ?_, hcopied⟩
            rw [hout, hbytes, houtput, List.append_nil]
          · refine ⟨r :: records, r :: copied, rest, by simp, hsub.cons_cons _, ?_, ?_⟩
            · rw [hout, hbytes, houtput, List.flatMap_cons, List.append_assoc]
            · exact List.forall_mem_cons.mpr ⟨hr, hcopied⟩
    · rw [filterLoop, Proc.bind_raised htxn] at h
      cases h
      refine ⟨[], [], input, by simp, .slnil, ?_, by simp⟩
      rw [readTxn_within.raised htxn]
      simp

/-- Records that are copied pass through the loop as they are. -/
theorem filterLoop_copied {copied : List RawRecord} (h : ∀ r ∈ copied, r.Copied) {bound : ℕ}
    (hbound : copied.length < bound) (out : Bytes) :
    ∃ input, filterLoop bound ⟨copied.flatMap RawRecord.bytes ++ END_OF_STREAM, out⟩ =
      .raised .eos ⟨input, out ++ copied.flatMap RawRecord.bytes⟩ := by
  induction copied generalizing bound out with
  | nil =>
    obtain ⟨bound, rfl⟩ : ∃ n, bound = n + 1 := ⟨bound - 1, by simp at hbound; omega⟩
    have hzero : (LogEnd.zeroLength 0 []).encode = END_OF_STREAM := by decide
    obtain ⟨input, hlast⟩ := filterLoop_zeroLength 0
    rw [hzero] at hlast
    exact ⟨input, by simpa using hlast⟩
  | cons r copied ih =>
    obtain ⟨bound, rfl⟩ : ∃ n, bound = n + 1 := ⟨bound - 1, by simp at hbound; omega⟩
    obtain ⟨hr, hcopied⟩ := List.forall_mem_cons.mp h
    rw [List.length_cons] at hbound
    rw [List.flatMap_cons, List.append_assoc, hr.filterLoop]
    obtain ⟨input, hrest⟩ := ih hcopied (Nat.lt_of_succ_lt_succ hbound) (out ++ r.bytes)
    exact ⟨input, by rw [hrest, List.append_assoc]⟩

/-- The file header is read again wherever its bytes are. -/
theorem readLogFileHeader_ok_inv {input out : Bytes} {header : LogFileHeader} {files : LogFiles}
    (h : readLogFileHeader ⟨input, out⟩ = .ok header files) :
    input = header.dataBytes ++ files.input ∧ files.output = out ∧
      ∀ rest out',
        readLogFileHeader ⟨header.dataBytes ++ rest, out'⟩ = .ok header ⟨rest, out'⟩ := by
  obtain ⟨dataBytes, f₁, hbytes, h₁⟩ := Proc.bind_ok_inv h
  obtain ⟨fields, f₂, hfields, h₂⟩ := Proc.bind_ok_inv h₁
  obtain ⟨hunpack, rfl⟩ := Proc.lift_ok_inv hfields
  obtain ⟨rfl, rfl⟩ := Proc.pure_ok_inv h₂
  have hlength := unpack_length hunpack
  rw [readStream, if_pos (by decide)] at hbytes
  cases hbytes
  refine ⟨(List.take_append_drop _ _).symm, rfl, fun rest out' => ?_⟩
  rw [readLogFileHeader, Proc.bind_ok (readStream_append (by rw [hlength])), hunpack]
  rfl

/-- The loop never returns by itself. -/
theorem filterLoop_raised (bound : ℕ) (files : LogFiles) :
    ∃ e files', filterLoop bound files = .raised e files' := by
  induction bound generalizing files with
  | zero => exact ⟨.diverged, files, rfl⟩
  | succ bound ih =>
    rcases htxn : readTxn files with ⟨txn, files₁⟩ | ⟨e, files₁⟩
    · rw [filterLoop, Proc.bind_ok htxn]
      rcases txn.str with e | text
      · exact ⟨e, files₁, rfl⟩
      · exact ih _
    · exact ⟨e, files₁, by rw [filterLoop, Proc.bind_raised htxn]⟩

/-- **Filtering is idempotent.** Whatever the input: when the filter returns, its output has
the same file header, and then nothing but whole records of the input, in their order and
byte for byte, and a zero length; each of these records is read and copied again; and
filtering the output gives the output. -/
theorem storedLog_idempotent {log out : Bytes} (h : storedLog log = some out) :
    (∃ (header : LogFileHeader) (records copied : List RawRecord) (rest : Bytes),
      readLogFileHeader ⟨log, []⟩ = .ok header ⟨records.flatMap RawRecord.bytes ++ rest, []⟩ ∧
      readLogFileHeader ⟨out, []⟩ =
        .ok header ⟨copied.flatMap RawRecord.bytes ++ END_OF_STREAM, []⟩ ∧
      copied.Sublist records ∧ ∀ r ∈ copied, r.Copied) ∧
    storedLog out = some out := by
  rcases hrun : filterAndStoreTransactionLog ⟨log, []⟩ with ⟨u, files⟩ | ⟨e, files⟩ <;>
    rw [storedLog, hrun] at h <;> cases h
  obtain ⟨header, f₁, hheader, hrun⟩ := Proc.bind_ok_inv hrun
  obtain ⟨hlog, houtput, hagain⟩ := readLogFileHeader_ok_inv hheader
  rw [writeOutput, Proc.bind_ok (Proc.update_apply ..), Proc.bind_ok (Proc.observe_apply ..),
    houtput, List.nil_append] at hrun
  obtain ⟨e, f₂, hloop⟩ := filterLoop_raised (f₁.input.length + 1) ⟨f₁.input, header.dataBytes⟩
  rcases hend : endOfLog e with - | k
  · rw [Proc.recover_unhandled hloop hend] at hrun
    cases hrun
  obtain ⟨records, copied, rest, hinput, hsub, hout, hcopied⟩ :=
    filterLoop_copies hloop (by rw [hend]; exact Option.some_ne_none _)
  have hfiles : files.output =
      header.dataBytes ++ (copied.flatMap RawRecord.bytes ++ END_OF_STREAM) := by
    have hk : k = writeOutput END_OF_STREAM := by
      cases e <;> cases hend <;> rfl
    rw [Proc.recover_handled hloop hend, hk] at hrun
    cases hrun
    show f₂.output ++ END_OF_STREAM = _
    rw [hout, List.append_assoc]
  refine ⟨⟨header, records, copied, rest, ?_, ?_, hsub, hcopied⟩, ?_⟩
  · rw [hlog, hagain, hinput]
  · rw [hfiles, hagain]
  · -- the second run copies every record
    have hb : copied.length <
        (copied.flatMap RawRecord.bytes ++ END_OF_STREAM).length + 1 := by
      have := length_le_length_flatMap RawRecord.bytes_ne_nil copied
      rw [List.length_append]
      omega
    obtain ⟨input, hcopy⟩ := filterLoop_copied hcopied hb header.dataBytes
    rw [hfiles, storedLog, filterAndStoreTransactionLog, Proc.bind_ok (hagain _ _), writeOutput,
      Proc.bind_ok (Proc.update_apply ..), Proc.bind_ok (Proc.observe_apply ..), List.nil_append,
      Proc.recover_handled hcopy rfl]
    simp [writeOutput]

theorem create2_fits : (TxnBody.create2 (.sample false)).encode.length + 32 < 2 ^ 31 := by decide

/-- A log with a session, a znode, and a type of record at which the filter stops. -/
def stoppedLog : LogFile :=
  ⟨sampleHeader, length_sampleHeader, [.sample (.createSession 4000) createSession_fits,
    .sample (.create (.sample false)) create_fits, .sample (.create2 (.sample false)) create2_fits],
    .cut [] (by decide)⟩

/-- What is left of it is left as it is. -/
theorem storedLog_idempotent_stoppedLog :
    ∃ out, storedLog stoppedLog.encode = some out ∧ storedLog out = some out := by
  have hreturns : (storedLog stoppedLog.encode).isSome = true := by
    rw [storedLog_eq_filtered]
    decide
  obtain ⟨out, hout⟩ := Option.isSome_iff_exists.mp hreturns
  exact ⟨out, hout, (storedLog_idempotent hout).2⟩

end QubershipZookeeper
