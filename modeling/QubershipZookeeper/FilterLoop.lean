import QubershipZookeeper.ProcessZookeeperLogs
import QubershipZookeeper.TransactionLogFormat

/-!
# The filter loop over a log that ZooKeeper wrote

`filtered` says, over *records*, what the loop over *bytes* does: which records
reach the output, and whether the run returns at all. `storedLog_eq_filtered`
connects the two for every log: one lemma for each way a round of the loop can go
(`filterLoop_record` and those after it), then induction over the records.
-/

namespace QubershipZookeeper

open Codec

/-! ## Whole logs -/

/-- What follows the last record. -/
inductive LogEnd : Type where
  /-- a frame whose length is zero, as in the zero padding -/
  | zeroLength (crc : BitVec 64) (rest : Bytes)
  /-- the end of the file, before another frame is complete -/
  | cut (bytes : Bytes) (short : bytes.length < 12)

namespace LogEnd

/-- The bytes after the last record. -/
def encode : LogEnd → Bytes
  | zeroLength crc rest => natToBytes 8 crc.toNat ++ (juteInt 0 ++ rest)
  | cut bytes _ => bytes

/-- Is there a terminating zero length? -/
def terminated : LogEnd → Bool
  | zeroLength _ _ => true
  | cut _ _ => false

end LogEnd

/-- A transaction log as ZooKeeper leaves it. -/
structure LogFile : Type where
  /-- magic number, version and database id -/
  header : Bytes
  /-- the header has its fixed size -/
  header_length : header.length = 16
  /-- the transactions -/
  records : List LogRecord
  /-- what follows them -/
  ending : LogEnd

/-- A record with the given body, its other fields being of no interest. -/
def LogRecord.sample (body : TxnBody) (fits : body.encode.length + 32 < 2 ^ 31) : LogRecord :=
  ⟨0, 0, 0, 1, 0, body, 0x42, fits⟩

/-- The body that creates `/a`, without a value. -/
def CreateBody.sample (ephemeral : Bool) : CreateBody :=
  ⟨[0x2f, 0x61], some [], [], ephemeral, some 1⟩

theorem createSession_fits : (TxnBody.createSession 4000).encode.length + 32 < 2 ^ 31 := by decide

theorem create_fits : (TxnBody.create (.sample false)).encode.length + 32 < 2 ^ 31 := by decide

/-- The sixteen bytes a log starts with: `ZKLG`, version two, database zero. -/
def sampleHeader : Bytes := [0x5a, 0x4b, 0x4c, 0x47, 0, 0, 0, 2, 0, 0, 0, 0, 0, 0, 0, 0]

theorem length_sampleHeader : sampleHeader.length = 16 := rfl

/-- The file's bytes. -/
def LogFile.encode (log : LogFile) : Bytes :=
  log.header ++ (encodeRecords log.records ++ log.ending.encode)

/-! ## One record -/

/-- A read takes what is in front. -/
theorem readStream_append {part rest out : Bytes} {count : ℤ} (h : count = part.length) :
    readStream count ⟨part ++ rest, out⟩ = .ok part ⟨rest, out⟩ := by
  subst h
  simp [readStream]

theorem readStream_one (b : UInt8) (rest out : Bytes) :
    readStream 1 ⟨[b] ++ rest, out⟩ = .ok [b] ⟨rest, out⟩ :=
  readStream_append rfl

/-- The header of a stored transaction; what follows it becomes the body. -/
theorem readHeader_payload (r : LogRecord) :
    ∃ header, readHeader (.new r.payload) =
        .ok header ⟨r.payload, r.body.encode, r.body.encode⟩ ∧ header.type = r.body.opcode := by
  have hfields : readFields headerFormat (.new r.payload) =
      .ok (Format.decodeAll headerFormat r.header) ⟨r.payload, r.payload, r.body.encode⟩ := by
    rw [TransactionData.new]
    conv_lhs => rw [LogRecord.payload]
    exact readFields_append (length_header r)
  refine ⟨_, by rw [readHeader, Proc.bind_ok hfields, Proc.bind_ok (Proc.update_apply ..)]; rfl, ?_⟩
  have htype : bytesToInt (juteInt r.body.type) = r.body.opcode := by
    rw [← type_toInt]
    exact bytesToInt_word (k := 4) r.body.type
  simp [Format.decodeAll, headerFormat, Format.decode, Format.size, LogRecord.header,
    List.take_of_length_le, htype]

/-- The frame of a stored record. -/
theorem readTxnHead_record (r : LogRecord) (rest out : Bytes) :
    readTxnHead ⟨r.head ++ rest, out⟩ =
      .ok ⟨r.head, r.crc.toInt, r.payload.length⟩ ⟨rest, out⟩ := by
  have hlen : bytesToInt (natToBytes 4 r.payload.length) = r.payload.length := by
    have hword := bytesToInt_word (k := 4) (BitVec.ofNat 32 r.payload.length)
    have hlt := length_payload_lt r
    rw [toInt_ofNat_length hlt, BitVec.toNat_ofNat, Nat.mod_eq_of_lt (by omega)] at hword
    exact hword
  have hcrc : bytesToInt (natToBytes 8 r.crc.toNat) = r.crc.toInt := bytesToInt_word (k := 8) r.crc
  have hfields : Format.unpack [.long, .int] r.head =
    .ok [r.crc.toInt, (r.payload.length : ℤ)] := by
    simp [Format.unpack, Format.sizes, Format.size, Format.decodeAll, Format.decode,
      LogRecord.head, List.take_of_length_le, hcrc, hlen]
  have hpos : r.payload ≠ [] := by
    intro h
    have hlength := length_payload r
    rw [h] at hlength
    simp at hlength
  rw [readTxnHead, Proc.bind_ok (readStream_append (by simp [Format.sizes, Format.size])), hfields]
  simp [hpos]

/-- A listed record without a null value is read whole, and copied unless it is a
session record. -/
theorem readTxn_record {r : LogRecord} (hlisted : r.body.listed) (hnull : r.body.setsNull = false)
    (rest out : Bytes) :
    ∃ txn, readTxn ⟨r.encode ++ rest, out⟩ = .ok txn ⟨rest, out⟩ ∧
      txn.transactionBytes = (if r.body.session then [] else r.encode) ∧
      txn.header.type = r.body.opcode ∧ entryFormats txn.entry = !r.body.unnamedError := by
  have hfits : r.body.encode.length < 2 ^ 31 := lt_of_le_of_lt (Nat.le_add_right _ _) r.fits
  obtain ⟨header, hheader, htype⟩ := readHeader_payload r
  obtain ⟨entry, record, hentry, hdrop, hformat⟩ := readEntry_listed hfits hlisted hnull r.payload
  have hread : readTransaction (.new r.payload) = .ok (header, entry) record := by
    rw [readTransaction, Proc.bind_ok hheader, htype, Proc.bind_ok hentry]
    rfl
  have hrun : ∀ files, runReader readTransaction (.new r.payload) files =
      .ok (header, entry) files := by
    intro files
    rw [runReader, hread]
  refine ⟨⟨r.crc.toInt, r.payload.length, header, entry,
    if isDropped header.type entry then [] else r.head ++ r.payload ++ [r.eor]⟩,
    ?_, ?_, htype, hformat⟩
  · rw [LogRecord.encode, List.append_assoc, List.append_assoc, readTxn,
      Proc.bind_ok (readTxnHead_record ..), readTxnRest, Proc.bind_ok (readStream_append rfl),
      Proc.bind_ok (hrun _), Proc.bind_ok (readStream_one ..)]
    rfl
  · simp only [htype, hdrop]
    split
    · rfl
    · rw [LogRecord.encode, List.append_assoc]

/-- When the transaction itself cannot be read, neither can its record; only the
input has moved on. -/
theorem readTxn_raised {r : LogRecord} {e : PyError}
    (h : ∃ record, readEntry r.body.opcode ⟨r.payload, r.body.encode, r.body.encode⟩ =
      .raised e record) (rest out : Bytes) :
    ∃ input, readTxn ⟨r.encode ++ rest, out⟩ = .raised e ⟨input, out⟩ := by
  obtain ⟨record, hentry⟩ := h
  obtain ⟨header, hheader, htype⟩ := readHeader_payload r
  have hread : readTransaction (.new r.payload) = .raised e record := by
    rw [readTransaction, Proc.bind_ok hheader, htype, Proc.bind_raised hentry]
  refine ⟨[r.eor] ++ rest, ?_⟩
  rw [LogRecord.encode, List.append_assoc, List.append_assoc, readTxn,
    Proc.bind_ok (readTxnHead_record ..), readTxnRest, Proc.bind_ok (readStream_append rfl),
    Proc.bind_raised (by rw [runReader, hread])]

/-- Formatting succeeds for a listed type, unless it is an error without a name. -/
theorem str_ok {txn : Txn} (htype : txn.header.type ∈ listedTypes)
    (hformat : entryFormats txn.entry) : ∃ text, txn.str = .ok text := by
  have hcode : ∀ t ∈ listedTypes, (opcodes.lookup t).isSome := by decide
  obtain ⟨op, hop⟩ := Option.isSome_iff_exists.mp (hcode _ htype)
  have hlookup : lookupCode opcodes txn.header.type = .ok op := by rw [lookupCode, hop]
  rcases hentry : txn.entry with - | entry
  · exact ⟨_, by rw [Txn.str, hlookup, hentry]; rfl⟩
  · cases entry with
    | error err =>
      rw [hentry] at hformat
      obtain ⟨name, hname⟩ := Option.isSome_iff_exists.mp hformat
      have hlookup' : lookupCode errorcodes err = .ok name := by rw [lookupCode, hname]
      exact ⟨_, by rw [Txn.str, hlookup, hentry]; simp only [hlookup']; rfl⟩
    | _ => exact ⟨_, by rw [Txn.str, hlookup, hentry]; rfl⟩

/-- Formatting an error without a name raises. -/
theorem str_unnamed {txn : Txn} (hformat : entryFormats txn.entry = false) :
    txn.str = .error .keyError := by
  rcases hstr : txn.str with e | text
  · rw [str_raises hstr]
  · exfalso
    rcases hentry : txn.entry with - | entry
    · rw [hentry] at hformat
      cases hformat
    · rw [hentry] at hformat
      cases entry with
      | error err =>
        have hname : lookupCode errorcodes err = .error .keyError := by
          rw [lookupCode, Option.isSome_eq_false_iff.mp hformat |> Option.isNone_iff_eq_none.mp]
        rw [Txn.str, hentry] at hstr
        simp only [hname] at hstr
        rcases hop : lookupCode opcodes txn.header.type with e | op <;>
          rw [hop] at hstr <;> cases hstr
      | _ => cases hformat

/-! ## The loop, record by record -/

/-- Can the loop get past the record? -/
def TxnBody.raises (b : TxnBody) : Bool := b.setsNull || b.unnamedError

section Loop

variable {r : LogRecord} {bound : ℕ} {rest out : Bytes}

/-- One round on a record it can read. -/
theorem filterLoop_record (hlisted : r.body.listed) (hquiet : r.body.raises = false) :
    filterLoop (bound + 1) ⟨r.encode ++ rest, out⟩ =
      filterLoop bound ⟨rest, out ++ if r.body.session then [] else r.encode⟩ := by
  obtain ⟨hnull, hnamed⟩ := Bool.or_eq_false_iff.mp hquiet
  obtain ⟨txn, htxn, hbytes, htype, hformat⟩ := readTxn_record hlisted hnull rest out
  have hmem : txn.header.type ∈ listedTypes := by
    rw [htype]
    exact List.contains_iff_mem.mp hlisted
  obtain ⟨text, hstr⟩ := str_ok hmem (by rw [hformat, hnamed]; rfl)
  rw [filterLoop, Proc.bind_ok htxn, hstr, Proc.lift_ok, Proc.pure_bind, writeOutput,
    Proc.bind_ok (Proc.update_apply ..), hbytes]

/-- One round on a record it cannot get past: the exception is none of those that
end the loop in order. -/
theorem filterLoop_raises (hlisted : r.body.listed) (hraises : r.body.raises) :
    ∃ e files, filterLoop (bound + 1) ⟨r.encode ++ rest, out⟩ = .raised e files ∧
      endOfLog e = none := by
  rcases hnull : r.body.setsNull with - | -
  · have hnamed : r.body.unnamedError = true := by
      rwa [TxnBody.raises, hnull, Bool.false_or] at hraises
    obtain ⟨txn, htxn, -, -, hformat⟩ := readTxn_record hlisted hnull rest out
    have hstr : txn.str = .error .keyError := str_unnamed (by rw [hformat, hnamed]; rfl)
    refine ⟨.keyError, ⟨rest, out⟩, ?_, rfl⟩
    rw [filterLoop, Proc.bind_ok htxn, hstr, Proc.lift_error, Proc.raise_bind, Proc.raise_apply]
  · have hfits : r.body.encode.length < 2 ^ 31 := lt_of_le_of_lt (Nat.le_add_right _ _) r.fits
    obtain ⟨input, hraised⟩ := readTxn_raised (readEntry_setsNull hfits hnull _ _) rest out
    exact ⟨.structError, ⟨input, out⟩, by rw [filterLoop, Proc.bind_raised hraised], rfl⟩

/-- One round on a record of a type outside the list. -/
theorem filterLoop_unlisted (hlisted : r.body.listed = false) :
    ∃ input, filterLoop (bound + 1) ⟨r.encode ++ rest, out⟩ =
      .raised (.unknownType r.body.opcode) ⟨input, out⟩ := by
  obtain ⟨input, hraised⟩ := readTxn_raised ⟨_, readEntry_unlisted hlisted _⟩ rest out
  exact ⟨input, by rw [filterLoop, Proc.bind_raised hraised]⟩

/-- The last round, at a terminating zero length. -/
theorem filterLoop_zeroLength (crc : BitVec 64) :
    ∃ input, filterLoop (bound + 1) ⟨(LogEnd.zeroLength crc rest).encode, out⟩ =
      .raised .eos ⟨input, out⟩ := by
  refine ⟨rest, ?_⟩
  have hfields : ∃ c, Format.unpack [.long, .int] (natToBytes 8 crc.toNat ++ juteInt 0) =
      .ok [c, 0] := by
    refine ⟨bytesToInt (natToBytes 8 crc.toNat), ?_⟩
    have hzero : bytesToInt (juteInt 0#32) = 0 := bytesToInt_word (k := 4) 0#32
    simp [Format.unpack, Format.sizes, Format.size, Format.decodeAll, Format.decode,
      List.take_of_length_le, hzero]
  obtain ⟨c, hunpack⟩ := hfields
  have hhead : readTxnHead ⟨(LogEnd.zeroLength crc rest).encode, out⟩ =
      .raised .eos ⟨rest, out⟩ := by
    rw [readTxnHead, LogEnd.encode, ← List.append_assoc,
      Proc.bind_ok (readStream_append (by simp [Format.sizes, Format.size])), hunpack]
    rfl
  rw [filterLoop, readTxn, Proc.bind_raised (Proc.bind_raised hhead)]

/-- The last round, at the end of the file. -/
theorem filterLoop_cut {bytes : Bytes} (hshort : bytes.length < 12) :
    ∃ files, filterLoop (bound + 1) ⟨bytes, out⟩ = .raised .structError files := by
  refine ⟨⟨bytes.drop 12, out⟩, ?_⟩
  have hunpack : Format.unpack [.long, .int] (bytes.take 12) = .error .structError := by
    rw [Format.unpack, if_neg]
    rw [List.length_take]
    simp only [Format.sizes, Format.size, List.map_cons, List.map_nil, List.sum_cons, List.sum_nil]
    omega
  have hhead : readTxnHead ⟨bytes, out⟩ = .raised .structError ⟨bytes.drop 12, out⟩ := by
    rw [readTxnHead, Proc.bind_ok (by rfl)]
    exact Proc.bind_raised (congrFun (congrArg Proc.lift hunpack) _)
  rw [filterLoop, readTxn, Proc.bind_raised (Proc.bind_raised hhead)]

end Loop

/-! ## The filter over records -/

/-- The records that reach the output, if the run returns: it stops at the first
type outside the list and reports success, and it fails at a record it cannot
read or format. -/
def filtered (terminated : Bool) : List LogRecord → Option (List LogRecord)
  | [] => if terminated then some [] else none
  | r :: rs =>
    if r.body.listed = false then some []
    else if r.body.raises then none
    else (filtered terminated rs).map fun kept => if r.body.session then kept else r :: kept

/-- No record is empty. -/
theorem encode_ne_nil (r : LogRecord) : r.encode ≠ [] := by
  intro h
  have := congrArg List.length h
  simp [LogRecord.encode] at this

theorem encodeRecords_cons (r : LogRecord) (rs : List LogRecord) :
    encodeRecords (r :: rs) = r.encode ++ encodeRecords rs := List.flatMap_cons ..

/-- The loop ends in order, with the kept records written. -/
theorem filterLoop_some {ending : LogEnd} {rs kept : List LogRecord}
    (h : filtered ending.terminated rs = some kept) {bound : ℕ} (hb : rs.length < bound)
    (out : Bytes) :
    ∃ e input, filterLoop bound ⟨encodeRecords rs ++ ending.encode, out⟩ =
        .raised e ⟨input, out ++ encodeRecords kept⟩ ∧
      endOfLog e = some (writeOutput END_OF_STREAM) := by
  induction rs generalizing kept bound out with
  | nil =>
    obtain ⟨bound, rfl⟩ : ∃ n, bound = n + 1 := ⟨bound - 1, by simp at hb; omega⟩
    cases ending with
    | cut bytes short => cases h
    | zeroLength crc rest =>
      cases h
      obtain ⟨input, hend⟩ := filterLoop_zeroLength crc
      refine ⟨.eos, input, ?_, rfl⟩
      simpa [encodeRecords] using hend
  | cons r rs ih =>
    obtain ⟨bound, rfl⟩ : ∃ n, bound = n + 1 := ⟨bound - 1, by simp at hb; omega⟩
    rw [List.length_cons] at hb
    rw [encodeRecords_cons, List.append_assoc]
    rw [filtered] at h
    split at h
    · -- a type outside the list ends the loop, with nothing more written
      rename_i hunlisted
      cases h
      obtain ⟨input, hend⟩ := filterLoop_unlisted hunlisted
      refine ⟨.unknownType r.body.opcode, input, ?_, rfl⟩
      simpa [encodeRecords] using hend
    · rename_i hlisted
      split at h
      · cases h
      · rename_i hquiet
        obtain ⟨kept', hkept', rfl⟩ := Option.map_eq_some_iff.mp h
        rw [filterLoop_record (by simpa using hlisted) (by simpa using hquiet)]
        obtain ⟨e, input, hloop, hend⟩ := ih hkept' (Nat.lt_of_succ_lt_succ hb)
          (out ++ if r.body.session then [] else r.encode)
        refine ⟨e, input, ?_, hend⟩
        rw [hloop]
        split <;> simp [encodeRecords_cons]

/-- The loop fails, with an exception that nothing catches. -/
theorem filterLoop_none {ending : LogEnd} {rs : List LogRecord}
    (h : filtered ending.terminated rs = none) {bound : ℕ} (hb : rs.length < bound)
    (out : Bytes) :
    ∃ e files, filterLoop bound ⟨encodeRecords rs ++ ending.encode, out⟩ = .raised e files ∧
      endOfLog e = none := by
  induction rs generalizing bound out with
  | nil =>
    obtain ⟨bound, rfl⟩ : ∃ n, bound = n + 1 := ⟨bound - 1, by simp at hb; omega⟩
    cases ending with
    | zeroLength crc rest => cases h
    | cut bytes short =>
      obtain ⟨files, hend⟩ := filterLoop_cut short
      exact ⟨.structError, files, hend, rfl⟩
  | cons r rs ih =>
    obtain ⟨bound, rfl⟩ : ∃ n, bound = n + 1 := ⟨bound - 1, by simp at hb; omega⟩
    rw [List.length_cons] at hb
    rw [encodeRecords_cons, List.append_assoc]
    rw [filtered] at h
    split at h
    · cases h
    · rename_i hlisted
      split at h
      · rename_i hraises
        exact filterLoop_raises (by simpa using hlisted) hraises
      · rename_i hquiet
        rw [filterLoop_record (by simpa using hlisted) (by simpa using hquiet)]
        exact ih (Option.map_eq_none_iff.mp h) (by omega) _

/-- **The filter, over records.** For every log, the file left behind is the
header, the records that `filtered` keeps and the end marker; and the run fails
exactly when `filtered` has no answer. -/
theorem storedLog_eq_filtered (log : LogFile) :
    storedLog log.encode = (filtered log.ending.terminated log.records).map fun kept =>
      log.header ++ encodeRecords kept ++ END_OF_STREAM := by
  have hheader : ∃ header, readLogFileHeader ⟨log.encode, []⟩ =
      .ok header ⟨encodeRecords log.records ++ log.ending.encode, []⟩ ∧
      header.dataBytes = log.header := by
    let fields := Format.decodeAll [.int, .int, .long] log.header
    refine ⟨⟨log.header, fields.getD 0 0, fields.getD 1 0, fields.getD 2 0⟩, ?_, rfl⟩
    have hunpack : Format.unpack [.int, .int, .long] log.header = .ok fields :=
      if_pos log.header_length
    rw [readLogFileHeader, LogFile.encode,
      Proc.bind_ok (readStream_append (by rw [log.header_length]; rfl)), hunpack]
    rfl
  obtain ⟨header, hread, hbytes⟩ := hheader
  -- every record takes room in the file, so that the bound on the loop is large enough
  have hb : log.records.length <
      (encodeRecords log.records ++ log.ending.encode).length + 1 := by
    have := length_le_length_flatMap encode_ne_nil log.records
    rw [List.length_append, encodeRecords]
    omega
  rw [storedLog, filterAndStoreTransactionLog, Proc.bind_ok hread, writeOutput,
    Proc.bind_ok (Proc.update_apply ..), Proc.bind_ok (Proc.observe_apply ..), hbytes,
    List.nil_append]
  rcases hf : filtered log.ending.terminated log.records with - | kept
  · obtain ⟨e, files, hloop, hend⟩ := filterLoop_none hf hb log.header
    rw [Proc.recover_unhandled hloop hend]
    rfl
  · obtain ⟨e, input, hloop, hend⟩ := filterLoop_some hf hb log.header
    rw [Proc.recover_handled hloop hend]
    rfl

end QubershipZookeeper
