import Mathlib.Data.List.TakeWhile
import QubershipZookeeper.FilterLoop

/-!
# What the filter keeps, and when it returns

Three questions about `filter_and_store_transaction_log`, each answered for every
log through `filtered`:

* is the output exactly the log without sessions and ephemeral nodes
  (`storedLog_exact_iff`)?
* does the run return (`storedLog_returns_iff`)?
* can a record be lost in a run that returns (`storedLog_keeps_iff`)?
-/

namespace QubershipZookeeper

open Codec

/-! ## What `filtered` keeps -/

/-- Does the parser list the record's type? -/
def LogRecord.listed (r : LogRecord) : Bool := r.body.listed

/-- **What `filtered` keeps**: the records before the first one whose type is not
listed, session records left out. It has an answer when none of those raises, and
there is something to stop at. -/
theorem filtered_eq_some_iff {terminated : Bool} {rs kept : List LogRecord} :
    filtered terminated rs = some kept ↔
      (∀ r ∈ rs.takeWhile LogRecord.listed, r.body.raises = false) ∧
      (terminated = true ∨ rs.dropWhile LogRecord.listed ≠ []) ∧
      kept = (rs.takeWhile LogRecord.listed).filter fun r => !r.body.session := by
  induction rs generalizing kept with
  | nil =>
    cases terminated with
    | false => simp [filtered]
    | true => simp [filtered]
  | cons r rs ih =>
    rw [filtered, List.takeWhile_cons, List.dropWhile_cons, LogRecord.listed]
    rcases r.body.listed with - | -
    · simp
    · rcases hraises : r.body.raises with - | -
      · simp only [Bool.true_eq_false, if_false, if_true, Option.map_eq_some_iff, ih,
          List.forall_mem_cons, hraises, true_and, List.filter_cons, Bool.false_eq_true]
        constructor
        · rintro ⟨kept', ⟨hquiet, hend, rfl⟩, rfl⟩
          refine ⟨hquiet, hend, ?_⟩
          rcases r.body.session with - | - <;> rfl
        · rintro ⟨hquiet, hend, rfl⟩
          refine ⟨_, ⟨hquiet, hend, rfl⟩, ?_⟩
          rcases r.body.session with - | - <;> rfl
      · simp [hraises]

section Listed

variable {rs : List LogRecord} (hlisted : ∀ r ∈ rs, r.body.listed = true)

include hlisted

theorem takeWhile_listed : rs.takeWhile LogRecord.listed = rs :=
  List.takeWhile_eq_self_iff.mpr hlisted

theorem dropWhile_listed : rs.dropWhile LogRecord.listed = [] :=
  List.dropWhile_eq_nil_iff.mpr hlisted

/-- When every type is listed, the session records are what is left out. -/
theorem filtered_of_listed {terminated : Bool} {kept : List LogRecord} :
    filtered terminated rs = some kept ↔ (∀ r ∈ rs, r.body.raises = false) ∧
      terminated = true ∧ kept = rs.filter fun r => !r.body.session := by
  rw [filtered_eq_some_iff, takeWhile_listed hlisted, dropWhile_listed hlisted]
  simp

end Listed

/-! ## Exactly the log without sessions and ephemeral nodes -/

/-- The records a backup is meant to leave out. -/
def TxnBody.transient (b : TxnBody) : Bool := b.session || b.ephemeralCreate

/-- A stored record says how long it is. -/
theorem encode_prefixFree : PrefixFree LogRecord.encode := by
  intro r r' x y h
  have hhead : r.head = r'.head := by
    simp only [LogRecord.encode, List.append_assoc] at h
    exact (List.append_inj h (by simp)).1
  have hlen : r.payload.length = r'.payload.length := by
    have hnum := congrArg bytesToNat (List.append_inj hhead (by simp)).2
    have hr := length_payload_lt r
    have hr' := length_payload_lt r'
    rwa [bytesToNat_natToBytes (by omega), bytesToNat_natToBytes (by omega)] at hnum
  exact (List.append_inj h (by simp [LogRecord.encode, hlen])).1

/-- The number of records can be told from the bytes. -/
theorem length_eq_of_encodeRecords_eq {rs rs' : List LogRecord}
    (h : encodeRecords rs = encodeRecords rs') : rs.length = rs'.length := by
  have hmap := encode_prefixFree.map_eq_of_flatMap_eq encode_ne_nil h
  simpa using congrArg List.length hmap

/-- **Exact filtering.** The output is the log without its session records and its
ephemeral creates if and only if the log has no ephemeral create, no null value
and no error without a name: the parser's boolean reader never sees the
ephemeral flag, so such creates stay in, and the other two stop the run with an
exception. -/
theorem storedLog_exact_iff (log : LogFile) (hlisted : ∀ r ∈ log.records, r.body.listed = true)
    (hend : log.ending.terminated = true) :
    storedLog log.encode = some (log.header ++
        encodeRecords (log.records.filter fun r => !r.body.transient) ++ END_OF_STREAM) ↔
      ∀ r ∈ log.records, r.body.ephemeralCreate = false ∧ r.body.setsNull = false ∧
        r.body.unnamedError = false := by
  rw [storedLog_eq_filtered, hend]
  constructor
  · intro h
    obtain ⟨kept, hkept, hbytes⟩ := Option.map_eq_some_iff.mp h
    obtain ⟨hquiet, -, rfl⟩ := (filtered_of_listed hlisted).mp hkept
    have hlen := length_eq_of_encodeRecords_eq
      (List.append_cancel_left (List.append_cancel_right hbytes))
    -- the wanted records are among the stored ones, so equally many means the same
    have hsub : (log.records.filter fun r => !r.body.transient).Sublist
        (log.records.filter fun r => !r.body.session) := by
      refine List.monotone_filter_right _ fun r hr => ?_
      simp only [TxnBody.transient, Bool.not_or, Bool.and_eq_true] at hr
      exact hr.1
    have heq := hsub.eq_of_length hlen.symm
    intro r hr
    obtain ⟨hnull, hnamed⟩ := Bool.or_eq_false_iff.mp (hquiet r hr)
    refine ⟨?_, hnull, hnamed⟩
    rcases hs : r.body.session with - | -
    · have hmem : r ∈ log.records.filter fun r => !r.body.transient := by
        rw [heq, List.mem_filter, hs]
        exact ⟨hr, rfl⟩
      simpa [TxnBody.transient, hs] using (List.mem_filter.mp hmem).2
    · cases hb : r.body <;> rw [hb] at hs <;> first | rfl | cases hs
  · intro h
    have hquiet : ∀ r ∈ log.records, r.body.raises = false := fun r hr =>
      Bool.or_eq_false_iff.mpr (h r hr).2
    rw [(filtered_of_listed hlisted).mpr ⟨hquiet, rfl, rfl⟩, Option.map_some]
    have hfilter : (log.records.filter fun r => !r.body.transient) =
        log.records.filter fun r => !r.body.session := by
      refine List.filter_congr fun r hr => ?_
      rw [TxnBody.transient, (h r hr).1, Bool.or_false]
    rw [hfilter]

/-- A log whose only record creates an ephemeral node. -/
def ephemeralLog : LogFile :=
  ⟨sampleHeader, rfl, [.sample (.create (.sample true)) (by decide)], .zeroLength 0 []⟩

/-- Its record, which should go, is stored. -/
theorem storedLog_ephemeralLog :
    (∀ r ∈ ephemeralLog.records, r.body.listed = true) ∧ ephemeralLog.ending.terminated = true ∧
      storedLog ephemeralLog.encode ≠ some (ephemeralLog.header ++
        encodeRecords (ephemeralLog.records.filter fun r => !r.body.transient) ++
          END_OF_STREAM) := by
  refine ⟨by decide, rfl, ?_⟩
  rw [storedLog_eq_filtered]
  decide

/-- A log that opens a session and creates a persistent node. -/
def persistentLog : LogFile :=
  ⟨sampleHeader, rfl, [.sample (.createSession 4000) (by decide),
    .sample (.create (.sample false)) (by decide)], .zeroLength 0 []⟩

/-- Its session goes and its node stays. -/
theorem storedLog_persistentLog :
    storedLog persistentLog.encode = some (persistentLog.header ++
      encodeRecords (persistentLog.records.filter fun r => !r.body.transient) ++ END_OF_STREAM) :=
  (storedLog_exact_iff persistentLog (by decide) rfl).mpr (by decide)

/-! ## When the run returns -/

/-- Zero padding of a given length, as the end of a log. -/
def LogEnd.padding (k : ℕ) : LogEnd :=
  if h : k < 12 then .cut (List.replicate k 0) (by rwa [List.length_replicate])
  else .zeroLength 0 (List.replicate (k - 12) 0)

/-- The end of a log is a row of zeros. -/
theorem encode_padding (k : ℕ) : (LogEnd.padding k).encode = List.replicate k 0 := by
  unfold LogEnd.padding
  split
  · rfl
  · rename_i h
    obtain ⟨n, rfl⟩ : ∃ n, k = 12 + n := ⟨k - 12, by omega⟩
    have hzero : natToBytes 8 (0 : BitVec 64).toNat ++ juteInt 0 = List.replicate 12 0 := by decide
    rw [LogEnd.encode, ← List.append_assoc, hzero, Nat.add_sub_cancel_left,
      List.replicate_append_replicate]

/-- The row terminates the log if it is as long as the head of a record. -/
theorem terminated_padding (k : ℕ) : (LogEnd.padding k).terminated = true ↔ 12 ≤ k := by
  unfold LogEnd.padding
  split
  · simp [LogEnd.terminated]
    omega
  · simp [LogEnd.terminated]
    omega

/-- **Totality.** On a log of listed types that ends in `k` zero bytes (with
`k = 0`, at the end of the file) the run returns if and only if the padding holds
a whole frame, no value is null and every error code has a name. -/
theorem storedLog_returns_iff {header : Bytes} (hheader : header.length = 16)
    {rs : List LogRecord} (hlisted : ∀ r ∈ rs, r.body.listed = true) (k : ℕ) :
    (∃ out, storedLog (header ++ (encodeRecords rs ++ List.replicate k 0)) = some out) ↔
      12 ≤ k ∧ ∀ r ∈ rs, r.body.setsNull = false ∧ r.body.unnamedError = false := by
  have hlog := storedLog_eq_filtered ⟨header, hheader, rs, .padding k⟩
  rw [LogFile.encode, encode_padding] at hlog
  rw [hlog]
  constructor
  · rintro ⟨out, hout⟩
    obtain ⟨kept, hkept, -⟩ := Option.map_eq_some_iff.mp hout
    obtain ⟨hquiet, hend, -⟩ := (filtered_of_listed hlisted).mp hkept
    exact ⟨(terminated_padding k).mp hend, fun r hr => Bool.or_eq_false_iff.mp (hquiet r hr)⟩
  · rintro ⟨hk, hquiet⟩
    refine ⟨_, Option.map_eq_some_iff.mpr ⟨_, (filtered_of_listed hlisted).mpr ⟨?_, ?_, rfl⟩, rfl⟩⟩
    · exact fun r hr => Bool.or_eq_false_iff.mpr (hquiet r hr)
    · exact (terminated_padding k).mpr hk

/-- Three ways to fail: a null value, an error code without a name, and a log
that ends at the end of the file. -/
theorem storedLog_fails :
    storedLog (LogFile.encode ⟨sampleHeader, rfl,
      [.sample (.setData [0x2f, 0x61] none 1) (by decide)], .padding 64⟩) = none ∧
    storedLog (LogFile.encode ⟨sampleHeader, rfl,
      [.sample (.error (-119)) (by decide)], .padding 64⟩) = none ∧
    storedLog (LogFile.encode ⟨sampleHeader, rfl,
      [.sample (.create (.sample false)) (by decide)], .padding 0⟩) = none := by
  refine ⟨?_, ?_, ?_⟩ <;> rw [storedLog_eq_filtered] <;> rfl

/-- A node created, with padding behind it. -/
theorem storedLog_returns_sample :
    ∃ out, storedLog (sampleHeader ++ (encodeRecords
      [.sample (.create (.sample false)) (by decide)] ++ List.replicate 64 0)) = some out :=
  (storedLog_returns_iff rfl (by decide) 64).mpr (by decide)

/-! ## Records that are lost

Whether a record is transient can be told from its bytes, so that an output can
be compared with the log it was made from. -/

/-- A reader is a function: from one input it leaves one remainder. -/
theorem rest_eq_of_read {α : Type} {m : Reader α} {xs ys rest rest' : Bytes} {a a' : α}
    (hx : m ⟨[], [], xs⟩ = .ok a ⟨[], [], rest⟩) (hy : m ⟨[], [], ys⟩ = .ok a' ⟨[], [], rest'⟩)
    (h : xs = ys) : a = a' ∧ rest = rest' := by
  rw [h, hy] at hx
  cases hx
  exact ⟨rfl, rfl⟩

/-- A buffer can be told from the bytes, a null one from an empty one too. -/
theorem juteBuffer_inj {data data' : Option Bytes} {rest rest' : Bytes}
    (hd : (juteBuffer data).length < 2 ^ 31) (hd' : (juteBuffer data').length < 2 ^ 31)
    (h : juteBuffer data ++ rest = juteBuffer data' ++ rest') : rest = rest' := by
  -- a null buffer starts with `-1`, any other with its length
  have hmixed : ∀ {s x y : Bytes}, (juteString s).length < 2 ^ 31 →
      juteString s ++ x ≠ juteInt (-1) ++ y := by
    intro s x y hs heq
    rw [juteString, List.length_append, length_juteInt] at hs
    rw [juteString, List.append_assoc] at heq
    have hint := (rest_eq_of_read (readInt_jute ..) (readInt_jute ..) heq).1
    rw [toInt_ofNat_length (by omega)] at hint
    have : (-1 : BitVec 32).toInt = -1 := by decide
    omega
  cases data with
  | none =>
    cases data' with
    | none => exact List.append_cancel_left h
    | some s' => exact absurd h.symm (hmixed hd')
  | some s =>
    cases data' with
    | none => exact absurd h (hmixed hd)
    | some s' =>
      rw [juteBuffer, juteString, List.length_append, length_juteInt] at hd hd'
      exact (rest_eq_of_read (readData_jute (by omega) ..) (readData_jute (by omega) ..) h).2

/-- The ephemeral flag can be told from the bytes of a create. -/
theorem ephemeral_of_encode_eq {c c' : CreateBody} (hc : c.encode.length < 2 ^ 31)
    (h : c.encode = c'.encode) : c.ephemeral = c'.ephemeral := by
  obtain ⟨hpath, hdata, hacls⟩ := length_parts_of_fits hc
  obtain ⟨hpath', hdata', hacls'⟩ := length_parts_of_fits (h ▸ hc)
  have h₁ := (rest_eq_of_read (readString_jute hpath ..) (readString_jute hpath' ..) h).2
  have h₂ := juteBuffer_inj hdata hdata' h₁
  have h₃ := (rest_eq_of_read (readAcls_jute hacls ..) (readAcls_jute hacls' ..) h₂).2
  have hbyte := (List.cons.inj h₃).1
  rcases hc : c.ephemeral with - | - <;> rcases hc' : c'.ephemeral with - | - <;>
    rw [hc, hc'] at hbyte <;> first | rfl | exact absurd hbyte (by decide)

theorem session_eq (b : TxnBody) :
    b.session = (b.opcode == SESSIONCREATE || b.opcode == SESSIONCLOSE) := by
  cases b with
  | other type body unlisted =>
    simp only [listedTypes, List.mem_cons, not_or] at unlisted
    simp [TxnBody.session, TxnBody.opcode, unlisted]
  | _ => rfl

/-- Only creates have the types of a create. -/
theorem create_of_opcode {b : TxnBody} (h : b.opcode = CREATE ∨ b.opcode = CREATE2) :
    ∃ c : CreateBody, b.encode = c.encode ∧ b.ephemeralCreate = c.ephemeral := by
  cases b with
  | create c => exact ⟨c, rfl, rfl⟩
  | create2 c => exact ⟨c, rfl, rfl⟩
  | other type body unlisted =>
    simp only [listedTypes, List.mem_cons, not_or] at unlisted
    rcases h with h | h
    · exact absurd h unlisted.2.1
    · exact absurd h unlisted.1
  | _ =>
    simp only [TxnBody.opcode] at h
    exact absurd h (by decide)

/-- Whether a record creates an ephemeral node can be told from its bytes. -/
theorem ephemeralCreate_of_encode_eq {b b' : TxnBody} (hb : b.encode.length < 2 ^ 31)
    (hcode : b.opcode = b'.opcode) (h : b.encode = b'.encode) (heph : b.ephemeralCreate = true) :
    b'.ephemeralCreate = true := by
  have hopcode : b.opcode = CREATE ∨ b.opcode = CREATE2 := by
    cases b with
    | create c => exact .inl rfl
    | create2 c => exact .inr rfl
    | _ => cases heph
  obtain ⟨c, henc, hc⟩ := create_of_opcode hopcode
  obtain ⟨c', henc', heph'⟩ := create_of_opcode (hcode ▸ hopcode)
  rw [henc] at hb
  rw [heph', ← ephemeral_of_encode_eq hb (by rw [← henc, h, henc']), ← hc, heph]

/-- **Whether a record is transient can be told from its bytes.** -/
theorem transient_of_encode_eq {r r' : LogRecord} (h : r.encode = r'.encode) :
    r.body.transient = r'.body.transient := by
  have hpayload : r.payload = r'.payload := by
    rw [LogRecord.encode, LogRecord.encode] at h
    have htail := (List.append_inj h (by simp)).2
    exact (List.append_inj' htail rfl).1
  obtain ⟨hheader, hbody⟩ := List.append_inj hpayload (by simp)
  have hcode : r.body.opcode = r'.body.opcode := by
    simp only [LogRecord.header] at hheader
    have h₁ := (List.append_inj hheader (by simp)).2
    have h₂ := (List.append_inj h₁ (by simp)).2
    have h₃ := (List.append_inj h₂ (by simp)).2
    have h₄ := (List.append_inj h₃ (by simp)).2
    have hint := congrArg bytesToInt h₄
    rw [← type_toInt, ← type_toInt]
    rwa [juteInt, juteInt, bytesToInt_word (k := 4) r.body.type,
      bytesToInt_word (k := 4) r'.body.type] at hint
  have hr : r.body.encode.length < 2 ^ 31 := lt_of_le_of_lt (Nat.le_add_right _ _) r.fits
  have hr' : r'.body.encode.length < 2 ^ 31 := lt_of_le_of_lt (Nat.le_add_right _ _) r'.fits
  rw [TxnBody.transient, TxnBody.transient, session_eq, session_eq, hcode]
  congr 1
  rw [Bool.eq_iff_iff]
  exact ⟨ephemeralCreate_of_encode_eq hr hcode hbody,
    ephemeralCreate_of_encode_eq hr' hcode.symm hbody.symm⟩

/-- Outputs with the same bytes hold equally many records that are not
transient. -/
theorem countP_of_map_encode_eq {rs rs' : List LogRecord}
    (h : rs.map LogRecord.encode = rs'.map LogRecord.encode) :
    (rs.countP fun r => !r.body.transient) = rs'.countP fun r => !r.body.transient := by
  induction rs generalizing rs' with
  | nil =>
    obtain rfl : rs' = [] := List.map_eq_nil_iff.mp h.symm
    rfl
  | cons r rs ih =>
    obtain ⟨r', rs'', rfl, hr, hrs⟩ := List.map_eq_cons_iff.mp h.symm
    rw [List.countP_cons, List.countP_cons, ih hrs.symm, transient_of_encode_eq hr]

/-- **Lost records.** Whatever the run reports as stored contains every record
that is not transient, in order, if and only if no such record stands at or after
the first record of a type the parser does not list — or a record before that
one makes the run fail, so that nothing is reported as stored. -/
theorem storedLog_keeps_iff (log : LogFile) :
    (∀ out, storedLog log.encode = some out →
      ∃ kept, out = log.header ++ encodeRecords kept ++ END_OF_STREAM ∧
        (log.records.filter fun r => !r.body.transient).Sublist kept ∧
        kept.Sublist log.records) ↔
      ((∀ r ∈ log.records.takeWhile LogRecord.listed, r.body.raises = false) →
        ∀ r ∈ log.records.dropWhile LogRecord.listed, r.body.transient = true) := by
  have hsplit : log.records.takeWhile LogRecord.listed ++ log.records.dropWhile LogRecord.listed =
      log.records := List.takeWhile_append_dropWhile
  rw [storedLog_eq_filtered]
  constructor
  · intro h hquiet r hr
    have hstored : filtered log.ending.terminated log.records = some _ :=
      filtered_eq_some_iff.mpr ⟨hquiet, .inr (List.ne_nil_of_mem hr), rfl⟩
    obtain ⟨kept, hbytes, hsub, -⟩ := h _ (Option.map_eq_some_iff.mpr ⟨_, hstored, rfl⟩)
    have hmap := encode_prefixFree.map_eq_of_flatMap_eq encode_ne_nil
      (List.append_cancel_left (List.append_cancel_right hbytes))
    -- count the records that are not transient, in the log and in the output
    have hlog := hsub.countP_le (p := fun r => !r.body.transient)
    have hout := (List.filter_sublist (p := fun r => !r.body.session)
      (l := log.records.takeWhile LogRecord.listed)).countP_le (p := fun r => !r.body.transient)
    rw [countP_of_map_encode_eq hmap] at hout
    rw [List.countP_filter] at hlog
    have hnone : (log.records.dropWhile LogRecord.listed).countP
        (fun r => !r.body.transient) = 0 := by
      rw [← hsplit, List.countP_append] at hlog
      simp only [Bool.and_self] at hlog
      omega
    simpa using List.countP_eq_zero.mp hnone r hr
  · intro h out hout
    obtain ⟨kept, hkept, rfl⟩ := Option.map_eq_some_iff.mp hout
    obtain ⟨hquiet, -, rfl⟩ := filtered_eq_some_iff.mp hkept
    refine ⟨_, rfl, ?_, List.filter_sublist.trans (List.takeWhile_sublist _)⟩
    have hnone : (log.records.dropWhile LogRecord.listed).filter
        (fun r => !r.body.transient) = [] := by
      rw [List.filter_eq_nil_iff]
      intro r hr
      simp [h hquiet r hr]
    conv_lhs => rw [← hsplit, List.filter_append, hnone, List.append_nil]
    refine List.monotone_filter_right _ fun r hr => ?_
    simp only [TxnBody.transient, Bool.not_or, Bool.and_eq_true] at hr
    exact hr.1

/-- A log whose only record creates a persistent node, by `create2`. -/
def create2Log : LogFile :=
  ⟨sampleHeader, rfl, [.sample (.create2 (.sample false)) (by decide)], .zeroLength 0 []⟩

/-- Its record is lost, and the run reports success. -/
theorem storedLog_create2Log :
    ¬ ∀ out, storedLog create2Log.encode = some out →
      ∃ kept, out = create2Log.header ++ encodeRecords kept ++ END_OF_STREAM ∧
        (create2Log.records.filter fun r => !r.body.transient).Sublist kept ∧
        kept.Sublist create2Log.records := by
  intro h
  have hstored : storedLog create2Log.encode =
      some (create2Log.header ++ encodeRecords [] ++ END_OF_STREAM) := by
    rw [storedLog_eq_filtered]
    rfl
  obtain ⟨kept, hbytes, hsub, -⟩ := h _ hstored
  have hlen := length_eq_of_encodeRecords_eq
    (List.append_cancel_left (List.append_cancel_right hbytes))
  obtain rfl : kept = [] := List.length_eq_zero_iff.mp hlen.symm
  exact absurd (List.eq_nil_of_sublist_nil hsub) (by decide)

end QubershipZookeeper
