import QubershipZookeeper.Proc
import QubershipZookeeper.Codec

/-!
# Reading ZooKeeper transaction logs (`parse_transaction_logs.py`)

The backup daemon's own reader of ZooKeeper's transaction log, class by class.
Two state layers:

* `Reader` — the body of one transaction, the `TransactionData` object that the
  entry classes consume through `read`;
* `FileProc` — the log file being read and the filtered file being written.

Both are procedures that keep their state when an exception is raised, which
`TxnCreate` relies on: it catches `struct.error` and starts over on the same
object.

Debug messages are left out except where building one can itself raise: the
table lookups of `str(transaction)`, which the caller evaluates whether or not
the message is printed.
-/

namespace QubershipZookeeper

open Codec

/-- The exceptions this code can meet. -/
inductive PyError : Type where
  /-- `struct.error`: a buffer or a format that does not fit -/
  | structError
  /-- `KeyError`: a code missing from a lookup table -/
  | keyError
  /-- `ValueError`: a file read with a length below `-1` -/
  | valueError
  /-- `EOS`: the zero length that ends a log -/
  | eos
  /-- `UnknownType`: a transaction type outside the parser's list -/
  | unknownType (type : ℤ)
  /-- the bound put on the read loop is used up (it never is, see `filterLoop_bound`) -/
  | diverged
  deriving DecidableEq, Repr

/-! ## `struct` -/

/-- The format characters in use, all big-endian and unaligned. -/
inductive Format : Type where
  /-- `B`: one byte -/
  | byte
  /-- `i`: four bytes, signed -/
  | int
  /-- `I`: four bytes, unsigned -/
  | uint
  /-- `q`: eight bytes, signed -/
  | long
  /-- `Q`: eight bytes, unsigned -/
  | ulong
  deriving DecidableEq, Repr

namespace Format

/-- The width of a field. -/
def size : Format → ℕ
  | byte => 1
  | int | uint => 4
  | long | ulong => 8

/-- The number a field's bytes stand for. -/
def decode : Format → Bytes → ℤ
  | byte, bs | uint, bs | ulong, bs => bytesToNat bs
  | int, bs | long, bs => bytesToInt bs

/-- The width of a whole format string. -/
def sizes (fs : List Format) : ℕ := (fs.map size).sum

/-- The fields of a buffer of the right size. -/
def decodeAll : List Format → Bytes → List ℤ
  | [], _ => []
  | f :: fs, bs => f.decode (bs.take f.size) :: decodeAll fs (bs.drop f.size)

/-- `Struct(fs).unpack(bs)`: the buffer must have exactly the format's size. -/
def unpack (fs : List Format) (bs : Bytes) : Except PyError (List ℤ) :=
  if bs.length = sizes fs then .ok (decodeAll fs bs) else .error .structError

end Format

/-! ## `TransactionData` and the field readers -/

/-- The bytes of one transaction while it is being read: all of them, those
after the header, and those not yet consumed. -/
structure TransactionData : Type where
  /-- the whole transaction -/
  initial : Bytes
  /-- what follows the header -/
  body : Bytes
  /-- what is still unread -/
  rest : Bytes
  deriving DecidableEq, Repr

/-- `TransactionData(data)`. -/
def TransactionData.new (data : Bytes) : TransactionData := ⟨data, data, data⟩

/-- A procedure that consumes a `TransactionData`. -/
abbrev Reader : Type → Type := Proc PyError TransactionData

/-- `TransactionData.read`: the first `count` unread bytes, by slicing. A
negative `count` is not refused: it leaves the last `-count` bytes unread. -/
def read (count : ℤ) : Reader Bytes := fun record =>
  .ok (sliceTo record.rest count) { record with rest := sliceFrom record.rest count }

/-- `s.unpack(record.read(s.size))`. -/
def readFields (fs : List Format) : Reader (List ℤ) := do
  let part ← read (Format.sizes fs)
  Proc.lift (Format.unpack fs part)

/-- `TxnEntry.read_int`. -/
def readInt : Reader ℤ := do
  let fields ← readFields [.int]
  pure (fields.getD 0 0)

/-- The tuple of one item that `unpack` returns for the format of one string. -/
structure StringTuple : Type where
  /-- the only item -/
  item : Bytes
  deriving DecidableEq, Repr

/-- `TxnEntry.read_string`: the format `<length>s` does not exist for a negative
length, and a buffer of another length does not fit it. What is returned is the
*tuple* that was unpacked; unlike in `read_int`, its item is not taken out. -/
def readString : Reader StringTuple := do
  let length ← readInt
  if length < 0 then Proc.raise .structError
  else do
    let part ← read length
    if part.length = length.toNat then pure ⟨part⟩ else Proc.raise .structError

/-- `TxnEntry.read_data`. -/
def readData : Reader Bytes := do
  let length ← readInt
  read length

/-- An `Acl` as read: permissions, scheme, id. -/
structure Acl : Type where
  /-- permission bits -/
  perms : ℤ
  /-- authentication scheme -/
  scheme : StringTuple
  /-- identity within the scheme -/
  id : StringTuple
  deriving DecidableEq, Repr

/-- `Acl(record)`. -/
def readAcl : Reader Acl := do
  let perms ← readInt
  let scheme ← readString
  let id ← readString
  pure ⟨perms, scheme, id⟩

/-- The comprehension `[read_acl(record) for _ in range(count)]`. -/
def readAclsLoop : ℕ → Reader (List Acl)
  | 0 => pure []
  | n + 1 => do
    let acl ← readAcl
    let acls ← readAclsLoop n
    pure (acl :: acls)

/-- `TxnEntry.read_acls`; `range` of a negative count is empty. -/
def readAcls : Reader (List Acl) := do
  let count ← readInt
  readAclsLoop count.toNat

/-- The two kinds of values compared in `read_bool`. -/
inductive PyValue : Type where
  /-- a number -/
  | int (n : ℤ)
  /-- a tuple of numbers, such as `unpack` returns -/
  | tuple (items : List ℤ)
  deriving DecidableEq, Repr

/-- Python's `==`: a tuple never equals a number. -/
def PyValue.eq : PyValue → PyValue → Bool
  | int m, int n => m == n
  | tuple xs, tuple ys => xs == ys
  | _, _ => false

/-- A Python boolean is a number. -/
def pyBool (b : Bool) : PyValue := .int (if b then 1 else 0)

/-- `TxnEntry.read_bool`: the unpacked *tuple* is compared with `0`. -/
def readBool : Reader Bool := do
  let boolean ← readFields [.byte]
  pure ((PyValue.tuple boolean).eq (.int 0))

/-! ## Transactions -/

/-- `TxnHeader`. -/
structure TxnHeader : Type where
  /-- session that issued the transaction -/
  clientId : ℤ
  /-- sequence number within the session -/
  cxid : ℤ
  /-- transaction id -/
  zxid : ℤ
  /-- wall-clock time in milliseconds -/
  time : ℤ
  /-- operation code -/
  type : ℤ
  deriving DecidableEq, Repr

/-- The header's format, `>Q I Q Q i`. -/
def headerFormat : List Format := [.ulong, .uint, .ulong, .ulong, .int]

/-- `TxnHeader(record)`: what follows the header becomes the body. -/
def readHeader : Reader TxnHeader := do
  let fields ← readFields headerFormat
  Proc.update fun record => { record with body := record.rest }
  pure ⟨fields.getD 0 0, fields.getD 1 0, fields.getD 2 0, fields.getD 3 0, fields.getD 4 0⟩

/-- The parsed entries, one constructor for each `TxnEntry` subclass. -/
inductive TxnEntry : Type where
  /-- `TxnCreate` -/
  | create (path : StringTuple) (data : Bytes) (acls : List Acl) (ephemeral : Bool)
  /-- `TxnDelete` -/
  | delete (path : StringTuple)
  /-- `TxnSetData` -/
  | setData (path : StringTuple) (data : Bytes) (version : ℤ)
  /-- `TxnSetAcl` -/
  | setAcl (path : StringTuple) (acls : List Acl) (version : ℤ)
  /-- `TxnSessionCreate` -/
  | sessionCreate (timeout : ℤ)
  /-- `TxnSessionClose` -/
  | sessionClose
  /-- `TxnError` -/
  | error (err : ℤ)
  deriving DecidableEq, Repr

/-- The first attempt of `TxnCreate`: a body without a data field. -/
def readCreateWithoutData : Reader TxnEntry := do
  let path ← readString
  let acls ← readAcls
  let ephemeral ← readBool
  pure (.create path [] acls ephemeral)

/-- The second attempt of `TxnCreate`: start over, and read the data field. -/
def readCreateWithData : Reader TxnEntry := do
  Proc.update fun record => { record with rest := record.body }
  let path ← readString
  let data ← readData
  let acls ← readAcls
  let ephemeral ← readBool
  pure (.create path data acls ephemeral)

/-- `TxnCreate(record)`. -/
def readCreate : Reader TxnEntry :=
  readCreateWithoutData.recover fun
    | .structError => some readCreateWithData
    | _ => none

/-- `TxnDelete(record)`. -/
def readDelete : Reader TxnEntry := do
  let path ← readString
  pure (.delete path)

/-- `TxnSetData(record)`. -/
def readSetData : Reader TxnEntry := do
  let path ← readString
  let data ← readData
  let version ← readInt
  pure (.setData path data version)

/-- `TxnSetAcl(record)`. -/
def readSetAcl : Reader TxnEntry := do
  let path ← readString
  let acls ← readAcls
  let version ← readInt
  pure (.setAcl path acls version)

/-- `TxnSessionCreate(record)`. -/
def readSessionCreate : Reader TxnEntry := do
  let timeout ← readInt
  pure (.sessionCreate timeout)

/-- `TxnError(record)`. -/
def readError : Reader TxnEntry := do
  let err ← readInt
  pure (.error err)

/-! ### Operation codes -/

/-- `SESSIONCLOSE` -/
def SESSIONCLOSE : ℤ := -11
/-- `SESSIONCREATE` -/
def SESSIONCREATE : ℤ := -10
/-- `ERROR` -/
def ERROR : ℤ := -1
/-- `CREATE` -/
def CREATE : ℤ := 1
/-- `DELETE` -/
def DELETE : ℤ := 2
/-- `SETDATA` -/
def SETDATA : ℤ := 5
/-- `SETACL` -/
def SETACL : ℤ := 7
/-- `MULTI` -/
def MULTI : ℤ := 14

/-- `opcodes`. -/
def opcodes : List (ℤ × String) :=
  [(SESSIONCLOSE, "sessionclose"), (SESSIONCREATE, "sessioncreate"), (ERROR, "error"),
   (0, "notification"), (CREATE, "create"), (DELETE, "delete"), (3, "exists"), (4, "getdata"),
   (SETDATA, "setdata"), (6, "getacl"), (SETACL, "setacl"), (8, "getchildren"), (9, "sync"),
   (11, "ping"), (12, "getchildren2"), (13, "check"), (MULTI, "multi"), (100, "auth"),
   (101, "setwatches"), (102, "sasl")]

/-- `TxnError.errorcodes`. -/
def errorcodes : List (ℤ × String) :=
  [(0, "ok"), (-1, "systemerror"), (-2, "runtimeinconsistency"), (-3, "datainconsistency"),
   (-4, "connectionloss"), (-5, "marshallingerror"), (-6, "unimplemented"),
   (-7, "operationtimeout"), (-8, "badarguments"), (-100, "apierror"), (-101, "nonode"),
   (-102, "noauth"), (-103, "badversion"), (-108, "nochildrenforephemerals"),
   (-110, "nodeexists"), (-111, "notempty"), (-112, "sessionexpired"),
   (-113, "invalidcallback"), (-114, "invalidacl"), (-115, "authfailed"),
   (-118, "sessionmoved")]

/-- `table[code]`. -/
def lookupCode (table : List (ℤ × String)) (code : ℤ) : Except PyError String :=
  match table.lookup code with
  | some name => .ok name
  | none => .error .keyError

/-! ### One record -/

/-- `Txn`. The `entry` of a multi transaction is `None`. -/
structure Txn : Type where
  /-- checksum -/
  crc : ℤ
  /-- length of header and body -/
  txnLen : ℤ
  /-- header -/
  header : TxnHeader
  /-- parsed body -/
  entry : Option TxnEntry
  /-- what is to be copied; empty for a record to be dropped -/
  transactionBytes : Bytes
  deriving DecidableEq, Repr

/-- The dispatch of `Txn.__init__` on the header's type. -/
def readEntry (type : ℤ) : Reader (Option TxnEntry) :=
  if type = CREATE then some <$> readCreate
  else if type = DELETE then some <$> readDelete
  else if type = SETDATA then some <$> readSetData
  else if type = SETACL then some <$> readSetAcl
  else if type = SESSIONCREATE then some <$> readSessionCreate
  else if type = SESSIONCLOSE then pure (some .sessionClose)
  else if type = ERROR then some <$> readError
  else if type = MULTI then pure none
  else Proc.raise (.unknownType type)

/-- `self.entry.ephemeral == 1`. -/
def TxnEntry.isEphemeral : TxnEntry → Bool
  | .create _ _ _ ephemeral => (pyBool ephemeral).eq (.int 1)
  | _ => false

/-- The condition under which `Txn.__init__` blanks `transaction_bytes`. -/
def isDropped (type : ℤ) (entry : Option TxnEntry) : Bool :=
  type == SESSIONCREATE || type == SESSIONCLOSE ||
    (type == CREATE && (entry.map TxnEntry.isEphemeral).getD false)

/-- The input and output files of a filtering run: what is still unread, and
what has been written. -/
structure LogFiles : Type where
  /-- unread input -/
  input : Bytes
  /-- output so far -/
  output : Bytes
  deriving DecidableEq, Repr

/-- A procedure over the two files. -/
abbrev FileProc : Type → Type := Proc PyError LogFiles

/-- `stream.read(count)`: up to `count` bytes, everything for `-1`. -/
def readStream (count : ℤ) : FileProc Bytes := fun files =>
  if 0 ≤ count then
    .ok (files.input.take count.toNat) { files with input := files.input.drop count.toNat }
  else if count = -1 then .ok files.input { files with input := [] }
  else .raised .valueError files

/-- `output_file.write(data)`. -/
def writeOutput (data : Bytes) : FileProc Unit :=
  Proc.update fun files => { files with output := files.output ++ data }

/-- Run a reader on a `TransactionData` of its own. -/
def runReader {α : Type} (m : Reader α) (record : TransactionData) : FileProc α := fun files =>
  match m record with
  | .ok a _ => .ok a files
  | .raised e _ => .raised e files

/-- Header and entry of one transaction. -/
def readTransaction : Reader (TxnHeader × Option TxnEntry) := do
  let header ← readHeader
  let entry ← readEntry header.type
  pure (header, entry)

/-- The frame of a record: its twelve bytes, and the checksum and length in
them. -/
structure TxnHead : Type where
  /-- the twelve bytes as read -/
  dataBytes : Bytes
  /-- checksum -/
  crc : ℤ
  /-- length of header and body -/
  txnLen : ℤ
  deriving DecidableEq, Repr

/-- The start of `Txn(stream)`, up to the test for the terminating zero. -/
def readTxnHead : FileProc TxnHead := do
  let dataBytes ← readStream (Format.sizes [.long, .int])
  let fields ← Proc.lift (Format.unpack [.long, .int] dataBytes)
  if fields.getD 1 0 = 0 then Proc.raise .eos
  else pure ⟨dataBytes, fields.getD 0 0, fields.getD 1 0⟩

/-- The rest of `Txn(stream)`. -/
def readTxnRest (head : TxnHead) : FileProc Txn := do
  let data ← readStream head.txnLen
  let parsed ← runReader readTransaction (.new data)
  let eor ← readStream 1
  pure {
    crc := head.crc
    txnLen := head.txnLen
    header := parsed.1
    entry := parsed.2
    transactionBytes :=
      if isDropped parsed.1.type parsed.2 then [] else head.dataBytes ++ data ++ eor }

/-- `Txn(stream)`. -/
def readTxn : FileProc Txn := do
  let head ← readTxnHead
  readTxnRest head

/-- What `str(transaction)` looks up: the name of the operation, and the name of
the error for a `TxnError`. The rest of the text is formatting that cannot
fail. -/
def Txn.str (txn : Txn) : Except PyError String := do
  let op ← lookupCode opcodes txn.header.type
  match txn.entry with
  | none => pure s!"{op} -- Unrecognized operation"
  | some (.error err) => do
    let name ← lookupCode errorcodes err
    pure s!"{op} -- Error {name}"
  | some _ => pure op

/-! ## The file header -/

/-- `LogFileHeader`. -/
structure LogFileHeader : Type where
  /-- the sixteen bytes as read -/
  dataBytes : Bytes
  /-- magic number -/
  magic : ℤ
  /-- format version -/
  version : ℤ
  /-- database id -/
  dbid : ℤ
  deriving DecidableEq, Repr

/-- `LogFileHeader.MAGIC`: the letters `ZKLG` as a number. -/
def MAGIC : ℤ := bytesToNat [0x5a, 0x4b, 0x4c, 0x47]

/-- `LogFileHeader(stream)`. -/
def readLogFileHeader : FileProc LogFileHeader := do
  let dataBytes ← readStream (Format.sizes [.int, .int, .long])
  let fields ← Proc.lift (Format.unpack [.int, .int, .long] dataBytes)
  pure ⟨dataBytes, fields.getD 0 0, fields.getD 1 0, fields.getD 2 0⟩

/-- `LogFileHeader.is_valid`. -/
def LogFileHeader.isValid (header : LogFileHeader) : Bool := header.magic == MAGIC

/-- `END_OF_STREAM`. -/
def END_OF_STREAM : Bytes := [0, 0, 0, 0, 0, 0, 0, 0, 0, 0, 0, 0]

/-! ## What the readers raise

Everything below a record's frame raises `struct.error` and nothing else; this
is what makes the `except struct.error` of `TxnCreate` catch every failure of
its first attempt. -/

/-- The one exception of the field readers. -/
def IsStructError (e : PyError) : Prop := e = .structError

/-- Unpacking raises `struct.error` where the bytes have another length. -/
theorem unpack_raises {fs : List Format} {bs : Bytes} :
    ∀ e, Format.unpack fs bs = .error e → IsStructError e := by
  intro e h
  unfold Format.unpack at h
  split at h
  · cases h
  · cases h
    rfl

theorem read_raises (count : ℤ) : Proc.Raises IsStructError (read count) := fun _ _ _ h => by
  cases h

theorem readFields_raises (fs : List Format) : Proc.Raises IsStructError (readFields fs) :=
  (read_raises _).bind fun _ => Proc.raises_lift unpack_raises

theorem readInt_raises : Proc.Raises IsStructError readInt :=
  (readFields_raises _).bind fun _ => Proc.raises_pure _

/-- The readers of a record raise nothing else. -/
theorem readString_raises : Proc.Raises IsStructError readString := by
  refine readInt_raises.bind fun length => ?_
  split
  · exact Proc.raises_raise rfl
  · refine (read_raises _).bind fun part => ?_
    split
    · exact Proc.raises_pure _
    · exact Proc.raises_raise rfl

theorem readData_raises : Proc.Raises IsStructError readData :=
  readInt_raises.bind fun length => read_raises length

theorem readAcl_raises : Proc.Raises IsStructError readAcl :=
  readInt_raises.bind fun _ => readString_raises.bind fun _ =>
    readString_raises.bind fun _ => Proc.raises_pure _

theorem readAclsLoop_raises (n : ℕ) : Proc.Raises IsStructError (readAclsLoop n) := by
  induction n with
  | zero => exact Proc.raises_pure []
  | succ n ih => exact readAcl_raises.bind fun _ => ih.bind fun _ => Proc.raises_pure _

theorem readAcls_raises : Proc.Raises IsStructError readAcls :=
  readInt_raises.bind fun count => readAclsLoop_raises count.toNat

theorem readBool_raises : Proc.Raises IsStructError readBool :=
  (readFields_raises _).bind fun _ => Proc.raises_pure _

theorem readCreateWithoutData_raises : Proc.Raises IsStructError readCreateWithoutData :=
  readString_raises.bind fun _ => readAcls_raises.bind fun _ =>
    readBool_raises.bind fun _ => Proc.raises_pure _

theorem readCreateWithData_raises : Proc.Raises IsStructError readCreateWithData :=
  (Proc.raises_update _).bind fun _ => readString_raises.bind fun _ => readData_raises.bind fun _ =>
    readAcls_raises.bind fun _ => readBool_raises.bind fun _ => Proc.raises_pure _

/-- The first attempt at a create may fail so; the second has the same readers. -/
theorem readCreate_raises : Proc.Raises IsStructError readCreate := by
  refine Proc.Raises.recover (fun s e t h _ => readCreateWithoutData_raises s e t h) ?_
  intro e k hk
  split at hk
  · cases hk
    exact readCreateWithData_raises
  · cases hk

theorem readSetData_raises : Proc.Raises IsStructError readSetData :=
  readString_raises.bind fun _ => readData_raises.bind fun _ =>
    readInt_raises.bind fun _ => Proc.raises_pure _

theorem readSetAcl_raises : Proc.Raises IsStructError readSetAcl :=
  readString_raises.bind fun _ => readAcls_raises.bind fun _ =>
    readInt_raises.bind fun _ => Proc.raises_pure _

theorem readHeader_raises : Proc.Raises IsStructError readHeader :=
  (readFields_raises _).bind fun _ => (Proc.raises_update _).bind fun _ => Proc.raises_pure _

/-- What one record can raise: the reader's exceptions, the end of the log, a
type outside the list, and a file read with a bad length. -/
def IsRecordError (e : PyError) : Prop := e ≠ .diverged ∧ e ≠ .keyError

/-- An unknown type has its own error. -/
theorem readEntry_raises (type : ℤ) : Proc.Raises IsRecordError (readEntry type) := by
  have lift_struct : ∀ {α : Type} {m : Reader α}, Proc.Raises IsStructError m →
      Proc.Raises IsRecordError m := fun h => h.mono fun e he => by
    rw [he]
    exact ⟨by decide, by decide⟩
  unfold readEntry
  split
  · exact (lift_struct readCreate_raises).map _
  split
  · exact (lift_struct (readString_raises.bind fun _ => Proc.raises_pure _)).map _
  split
  · exact (lift_struct readSetData_raises).map _
  split
  · exact (lift_struct readSetAcl_raises).map _
  split
  · exact (lift_struct (readInt_raises.bind fun _ => Proc.raises_pure _)).map _
  split
  · exact Proc.raises_pure _
  split
  · exact (lift_struct (readInt_raises.bind fun _ => Proc.raises_pure _)).map _
  split
  · exact Proc.raises_pure _
  · exact Proc.raises_raise ⟨by simp, by simp⟩

/-- The errors of a transaction are those of its head and its entry. -/
theorem readTransaction_raises : Proc.Raises IsRecordError readTransaction := by
  refine (readHeader_raises.mono fun e he => ?_).bind fun header =>
    (readEntry_raises header.type).bind fun _ => Proc.raises_pure _
  rw [he]
  exact ⟨by decide, by decide⟩

theorem readStream_raises (count : ℤ) : Proc.Raises IsRecordError (readStream count) := by
  intro files e t h
  unfold readStream at h
  split at h
  · cases h
  · split at h
    · cases h
    · cases h
      exact ⟨by decide, by decide⟩

/-- A body is read apart from the file, with the same errors. -/
theorem runReader_raises {α : Type} {E : PyError → Prop} {m : Reader α} (hm : Proc.Raises E m)
    (record : TransactionData) : Proc.Raises E (runReader m record) := by
  intro files e t h
  unfold runReader at h
  split at h
  · cases h
  · rename_i hr
    cases h
    exact hm _ _ _ hr

theorem readTxnHead_raises : Proc.Raises IsRecordError readTxnHead := by
  refine (readStream_raises _).bind fun dataBytes =>
    (Proc.raises_lift fun e he => ?_).bind fun fields => ?_
  · rw [unpack_raises e he]
    exact ⟨by decide, by decide⟩
  · split
    · exact Proc.raises_raise ⟨by decide, by decide⟩
    · exact Proc.raises_pure _

/-- A whole record adds the end of the log, and a bad length. -/
theorem readTxn_raises : Proc.Raises IsRecordError readTxn :=
  readTxnHead_raises.bind fun _ => (readStream_raises _).bind fun _ =>
    (runReader_raises readTransaction_raises _).bind fun _ =>
      (readStream_raises _).bind fun _ => Proc.raises_pure _

/-- Formatting a record raises nothing but a `KeyError`. -/
theorem str_raises {txn : Txn} {e : PyError} (h : txn.str = .error e) : e = .keyError := by
  have hcode : ∀ {table : List (ℤ × String)} {code : ℤ} {e : PyError},
      lookupCode table code = .error e → e = .keyError := by
    intro table code e h
    unfold lookupCode at h
    split at h <;> cases h
    rfl
  unfold Txn.str at h
  rcases hop : lookupCode opcodes txn.header.type with e' | op
  · rw [hop] at h
    cases h
    exact hcode hop
  · rw [hop] at h
    rcases hentry : txn.entry with - | entry
    · rw [hentry] at h
      cases h
    · rw [hentry] at h
      cases entry with
      | error err =>
        rcases hname : lookupCode errorcodes err with e' | name
        · simp only [hname] at h
          cases h
          exact hcode hname
        · simp only [hname] at h
          cases h
      | _ => cases h

end QubershipZookeeper
