import QubershipZookeeper.ParseTransactionLogs

/-!
# ZooKeeper's transaction log, as ZooKeeper writes it

The other side of the parser: the records that ZooKeeper logs (`LogRecord`) and
the bytes they are stored as, in jute encoding — numbers big-endian, a string
or buffer preceded by its length, a null buffer as the length `-1`, a vector
preceded by its count. This is what is assumed of ZooKeeper; nothing here comes
from the parser.

The second half relates the two sides: each field reader inverts the encoding
of its field, whatever follows it.
-/

namespace QubershipZookeeper

open Codec

/-! ## Fields -/

/-- A four-byte number. -/
def juteInt (v : BitVec 32) : Bytes := natToBytes 4 v.toNat

/-- A string, or a buffer that is not null. -/
def juteString (s : Bytes) : Bytes := juteInt (BitVec.ofNat 32 s.length) ++ s

/-- A buffer; null is written as the length `-1`. -/
def juteBuffer : Option Bytes → Bytes
  | some s => juteString s
  | none => juteInt (-1)

/-- A boolean. -/
def juteBool (b : Bool) : Bytes := [if b then 1 else 0]

/-- An entry of an access control list. -/
structure AclEntry : Type where
  /-- permission bits -/
  perms : BitVec 32
  /-- authentication scheme -/
  scheme : Bytes
  /-- identity within the scheme -/
  id : Bytes
  deriving DecidableEq, Repr

/-- One access control entry. -/
def juteAcl (acl : AclEntry) : Bytes :=
  juteInt acl.perms ++ (juteString acl.scheme ++ juteString acl.id)

/-- A vector of access control entries. -/
def juteAcls (acls : List AclEntry) : Bytes :=
  juteInt (BitVec.ofNat 32 acls.length) ++ acls.flatMap juteAcl

/-! ## Transactions -/

/-- The body of a create transaction. -/
structure CreateBody : Type where
  /-- path of the new node -/
  path : Bytes
  /-- its value; `none` is a null buffer -/
  data : Option Bytes
  /-- its access control list -/
  acls : List AclEntry
  /-- is the node ephemeral? -/
  ephemeral : Bool
  /-- child version of the parent, absent in the older layout -/
  parentCVersion : Option (BitVec 32)
  deriving DecidableEq, Repr

namespace CreateBody

/-- What follows the data field. -/
def tail (c : CreateBody) : Bytes :=
  juteAcls c.acls ++ (juteBool c.ephemeral ++ (c.parentCVersion.map juteInt).getD [])

/-- The whole body. -/
def encode (c : CreateBody) : Bytes := juteString c.path ++ (juteBuffer c.data ++ c.tail)

end CreateBody

/-- The types that the parser lists. -/
def listedTypes : List ℤ :=
  [CREATE, DELETE, SETDATA, SETACL, SESSIONCREATE, SESSIONCLOSE, ERROR, MULTI]

/-- The type of a `create2` transaction, which carries the same body as a
create. -/
def CREATE2 : ℤ := 15

/-- What ZooKeeper logs. Types outside the parser's list keep their body as it
is: nothing in the backup daemon looks into it. -/
inductive TxnBody : Type where
  /-- a node is created -/
  | create (c : CreateBody)
  /-- a node is deleted -/
  | delete (path : Bytes)
  /-- a node's value is replaced; `none` is a null buffer -/
  | setData (path : Bytes) (data : Option Bytes) (version : BitVec 32)
  /-- a node's access control list is replaced -/
  | setAcl (path : Bytes) (acls : List AclEntry) (version : BitVec 32)
  /-- a session is opened -/
  | createSession (timeout : BitVec 32)
  /-- a session is closed -/
  | closeSession (body : Bytes)
  /-- a transaction failed with the given code -/
  | error (err : BitVec 32)
  /-- several operations in one transaction -/
  | multi (body : Bytes)
  /-- a node is created, and its metadata returned to the client -/
  | create2 (c : CreateBody)
  /-- any other type, such as `reconfig`, `createContainer` or `createTTL` -/
  | other (type : BitVec 32) (body : Bytes) (unlisted : type.toInt ∉ CREATE2 :: listedTypes)

namespace TxnBody

/-- The type in the header. -/
def type : TxnBody → BitVec 32
  | create _ => 1
  | delete _ => 2
  | setData .. => 5
  | setAcl .. => 7
  | createSession _ => -10
  | closeSession _ => -11
  | error _ => -1
  | multi _ => 14
  | create2 _ => 15
  | other type _ _ => type

/-- The type as a number. -/
def opcode : TxnBody → ℤ
  | create _ => CREATE
  | delete _ => DELETE
  | setData .. => SETDATA
  | setAcl .. => SETACL
  | createSession _ => SESSIONCREATE
  | closeSession _ => SESSIONCLOSE
  | error _ => ERROR
  | multi _ => MULTI
  | create2 _ => CREATE2
  | other type _ _ => type.toInt

/-- The bytes after the header. -/
def encode : TxnBody → Bytes
  | create c | create2 c => c.encode
  | delete path => juteString path
  | setData path data version => juteString path ++ (juteBuffer data ++ juteInt version)
  | setAcl path acls version => juteString path ++ (juteAcls acls ++ juteInt version)
  | createSession timeout => juteInt timeout
  | error err => juteInt err
  | closeSession body | multi body | other _ body _ => body

/-- Does the parser list the type? -/
def listed (b : TxnBody) : Bool := listedTypes.contains b.opcode

/-- Is it a session record? -/
def session : TxnBody → Bool
  | createSession _ | closeSession _ => true
  | _ => false

/-- Does it create an ephemeral node? -/
def ephemeralCreate : TxnBody → Bool
  | create c | create2 c => c.ephemeral
  | _ => false

/-- Does it set a null value? -/
def setsNull : TxnBody → Bool
  | setData _ none _ => true
  | _ => false

/-- Is it an error whose code has no name in the parser's table? -/
def unnamedError : TxnBody → Bool
  | error err => (errorcodes.lookup err.toInt).isNone
  | _ => false

end TxnBody

/-- A record of the log: checksum, header fields, body, end-of-record byte. Its
length fits the four-byte signed field it is stored in. -/
structure LogRecord : Type where
  /-- checksum -/
  crc : BitVec 64
  /-- session -/
  clientId : BitVec 64
  /-- sequence number within the session -/
  cxid : BitVec 32
  /-- transaction id -/
  zxid : BitVec 64
  /-- wall-clock time in milliseconds -/
  time : BitVec 64
  /-- type and body -/
  body : TxnBody
  /-- end-of-record byte -/
  eor : UInt8
  /-- the length field does not overflow -/
  fits : body.encode.length + 32 < 2 ^ 31

namespace LogRecord

/-- The header of a transaction. -/
def header (r : LogRecord) : Bytes :=
  natToBytes 8 r.clientId.toNat ++ (natToBytes 4 r.cxid.toNat ++
    (natToBytes 8 r.zxid.toNat ++ (natToBytes 8 r.time.toNat ++ juteInt r.body.type)))

/-- Header and body, what the length field counts. -/
def payload (r : LogRecord) : Bytes := r.header ++ r.body.encode

/-- The twelve bytes before the payload. -/
def head (r : LogRecord) : Bytes :=
  natToBytes 8 r.crc.toNat ++ natToBytes 4 r.payload.length

/-- A record as stored. -/
def encode (r : LogRecord) : Bytes := r.head ++ (r.payload ++ [r.eor])

end LogRecord

/-- The records of a log, one after the other. -/
def encodeRecords (rs : List LogRecord) : Bytes := rs.flatMap LogRecord.encode

/-! ## The readers invert the encoding -/

@[simp] theorem length_juteInt (v : BitVec 32) : (juteInt v).length = 4 := length_natToBytes 4 _

@[simp] theorem length_header (r : LogRecord) : r.header.length = 32 := by
  simp [LogRecord.header, juteInt]

@[simp] theorem length_head (r : LogRecord) : r.head.length = 12 := by
  simp [LogRecord.head]

/-- A payload is a header and the body. -/
theorem length_payload (r : LogRecord) : r.payload.length = r.body.encode.length + 32 := by
  simp [LogRecord.payload]
  omega

theorem length_payload_lt (r : LogRecord) : r.payload.length < 2 ^ 31 := by
  rw [length_payload]
  exact r.fits

/-- A length below the bound is written as it is. -/
theorem toInt_ofNat_length {n : ℕ} (h : n < 2 ^ 31) : (BitVec.ofNat 32 n).toInt = n := by
  rw [BitVec.toInt_ofNat', Int.bmod_def]
  omega

/-- A read takes what is in front of the rest. -/
theorem read_append {initial body part rest : Bytes} {count : ℤ} (h : count = part.length) :
    read count ⟨initial, body, part ++ rest⟩ = .ok part ⟨initial, body, rest⟩ := by
  simp only [read, sliceTo_append h, sliceFrom_append h]

theorem readFields_append {fs : List Format} {initial body part rest : Bytes}
    (h : part.length = Format.sizes fs) :
    readFields fs ⟨initial, body, part ++ rest⟩ =
      .ok (Format.decodeAll fs part) ⟨initial, body, rest⟩ := by
  rw [readFields, Proc.bind_ok (read_append (by rw [h]))]
  simp only [Format.unpack, h, if_true, Proc.lift_ok, Proc.pure_apply]

theorem decodeAll_juteInt (v : BitVec 32) : Format.decodeAll [.int] (juteInt v) = [v.toInt] := by
  have hv : bytesToInt (juteInt v) = v.toInt := bytesToInt_word (k := 4) v
  have htake : (juteInt v).take 4 = juteInt v := List.take_of_length_le (by simp)
  simp [Format.decodeAll, Format.decode, Format.size, htake, hv]

/-- A number that was written is read back. -/
@[simp] theorem readInt_jute (v : BitVec 32) (initial body rest : Bytes) :
    readInt ⟨initial, body, juteInt v ++ rest⟩ = .ok v.toInt ⟨initial, body, rest⟩ := by
  rw [readInt, Proc.bind_ok (readFields_append (by rw [length_juteInt]; rfl)), decodeAll_juteInt]
  rfl

/-- A string that fits is read back. -/
theorem readString_jute {s : Bytes} (hs : s.length < 2 ^ 31) (initial body rest : Bytes) :
    readString ⟨initial, body, juteString s ++ rest⟩ = .ok ⟨s⟩ ⟨initial, body, rest⟩ := by
  rw [readString, juteString, List.append_assoc, Proc.bind_ok (readInt_jute ..),
    toInt_ofNat_length hs, if_neg (by omega), Proc.bind_ok (read_append rfl)]
  simp

/-- A buffer that is not null is read back. -/
theorem readData_jute {s : Bytes} (hs : s.length < 2 ^ 31) (initial body rest : Bytes) :
    readData ⟨initial, body, juteBuffer (some s) ++ rest⟩ = .ok s ⟨initial, body, rest⟩ := by
  rw [readData, juteBuffer, juteString, List.append_assoc, Proc.bind_ok (readInt_jute ..),
    toInt_ofNat_length hs, read_append rfl]

/-- What the parser makes of an access control entry: scheme and id are read as
tuples of one string. -/
def AclEntry.parsed (acl : AclEntry) : Acl := ⟨acl.perms.toInt, ⟨acl.scheme⟩, ⟨acl.id⟩⟩

/-- An entry of an access list is read back. -/
theorem readAcl_jute {acl : AclEntry} (h : (juteAcl acl).length < 2 ^ 31)
    (initial body rest : Bytes) :
    readAcl ⟨initial, body, juteAcl acl ++ rest⟩ = .ok acl.parsed ⟨initial, body, rest⟩ := by
  simp only [juteAcl, juteString, List.length_append, length_juteInt] at h
  rw [readAcl, juteAcl, List.append_assoc, List.append_assoc, Proc.bind_ok (readInt_jute ..),
    Proc.bind_ok (readString_jute (by omega) ..), Proc.bind_ok (readString_jute (by omega) ..)]
  rfl

theorem readAclsLoop_jute {acls : List AclEntry} (h : (acls.flatMap juteAcl).length < 2 ^ 31)
    (initial body rest : Bytes) :
    readAclsLoop acls.length ⟨initial, body, acls.flatMap juteAcl ++ rest⟩ =
      .ok (acls.map AclEntry.parsed) ⟨initial, body, rest⟩ := by
  induction acls with
  | nil => rfl
  | cons acl acls ih =>
    rw [List.flatMap_cons, List.length_append] at h
    rw [List.length_cons, readAclsLoop, List.flatMap_cons, List.append_assoc,
      Proc.bind_ok (readAcl_jute (by omega) ..), Proc.bind_ok (ih (by omega))]
    rfl

theorem juteAcl_ne_nil (acl : AclEntry) : juteAcl acl ≠ [] := by
  intro h
  have := congrArg List.length h
  simp [juteAcl] at this

/-- So is a list of them, with its length in front. -/
theorem readAcls_jute {acls : List AclEntry} (h : (juteAcls acls).length < 2 ^ 31)
    (initial body rest : Bytes) :
    readAcls ⟨initial, body, juteAcls acls ++ rest⟩ =
      .ok (acls.map AclEntry.parsed) ⟨initial, body, rest⟩ := by
  simp only [juteAcls, List.length_append, length_juteInt] at h
  have hcount := length_le_length_flatMap juteAcl_ne_nil acls
  rw [readAcls, juteAcls, List.append_assoc, Proc.bind_ok (readInt_jute ..),
    toInt_ofNat_length (by omega), Int.toNat_natCast, readAclsLoop_jute (by omega)]

/-- **The boolean reader always answers `False`**: it compares a tuple with a
number. -/
theorem readBool_eq_false {record record' : TransactionData} {b : Bool}
    (h : readBool record = .ok b record') : b = false := by
  obtain ⟨fields, r₁, -, h₂⟩ := Proc.bind_ok_inv h
  exact (Proc.pure_ok_inv h₂).1

/-- The reader of a flag answers no, whatever the byte is. -/
theorem readBool_cons (b : UInt8) (initial body rest : Bytes) :
    readBool ⟨initial, body, b :: rest⟩ = .ok false ⟨initial, body, rest⟩ := by
  rw [readBool, show b :: rest = [b] ++ rest from rfl,
    Proc.bind_ok (readFields_append (by rfl))]
  rfl

/-! ## How each body is read -/

/-- Reading moves on in the transaction but leaves the saved body alone, which is
what lets `TxnCreate` start over. -/
def KeepsBody (record record' : TransactionData) : Prop := record'.body = record.body

instance : Std.Refl KeepsBody := ⟨fun _ => rfl⟩

instance : IsTrans TransactionData KeepsBody := ⟨fun _ _ _ h₁ h₂ => h₂.trans h₁⟩

/-- No reader changes the copy of the body, so a second attempt can start again from it. -/
theorem readFields_keepsBody (fs : List Format) : Proc.Within KeepsBody (readFields fs) :=
  Proc.Within.bind (fun _ => rfl) fun _ => Proc.within_lift _

theorem readInt_keepsBody : Proc.Within KeepsBody readInt :=
  (readFields_keepsBody _).bind fun _ => Proc.within_pure _

theorem readString_keepsBody : Proc.Within KeepsBody readString := by
  refine readInt_keepsBody.bind fun length => ?_
  split
  · exact Proc.within_raise _
  · refine Proc.Within.bind (fun _ => rfl) fun part => ?_
    split
    · exact Proc.within_pure _
    · exact Proc.within_raise _

theorem readAcl_keepsBody : Proc.Within KeepsBody readAcl :=
  readInt_keepsBody.bind fun _ => readString_keepsBody.bind fun _ =>
    readString_keepsBody.bind fun _ => Proc.within_pure _

theorem readAclsLoop_keepsBody (n : ℕ) : Proc.Within KeepsBody (readAclsLoop n) := by
  induction n with
  | zero => exact Proc.within_pure []
  | succ n ih => exact readAcl_keepsBody.bind fun _ => ih.bind fun _ => Proc.within_pure _

theorem readCreateWithoutData_keepsBody : Proc.Within KeepsBody readCreateWithoutData :=
  readString_keepsBody.bind fun _ =>
    (readInt_keepsBody.bind fun count => readAclsLoop_keepsBody count.toNat).bind fun _ =>
      ((readFields_keepsBody _).bind fun _ => Proc.within_pure _).bind fun _ => Proc.within_pure _

/-- A parsed create is never marked ephemeral, whichever attempt parsed it. -/
theorem readCreate_ok_inv {record record' : TransactionData} {entry : TxnEntry}
    (h : readCreate record = .ok entry record') :
    ∃ path data acls, entry = .create path data acls false := by
  rcases hfirst : readCreateWithoutData record with ⟨entry', t⟩ | ⟨e, t⟩
  · rw [readCreate, Proc.recover_ok hfirst] at h
    cases h
    obtain ⟨path, r₁, -, h₁⟩ := Proc.bind_ok_inv hfirst
    obtain ⟨acls, r₂, -, h₂⟩ := Proc.bind_ok_inv h₁
    obtain ⟨ephemeral, r₃, hbool, h₃⟩ := Proc.bind_ok_inv h₂
    obtain rfl := readBool_eq_false hbool
    exact ⟨path, [], acls, (Proc.pure_ok_inv h₃).1⟩
  · obtain rfl : e = .structError := readCreateWithoutData_raises _ _ _ hfirst
    rw [readCreate, Proc.recover_handled hfirst rfl] at h
    obtain ⟨-, r₀, -, h₀⟩ := Proc.bind_ok_inv h
    obtain ⟨path, r₁, -, h₁⟩ := Proc.bind_ok_inv h₀
    obtain ⟨data, r₂, -, h₂⟩ := Proc.bind_ok_inv h₁
    obtain ⟨acls, r₃, -, h₃⟩ := Proc.bind_ok_inv h₂
    obtain ⟨ephemeral, r₄, hbool, h₄⟩ := Proc.bind_ok_inv h₃
    obtain rfl := readBool_eq_false hbool
    exact ⟨path, data, acls, (Proc.pure_ok_inv h₄).1⟩

section Create

variable {c : CreateBody}

/-- The parts of a body that fits fit. -/
theorem length_parts_of_fits (h : c.encode.length < 2 ^ 31) :
    c.path.length < 2 ^ 31 ∧ (juteBuffer c.data).length < 2 ^ 31 ∧
      (juteAcls c.acls).length < 2 ^ 31 := by
  simp only [CreateBody.encode, CreateBody.tail, juteString, List.length_append,
    length_juteInt] at h
  omega

theorem tail_eq_cons (c : CreateBody) : ∃ b rest, c.tail = b :: rest := by
  rcases htail : c.tail with - | ⟨b, rest⟩
  · have := congrArg List.length htail
    simp [CreateBody.tail, juteAcls] at this
  · exact ⟨b, rest, rfl⟩

/-- A buffer whose length field is not positive looks like an empty access control
list, so the first attempt succeeds on it, and takes the next byte for the flag. -/
theorem readCreateWithoutData_empty (h : c.encode.length < 2 ^ 31) {count : BitVec 32}
    (hdata : juteBuffer c.data = juteInt count) (hcount : count.toInt ≤ 0) (initial body : Bytes) :
    readCreateWithoutData ⟨initial, body, c.encode⟩ =
      .ok (.create ⟨c.path⟩ [] [] false) ⟨initial, body, c.tail.tail⟩ := by
  obtain ⟨hpath, -, -⟩ := length_parts_of_fits h
  obtain ⟨b, rest, hrest⟩ := tail_eq_cons c
  have hacls : readAcls ⟨initial, body, juteInt count ++ c.tail⟩ =
      .ok [] ⟨initial, body, c.tail⟩ := by
    rw [readAcls, Proc.bind_ok (readInt_jute ..), Int.toNat_of_nonpos hcount]
    rfl
  rw [readCreateWithoutData, CreateBody.encode, hdata,
    Proc.bind_ok (readString_jute hpath ..), Proc.bind_ok hacls, hrest,
    Proc.bind_ok (readBool_cons ..)]
  rfl

/-- On any other buffer the second attempt reads what was written. -/
theorem readCreateWithData_some (h : c.encode.length < 2 ^ 31) {data : Bytes}
    (hdata : c.data = some data) (initial rest : Bytes) :
    readCreateWithData ⟨initial, c.encode, rest⟩ =
      .ok (.create ⟨c.path⟩ data (c.acls.map AclEntry.parsed) false)
        ⟨initial, c.encode, (c.parentCVersion.map juteInt).getD []⟩ := by
  obtain ⟨hpath, hbuffer, hacls⟩ := length_parts_of_fits h
  rw [hdata, juteBuffer, juteString, List.length_append, length_juteInt] at hbuffer
  have hrest : c.encode = juteString c.path ++ (juteBuffer (some data) ++ (juteAcls c.acls ++
      ((if c.ephemeral then 1 else 0) :: (c.parentCVersion.map juteInt).getD []))) := by
    rw [CreateBody.encode, CreateBody.tail, hdata]
    rfl
  rw [readCreateWithData, Proc.bind_ok (Proc.update_apply ..), hrest,
    Proc.bind_ok (readString_jute hpath ..), Proc.bind_ok (readData_jute (by omega) ..),
    Proc.bind_ok (readAcls_jute hacls ..), Proc.bind_ok (readBool_cons ..)]
  rfl

/-- **A well-formed create never fails to parse.** -/
theorem readCreate_ok (h : c.encode.length < 2 ^ 31) (initial : Bytes) :
    ∃ entry record, readCreate ⟨initial, c.encode, c.encode⟩ = .ok entry record := by
  rcases hfirst : readCreateWithoutData ⟨initial, c.encode, c.encode⟩ with
    ⟨entry, t⟩ | ⟨e, ⟨initial', body', rest'⟩⟩
  · exact ⟨entry, t, Proc.recover_ok hfirst⟩
  · obtain rfl : e = .structError := readCreateWithoutData_raises _ _ _ hfirst
    obtain rfl : body' = c.encode := readCreateWithoutData_keepsBody.raised hfirst
    rcases hdata : c.data with - | data
    · have hnull : juteBuffer c.data = juteInt (-1) := by rw [hdata, juteBuffer]
      rw [readCreateWithoutData_empty h hnull (by decide)] at hfirst
      cases hfirst
    · have hok := readCreateWithData_some h hdata initial' rest'
      exact ⟨_, _, (Proc.recover_handled hfirst rfl).trans hok⟩

end Create

/-- Can `str` format the entry? -/
def entryFormats : Option TxnEntry → Bool
  | some (.error err) => (errorcodes.lookup err).isSome
  | _ => true

theorem map_ok {α β : Type} {m : Reader α} {f : α → β} {record record' : TransactionData} {a : α}
    (h : m record = .ok a record') : (f <$> m) record = .ok (f a) record' :=
  Proc.bind_ok h

section Entries

variable {initial body : Bytes}

/-- The bodies are read back, kind by kind. -/
theorem readDelete_jute {path : Bytes} (h : (TxnBody.delete path).encode.length < 2 ^ 31) :
    readDelete ⟨initial, body, (TxnBody.delete path).encode⟩ =
      .ok (.delete ⟨path⟩) ⟨initial, body, []⟩ := by
  simp only [TxnBody.encode, juteString, List.length_append] at h
  rw [readDelete, TxnBody.encode, ← List.append_nil (juteString path),
    Proc.bind_ok (readString_jute (by omega) ..)]
  rfl

theorem readSetData_jute {path data : Bytes} {version : BitVec 32}
    (h : (TxnBody.setData path (some data) version).encode.length < 2 ^ 31) :
    readSetData ⟨initial, body, (TxnBody.setData path (some data) version).encode⟩ =
      .ok (.setData ⟨path⟩ data version.toInt) ⟨initial, body, []⟩ := by
  simp only [TxnBody.encode, juteBuffer, juteString, List.length_append, length_juteInt] at h
  rw [readSetData, TxnBody.encode, Proc.bind_ok (readString_jute (by omega) ..),
    Proc.bind_ok (readData_jute (by omega) ..), ← List.append_nil (juteInt version),
    Proc.bind_ok (readInt_jute ..)]
  rfl

variable (initial body) in
/-- A number that is cut off is an error. -/
theorem readInt_short {rest : Bytes} (h : rest.length < 4) :
    ∃ record, readInt ⟨initial, body, rest⟩ = .raised .structError record := by
  have hlen : (sliceTo rest (4 : ℕ)).length ≠ 4 := by
    simp only [sliceTo, Int.natCast_nonneg, if_true, Int.toNat_natCast, List.length_take]
    omega
  refine ⟨⟨initial, body, sliceFrom rest (4 : ℕ)⟩, Proc.bind_raised ?_⟩
  rw [readFields, Proc.bind_ok (by rfl)]
  exact congrFun (congrArg Proc.lift (if_neg hlen)) _

variable (initial body) in
/-- **A null value is not readable**: the slice up to `-1` swallows the version,
and one byte is left where four are needed. -/
theorem readSetData_null {path : Bytes} (version : BitVec 32) (h : path.length < 2 ^ 31) :
    ∃ record, readSetData ⟨initial, body, (TxnBody.setData path none version).encode⟩ =
      .raised .structError record := by
  have hlen : (sliceFrom (juteInt version) (-1)).length < 4 :=
    lt_of_le_of_lt (length_sliceFrom_neg_one _) (by norm_num)
  obtain ⟨record, hshort⟩ := readInt_short initial body hlen
  refine ⟨record, ?_⟩
  have hdata : readData ⟨initial, body, juteInt (-1) ++ juteInt version⟩ =
      .ok (sliceTo (juteInt version) (-1)) ⟨initial, body, sliceFrom (juteInt version) (-1)⟩ := by
    rw [readData, Proc.bind_ok (readInt_jute ..)]
    rfl
  rw [readSetData, TxnBody.encode, juteBuffer, Proc.bind_ok (readString_jute h ..),
    Proc.bind_ok hdata, Proc.bind_raised hshort]

theorem readSetAcl_jute {path : Bytes} {acls : List AclEntry} {version : BitVec 32}
    (h : (TxnBody.setAcl path acls version).encode.length < 2 ^ 31) :
    readSetAcl ⟨initial, body, (TxnBody.setAcl path acls version).encode⟩ =
      .ok (.setAcl ⟨path⟩ (acls.map AclEntry.parsed) version.toInt) ⟨initial, body, []⟩ := by
  simp only [TxnBody.encode, juteString, List.length_append, length_juteInt] at h
  rw [readSetAcl, TxnBody.encode, Proc.bind_ok (readString_jute (by omega) ..),
    Proc.bind_ok (readAcls_jute (by omega) ..), ← List.append_nil (juteInt version),
    Proc.bind_ok (readInt_jute ..)]
  rfl

theorem readSessionCreate_jute (timeout : BitVec 32) :
    readSessionCreate ⟨initial, body, juteInt timeout⟩ =
      .ok (.sessionCreate timeout.toInt) ⟨initial, body, []⟩ := by
  rw [readSessionCreate, ← List.append_nil (juteInt timeout), Proc.bind_ok (readInt_jute ..)]
  rfl

theorem readError_jute (err : BitVec 32) :
    readError ⟨initial, body, juteInt err⟩ = .ok (.error err.toInt) ⟨initial, body, []⟩ := by
  rw [readError, ← List.append_nil (juteInt err), Proc.bind_ok (readInt_jute ..)]
  rfl

end Entries

/-- The type as the parser reads it. -/
theorem type_toInt (b : TxnBody) : b.type.toInt = b.opcode := by
  cases b <;> rfl

/-! The dispatch on a listed type, one equation for each. -/

/-- The reader for each type of record. -/
theorem readEntry_CREATE : readEntry CREATE = some <$> readCreate := rfl

theorem readEntry_DELETE : readEntry DELETE = some <$> readDelete := rfl

theorem readEntry_SETDATA : readEntry SETDATA = some <$> readSetData := rfl

theorem readEntry_SETACL : readEntry SETACL = some <$> readSetAcl := rfl

theorem readEntry_SESSIONCREATE : readEntry SESSIONCREATE = some <$> readSessionCreate := rfl

theorem readEntry_SESSIONCLOSE : readEntry SESSIONCLOSE = pure (some .sessionClose) := rfl

theorem readEntry_ERROR : readEntry ERROR = some <$> readError := rfl

theorem readEntry_MULTI : readEntry MULTI = pure none := rfl

/-- **Every listed body parses**, null values apart. The entry is dropped exactly
when it is a session record, and it formats exactly when it is not an error
without a name. -/
theorem readEntry_listed {b : TxnBody} (hfits : b.encode.length < 2 ^ 31) (hlisted : b.listed)
    (hnull : b.setsNull = false) (initial : Bytes) :
    ∃ entry record, readEntry b.opcode ⟨initial, b.encode, b.encode⟩ = .ok entry record ∧
      isDropped b.opcode entry = b.session ∧ entryFormats entry = !b.unnamedError := by
  cases b with
  | create c =>
    obtain ⟨entry, record, hok⟩ := readCreate_ok hfits initial
    obtain ⟨path, data, acls, rfl⟩ := readCreate_ok_inv hok
    rw [TxnBody.opcode, readEntry_CREATE]
    exact ⟨_, _, map_ok hok, rfl, rfl⟩
  | delete path =>
    rw [TxnBody.opcode, readEntry_DELETE]
    exact ⟨_, _, map_ok (readDelete_jute hfits), rfl, rfl⟩
  | setData path data version =>
    cases data with
    | none => cases hnull
    | some data =>
      rw [TxnBody.opcode, readEntry_SETDATA]
      exact ⟨_, _, map_ok (readSetData_jute hfits), rfl, rfl⟩
  | setAcl path acls version =>
    rw [TxnBody.opcode, readEntry_SETACL]
    exact ⟨_, _, map_ok (readSetAcl_jute hfits), rfl, rfl⟩
  | createSession timeout =>
    rw [TxnBody.opcode, readEntry_SESSIONCREATE]
    exact ⟨_, _, map_ok (readSessionCreate_jute timeout), rfl, rfl⟩
  | closeSession body =>
    rw [TxnBody.opcode, readEntry_SESSIONCLOSE]
    exact ⟨_, _, Proc.pure_apply .., rfl, rfl⟩
  | error err =>
    rw [TxnBody.opcode, readEntry_ERROR]
    exact ⟨_, _, map_ok (readError_jute err), rfl, by simp [entryFormats, TxnBody.unnamedError]⟩
  | multi body =>
    rw [TxnBody.opcode, readEntry_MULTI]
    exact ⟨_, _, Proc.pure_apply .., rfl, rfl⟩
  | create2 c => cases hlisted
  | other type body unlisted =>
    exact absurd (List.contains_iff_mem.mp hlisted) fun h => unlisted (List.mem_cons_of_mem _ h)

/-- A record that sets a null value cannot be read. -/
theorem readEntry_setsNull {b : TxnBody} (hfits : b.encode.length < 2 ^ 31) (hnull : b.setsNull)
    (initial body : Bytes) :
    ∃ record, readEntry b.opcode ⟨initial, body, b.encode⟩ = .raised .structError record := by
  cases b with
  | setData path data version =>
    cases data with
    | none =>
      simp only [TxnBody.encode, juteString, List.length_append] at hfits
      have hpath : path.length < 2 ^ 31 := by omega
      obtain ⟨record, hraised⟩ := readSetData_null initial body version hpath
      rw [TxnBody.opcode, readEntry_SETDATA]
      exact ⟨record, Proc.bind_raised hraised⟩
    | some data => cases hnull
  | _ => cases hnull

/-- A type outside the list stops the parser. -/
theorem readEntry_unlisted {b : TxnBody} (h : b.listed = false) (record : TransactionData) :
    readEntry b.opcode record = .raised (.unknownType b.opcode) record := by
  have hne : ∀ t ∈ listedTypes, b.opcode ≠ t := by
    rintro t ht rfl
    rw [TxnBody.listed, List.contains_iff_mem.mpr ht] at h
    cases h
  simp only [listedTypes, List.forall_mem_cons] at hne
  simp only [readEntry, hne, if_false, Proc.raise_apply]

end QubershipZookeeper
