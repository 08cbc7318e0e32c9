import QubershipZookeeper.TransactionLogFormat

/-!
# Which bodies the parser reads back

The readers of single fields invert the encoding of their fields
(`TransactionLogFormat`). This file is about whole bodies. `TxnCreate` first
reads a body as if it had no data field, so that the length of the data is taken
for the number of access control entries, and starts over only if that fails.
The first attempt succeeds exactly on the bodies that happen to start with so
many entries (`readAclsLoop_ok_iff`), and then the result is wrong.
-/

namespace QubershipZookeeper

open Codec

/-! ## What was read had been written

The converse of the lemmas about fields: a reader that succeeds has consumed the
encoding of what it returns. -/

section Inversion

variable {record record' : TransactionData}

/-- What a reader that returned has read: the fields are in front of what is left. -/
theorem readFields_ok_inv {fs : List Format} {fields : List ℤ}
    (h : readFields fs record = .ok fields record') :
    ∃ part, part.length = Format.sizes fs ∧ record.rest = part ++ record'.rest ∧
      fields = Format.decodeAll fs part := by
  obtain ⟨part, r, hread, hunpack⟩ := Proc.bind_ok_inv h
  obtain ⟨hok, rfl⟩ := Proc.lift_ok_inv hunpack
  cases hread
  rw [Format.unpack] at hok
  split at hok
  · rename_i hlen
    cases hok
    refine ⟨_, hlen, ?_, rfl⟩
    simp [sliceTo, sliceFrom]
  · cases hok

/-- Any four bytes are a number. -/
theorem exists_juteInt {part : Bytes} (h : part.length = 4) : ∃ v, part = juteInt v := by
  have hlt := bytesToNat_lt part
  have hback := natToBytes_bytesToNat part
  rw [h] at hlt hback
  refine ⟨BitVec.ofNat 32 (bytesToNat part), ?_⟩
  rw [juteInt, BitVec.toNat_ofNat, Nat.mod_eq_of_lt (by omega), hback]

/-- A number that was read is in front of what is left. -/
theorem readInt_ok_inv {n : ℤ} (h : readInt record = .ok n record') :
    ∃ v : BitVec 32, record.rest = juteInt v ++ record'.rest ∧ n = v.toInt := by
  obtain ⟨fields, r, hfields, hpure⟩ := Proc.bind_ok_inv h
  obtain ⟨rfl, rfl⟩ := Proc.pure_ok_inv hpure
  obtain ⟨part, hlen, hrest, rfl⟩ := readFields_ok_inv hfields
  obtain ⟨v, rfl⟩ := exists_juteInt hlen
  exact ⟨v, hrest, by rw [decodeAll_juteInt]; rfl⟩

/-- A string that was read is in front of what is left. -/
theorem readString_ok_inv {s : StringTuple} (h : readString record = .ok s record') :
    record.rest = juteString s.item ++ record'.rest := by
  obtain ⟨length, r, hint, h⟩ := Proc.bind_ok_inv h
  obtain ⟨v, hrest, rfl⟩ := readInt_ok_inv hint
  split at h
  · cases h
  · rename_i hnonneg
    obtain ⟨part, r', hread, h⟩ := Proc.bind_ok_inv h
    cases hread
    split at h
    · rename_i hlen
      obtain ⟨rfl, rfl⟩ := Proc.pure_ok_inv h
      have hv : BitVec.ofNat 32 (sliceTo r.rest v.toInt).length = v := by
        rw [hlen]
        apply BitVec.eq_of_toInt_eq
        have hlt := BitVec.toInt_lt (x := v)
        rw [toInt_ofNat_length (by omega)]
        omega
      rw [hrest, juteString, hv, List.append_assoc]
      simp [sliceTo, sliceFrom, not_lt.mp hnonneg]
    · cases h

/-- An entry of an access list that was read is in front of what is left. -/
theorem readAcl_ok_inv {acl : Acl} (h : readAcl record = .ok acl record') :
    ∃ entry : AclEntry, record.rest = juteAcl entry ++ record'.rest ∧ acl = entry.parsed := by
  obtain ⟨perms, r₁, hperms, h⟩ := Proc.bind_ok_inv h
  obtain ⟨scheme, r₂, hscheme, h⟩ := Proc.bind_ok_inv h
  obtain ⟨id, r₃, hid, h⟩ := Proc.bind_ok_inv h
  obtain ⟨rfl, rfl⟩ := Proc.pure_ok_inv h
  obtain ⟨v, hrest, rfl⟩ := readInt_ok_inv hperms
  refine ⟨⟨v, scheme.item, id.item⟩, ?_, rfl⟩
  rw [hrest, readString_ok_inv hscheme, readString_ok_inv hid, juteAcl]
  simp only [List.append_assoc]

/-- And so is a list of them, entry by entry. -/
theorem readAclsLoop_ok_inv {n : ℕ} {acls : List Acl}
    (h : readAclsLoop n record = .ok acls record') :
    ∃ entries : List AclEntry, entries.length = n ∧
      record.rest = entries.flatMap juteAcl ++ record'.rest ∧
        acls = entries.map AclEntry.parsed := by
  induction n generalizing record acls with
  | zero =>
    obtain ⟨rfl, rfl⟩ := Proc.pure_ok_inv h
    exact ⟨[], rfl, rfl, rfl⟩
  | succ n ih =>
    obtain ⟨acl, r, hacl, h⟩ := Proc.bind_ok_inv h
    obtain ⟨rest, r', hloop, h⟩ := Proc.bind_ok_inv h
    obtain ⟨rfl, rfl⟩ := Proc.pure_ok_inv h
    obtain ⟨entry, hentry, rfl⟩ := readAcl_ok_inv hacl
    obtain ⟨entries, rfl, hentries, rfl⟩ := ih hloop
    refine ⟨entry :: entries, rfl, ?_, rfl⟩
    rw [hentry, hentries, List.flatMap_cons, List.append_assoc]

theorem readBool_ok_inv {b : Bool} (h : readBool record = .ok b record') :
    ∃ byte, record.rest = byte :: record'.rest := by
  obtain ⟨fields, r, hfields, hpure⟩ := Proc.bind_ok_inv h
  obtain ⟨-, rfl⟩ := Proc.pure_ok_inv hpure
  obtain ⟨part, hlen, hrest, -⟩ := readFields_ok_inv hfields
  obtain ⟨byte, rfl⟩ := List.length_eq_one_iff.mp hlen
  exact ⟨byte, hrest⟩

end Inversion

/-! ## The first attempt of `TxnCreate` -/

/-- The bytes start with `n` encoded access control entries and have at least one
byte more. -/
def StartsWithAcls (n : ℕ) (bytes : Bytes) : Prop :=
  ∃ (entries : List AclEntry) (byte : UInt8) (rest : Bytes),
    entries.length = n ∧ bytes = entries.flatMap juteAcl ++ byte :: rest

section FirstAttempt

variable {c : CreateBody} {data : Bytes}

/-- **When the wrong reading succeeds.** The body without its data field is read to
the end exactly if the data and what follows look like as many access control
entries as the data has bytes. -/
theorem readCreateWithoutData_ok_iff (h : c.encode.length < 2 ^ 31) (hdata : c.data = some data)
    (initial body : Bytes) :
    (∃ entry record, readCreateWithoutData ⟨initial, body, c.encode⟩ = .ok entry record)
      ↔ StartsWithAcls data.length (data ++ c.tail) := by
  obtain ⟨hpath, hbuffer, -⟩ := length_parts_of_fits h
  rw [hdata, juteBuffer, juteString, List.length_append, length_juteInt] at hbuffer
  have hbody : c.encode = juteString c.path
      ++ (juteInt (BitVec.ofNat 32 data.length) ++ (data ++ c.tail)) := by
    rw [CreateBody.encode, hdata, juteBuffer, juteString, juteString]
    simp only [List.append_assoc]
  -- the length of the data stands where the number of the entries is read
  have hcount : ((BitVec.ofNat 32 data.length).toInt).toNat = data.length := by
    rw [toInt_ofNat_length (by omega), Int.toNat_natCast]
  constructor
  · rintro ⟨entry, record, hok⟩
    rw [hbody, readCreateWithoutData, Proc.bind_ok (readString_jute hpath ..)] at hok
    obtain ⟨acls, r, hacls, hok⟩ := Proc.bind_ok_inv hok
    obtain ⟨b, r', hbool, -⟩ := Proc.bind_ok_inv hok
    rw [readAcls, Proc.bind_ok (readInt_jute ..), hcount] at hacls
    obtain ⟨entries, hlen, hrest, -⟩ := readAclsLoop_ok_inv hacls
    obtain ⟨byte, hbyte⟩ := readBool_ok_inv hbool
    exact ⟨entries, byte, r'.rest, hlen, by rw [← hbyte, ← hrest]⟩
  · rintro ⟨entries, byte, rest, hlen, hrest⟩
    have hsmall : (entries.flatMap juteAcl).length < 2 ^ 31 := by
      have := congrArg List.length hrest
      rw [hbody] at h
      simp only [List.length_append, List.length_cons] at this h
      omega
    have hacls : readAcls ⟨initial, body, juteInt (BitVec.ofNat 32 data.length) ++ (data ++ c.tail)⟩
        = .ok (entries.map AclEntry.parsed) ⟨initial, body, byte :: rest⟩ := by
      rw [readAcls, Proc.bind_ok (readInt_jute ..), hcount, ← hlen, hrest,
        readAclsLoop_jute hsmall]
    refine ⟨.create ⟨c.path⟩ [] (entries.map AclEntry.parsed) false, ⟨initial, body, rest⟩, ?_⟩
    rw [hbody, readCreateWithoutData, Proc.bind_ok (readString_jute hpath ..),
      Proc.bind_ok hacls, Proc.bind_ok (readBool_cons ..)]
    rfl

end FirstAttempt

/-! ## Round trips of whole bodies -/

namespace TxnBody

/-- Is the body parsed field by field? -/
def fieldwise : TxnBody → Bool
  | create _ | delete _ | setData .. | setAcl .. | createSession _ | error _ => true
  | _ => false

/-- The entry has the fields of the body, a null buffer being nothing; and for a
create the unread bytes are those after the flag, so that the flag was read where
it had been put. A path, a scheme or an id is there as `read_string` returns it:
as the tuple whose only item is the string. -/
def Matches : TxnBody → TxnEntry → Bytes → Prop
  | create c, .create path data acls _, rest =>
    path = ⟨c.path⟩ ∧ data = c.data.getD [] ∧ acls = c.acls.map AclEntry.parsed ∧
      rest = (c.parentCVersion.map juteInt).getD []
  | delete path, .delete path', _ => path' = ⟨path⟩
  | setData path data version, .setData path' data' version', _ =>
    path' = ⟨path⟩ ∧ data' = data.getD [] ∧ version' = version.toInt
  | setAcl path acls version, .setAcl path' acls' version', _ =>
    path' = ⟨path⟩ ∧ acls' = acls.map AclEntry.parsed ∧ version' = version.toInt
  | createSession timeout, .sessionCreate timeout', _ => timeout' = timeout.toInt
  | error err, .error err', _ => err' = err.toInt
  | _, _, _ => False

/-- The body can be read in one way only: the data of a create is not null, and it
does not look, with what follows it, like as many access control entries as it
has bytes; a new value is not null. -/
def Unambiguous : TxnBody → Prop
  | create c => ∃ data, c.data = some data ∧ ¬ StartsWithAcls data.length (data ++ c.tail)
  | setData _ data _ => data ≠ none
  | _ => True

end TxnBody

/-- The parser, at a body that it parses field by field, returns what was logged. -/
def ReadsBack (initial : Bytes) (b : TxnBody) : Prop :=
  b.fieldwise → ∃ entry record,
    readEntry b.opcode ⟨initial, b.encode, b.encode⟩ = .ok (some entry) record ∧
      b.Matches entry record.rest

section ReadsBack

variable {c : CreateBody} {initial : Bytes}

/-- A create that was read was read by the reader of creates. -/
theorem readEntry_CREATE_ok_inv {record record' : TransactionData} {entry : TxnEntry}
    (h : readEntry CREATE record = .ok (some entry) record') :
    readCreate record = .ok entry record' := by
  rw [readEntry_CREATE] at h
  obtain ⟨e, r, hread, hpure⟩ := Proc.bind_ok_inv h
  obtain ⟨heq, rfl⟩ := Proc.pure_ok_inv hpure
  cases heq
  exact hread

/-- The second attempt at a create finds no data. -/
theorem readCreateWithoutData_ok_inv {record record' : TransactionData} {entry : TxnEntry}
    (h : readCreateWithoutData record = .ok entry record') :
    ∃ path acls, entry = .create path [] acls false := by
  obtain ⟨path, r₁, -, h₁⟩ := Proc.bind_ok_inv h
  obtain ⟨acls, r₂, -, h₂⟩ := Proc.bind_ok_inv h₁
  obtain ⟨ephemeral, r₃, hbool, h₃⟩ := Proc.bind_ok_inv h₂
  obtain rfl := readBool_eq_false hbool
  exact ⟨path, acls, (Proc.pure_ok_inv h₃).1⟩

/-- If the first attempt fails, the second one returns what was logged. -/
theorem readCreate_of_raised (initial : Bytes) (h : c.encode.length < 2 ^ 31) {data : Bytes}
    (hdata : c.data = some data)
    (hfirst : ¬ ∃ entry record, readCreateWithoutData ⟨initial, c.encode, c.encode⟩
      = .ok entry record) :
    ∃ initial', readCreate ⟨initial, c.encode, c.encode⟩ =
      .ok (.create ⟨c.path⟩ data (c.acls.map AclEntry.parsed) false)
        ⟨initial', c.encode, (c.parentCVersion.map juteInt).getD []⟩ := by
  rcases hattempt : readCreateWithoutData ⟨initial, c.encode, c.encode⟩ with
    ⟨entry, t⟩ | ⟨e, ⟨initial', body', rest'⟩⟩
  · exact absurd ⟨entry, t, hattempt⟩ hfirst
  · obtain rfl : e = .structError := readCreateWithoutData_raises _ _ _ hattempt
    obtain rfl : body' = c.encode := readCreateWithoutData_keepsBody.raised hattempt
    exact ⟨initial', (Proc.recover_handled hattempt rfl).trans
      (readCreateWithData_some h hdata initial' rest')⟩

/-- An empty or a null buffer: the flag is read out of the length of the access
control list. -/
theorem not_matches_empty (h : c.encode.length < 2 ^ 31) {count : BitVec 32}
    (hdata : juteBuffer c.data = juteInt count) (hcount : count.toInt ≤ 0)
    {entry : TxnEntry} {record : TransactionData}
    (hread : readCreate ⟨initial, c.encode, c.encode⟩ = .ok entry record) :
    ¬ (TxnBody.create c).Matches entry record.rest := by
  rw [readCreate, Proc.recover_ok (readCreateWithoutData_empty h hdata hcount ..)] at hread
  cases hread
  rintro ⟨-, -, -, hrest⟩
  have hlen := congrArg List.length hrest
  simp only [CreateBody.tail, juteAcls, juteBool, List.length_tail, List.length_append,
    length_juteInt, List.length_singleton] at hlen
  omega

/-- A create is read back exactly if its body is not ambiguous. -/
theorem readsBack_create_iff (initial : Bytes) (h : c.encode.length < 2 ^ 31) :
    (∃ entry record, readCreate ⟨initial, c.encode, c.encode⟩ = .ok entry record ∧
      (TxnBody.create c).Matches entry record.rest) ↔ (TxnBody.create c).Unambiguous := by
  constructor
  · rintro ⟨entry, record, hread, hmatches⟩
    rcases hdata : c.data with - | data
    · have hnull : juteBuffer c.data = juteInt (-1) := by rw [hdata, juteBuffer]
      exact absurd hmatches (not_matches_empty h hnull (by decide) hread)
    · refine ⟨data, hdata, fun hstarts => ?_⟩
      -- the first attempt succeeds and returns no data
      obtain ⟨entry', record', hfirst⟩ :=
        (readCreateWithoutData_ok_iff h hdata initial c.encode).mpr hstarts
      have hsame : entry' = entry ∧ record' = record := by
        rw [readCreate, Proc.recover_ok hfirst] at hread
        cases hread
        exact ⟨rfl, rfl⟩
      obtain ⟨rfl, rfl⟩ := hsame
      obtain ⟨path, acls, rfl⟩ := readCreateWithoutData_ok_inv hfirst
      have hempty : data = [] := by
        have hnil : [] = c.data.getD [] := hmatches.2.1
        rw [hdata] at hnil
        exact hnil.symm
      have hzero : juteBuffer c.data = juteInt 0 := by rw [hdata, hempty]; rfl
      exact not_matches_empty h hzero (by decide) hread hmatches
  · rintro ⟨data, hdata, hstarts⟩
    obtain ⟨initial', hread⟩ := readCreate_of_raised initial h hdata
      (mt (readCreateWithoutData_ok_iff h hdata initial c.encode).mp hstarts)
    exact ⟨_, _, hread, rfl, by rw [hdata]; rfl, rfl, rfl⟩

/-- A body that is parsed, and as it should be. -/
theorem readsBack_of_ok {b : TxnBody} {m : Reader TxnEntry} {entry : TxnEntry}
    {record : TransactionData} (hentry : readEntry b.opcode = some <$> m)
    (hread : m ⟨initial, b.encode, b.encode⟩ = .ok entry record)
    (hmatches : b.Matches entry record.rest) : ReadsBack initial b := by
  intro _
  rw [hentry]
  exact ⟨entry, record, map_ok hread, hmatches⟩

end ReadsBack

/-- **Which bodies are read back**, every string in the tuple that `read_string`
returns. Deletes, new access control lists, new sessions and errors always; a new
value unless it is null; a create unless its data can be taken for access control
entries, which an empty or a null one always can. -/
theorem readsBack_iff (r : LogRecord) : ReadsBack r.payload r.body ↔ r.body.Unambiguous := by
  have hfits : r.body.encode.length < 2 ^ 31 := Nat.lt_of_add_right_lt r.fits
  generalize r.payload = initial, r.body = b at hfits ⊢
  cases b with
  | create c =>
    rw [← readsBack_create_iff initial hfits]
    constructor
    · intro h
      obtain ⟨entry, record, hread, hmatches⟩ := h rfl
      exact ⟨entry, record, readEntry_CREATE_ok_inv hread, hmatches⟩
    · rintro ⟨entry, record, hread, hmatches⟩
      exact readsBack_of_ok readEntry_CREATE hread hmatches
  | delete path =>
    exact iff_of_true (readsBack_of_ok readEntry_DELETE (readDelete_jute hfits) rfl) trivial
  | setData path data version =>
    cases data with
    | some data =>
      exact iff_of_true (readsBack_of_ok readEntry_SETDATA (readSetData_jute hfits) ⟨rfl, rfl, rfl⟩)
        (Option.some_ne_none data)
    | none =>
      refine iff_of_false (fun h => ?_) (fun h => h rfl)
      obtain ⟨entry, record, hread, -⟩ := h rfl
      obtain ⟨record', hraised⟩ := readEntry_setsNull hfits rfl initial
        (TxnBody.setData path none version).encode
      rw [hraised] at hread
      cases hread
  | setAcl path acls version =>
    exact iff_of_true
      (readsBack_of_ok readEntry_SETACL (readSetAcl_jute hfits) ⟨rfl, rfl, rfl⟩) trivial
  | createSession timeout =>
    exact iff_of_true
      (readsBack_of_ok readEntry_SESSIONCREATE (readSessionCreate_jute timeout) rfl) trivial
  | error err =>
    exact iff_of_true (readsBack_of_ok readEntry_ERROR (readError_jute err) rfl) trivial
  -- none of these is parsed field by field
  | closeSession | multi | create2 | other => exact iff_of_true (fun h => by cases h) trivial

/-- The creation of `/a` with an empty value and one access control entry. -/
def emptyBody : CreateBody where
  path := [47, 97]
  data := some []
  acls := [⟨31, [119], [97]⟩]
  ephemeral := false
  parentCVersion := some 1

@[inherit_doc emptyBody]
def emptyCreate : LogRecord where
  crc := 0
  clientId := 0
  cxid := 1
  zxid := 2
  time := 3
  body := .create emptyBody
  eor := 66
  fits := by decide

/-- The access control list is lost: the parser takes the empty value for an empty
list and stops there. -/
theorem not_readsBack_emptyCreate :
    (∃ record, readCreate ⟨emptyCreate.payload, emptyBody.encode, emptyBody.encode⟩
      = .ok (.create ⟨[47, 97]⟩ [] [] false) record) ∧
    ¬ ReadsBack emptyCreate.payload emptyCreate.body := by
  have hfits : emptyBody.encode.length < 2 ^ 31 := by decide
  have hempty : juteBuffer emptyBody.data = juteInt 0 := rfl
  refine ⟨⟨_, Proc.recover_ok (readCreateWithoutData_empty hfits hempty (by decide) _ _)⟩, ?_⟩
  intro h
  obtain ⟨entry, record, hread, hmatches⟩ := h rfl
  exact not_matches_empty hfits hempty (by decide) (readEntry_CREATE_ok_inv hread) hmatches

end QubershipZookeeper
