import Mathlib.Data.List.GetD
import Mathlib.Data.List.Nodup
import QubershipZookeeper.Codec

/-!
# Text files and the character set of stored values

Two conversions stand between a znode's bytes and the file it is stored in:

* code page 437, which gives every byte a character (`cp437Decode`,
  `cp437Encode`);
* a file in text mode, which writes characters in the encoding of the locale and
  reads them back with every line end turned into a newline (`Locale`,
  `universalNewlines`).

The first loses nothing (`cp437Encode_decode`). The second does, and the results
at the end say exactly when (`universalNewlines_eq_self_iff`,
`encode_universalNewlines_eq_self_iff`).
-/

namespace QubershipZookeeper

/-! ## Code page 437 -/

/-- The characters of the upper half, as code points. -/
def cp437Upper : List ℕ :=
  [0x00C7, 0x00FC, 0x00E9, 0x00E2, 0x00E4, 0x00E0, 0x00E5, 0x00E7,
   0x00EA, 0x00EB, 0x00E8, 0x00EF, 0x00EE, 0x00EC, 0x00C4, 0x00C5,
   0x00C9, 0x00E6, 0x00C6, 0x00F4, 0x00F6, 0x00F2, 0x00FB, 0x00F9,
   0x00FF, 0x00D6, 0x00DC, 0x00A2, 0x00A3, 0x00A5, 0x20A7, 0x0192,
   0x00E1, 0x00ED, 0x00F3, 0x00FA, 0x00F1, 0x00D1, 0x00AA, 0x00BA,
   0x00BF, 0x2310, 0x00AC, 0x00BD, 0x00BC, 0x00A1, 0x00AB, 0x00BB,
   0x2591, 0x2592, 0x2593, 0x2502, 0x2524, 0x2561, 0x2562, 0x2556,
   0x2555, 0x2563, 0x2551, 0x2557, 0x255D, 0x255C, 0x255B, 0x2510,
   0x2514, 0x2534, 0x252C, 0x251C, 0x2500, 0x253C, 0x255E, 0x255F,
   0x255A, 0x2554, 0x2569, 0x2566, 0x2560, 0x2550, 0x256C, 0x2567,
   0x2568, 0x2564, 0x2565, 0x2559, 0x2558, 0x2552, 0x2553, 0x256B,
   0x256A, 0x2518, 0x250C, 0x2588, 0x2584, 0x258C, 0x2590, 0x2580,
   0x03B1, 0x00DF, 0x0393, 0x03C0, 0x03A3, 0x03C3, 0x00B5, 0x03C4,
   0x03A6, 0x0398, 0x03A9, 0x03B4, 0x221E, 0x03C6, 0x03B5, 0x2229,
   0x2261, 0x00B1, 0x2265, 0x2264, 0x2320, 0x2321, 0x00F7, 0x2248,
   0x00B0, 0x2219, 0x00B7, 0x221A, 0x207F, 0x00B2, 0x25A0, 0x00A0]

/-- The character of a byte. -/
def cp437Char (b : UInt8) : Char :=
  Char.ofNat (if b.toNat < 128 then b.toNat else cp437Upper.getD (b.toNat - 128) 0)

/-- The byte of a character, if it has one. -/
def cp437Byte (c : Char) : Option UInt8 :=
  if c.toNat < 128 then some (UInt8.ofNat c.toNat)
  else (cp437Upper.idxOf? c.toNat).map fun i => UInt8.ofNat (i + 128)

/-- `bytes.decode("cp437")`. -/
def cp437Decode (bytes : Bytes) : List Char := bytes.map cp437Char

/-- `text.encode("cp437")`; `none` is a `UnicodeEncodeError`. -/
def cp437Encode : List Char → Option Bytes
  | [] => some []
  | c :: cs => do
    let b ← cp437Byte c
    let bs ← cp437Encode cs
    pure (b :: bs)

/-- No character stands twice in the upper half of the code page. -/
theorem cp437Upper_nodup : cp437Upper.Nodup := by decide +kernel

/-- Its characters are not ASCII, and none is a surrogate. -/
theorem cp437Upper_range : ∀ n ∈ cp437Upper, 128 ≤ n ∧ n < 0xd800 := by decide +kernel

theorem length_cp437Upper : cp437Upper.length = 128 := by rfl

theorem toNat_charOfNat {n : ℕ} (h : n < 0xd800) : (Char.ofNat n).toNat = n := by
  have hvalid : n.isValidChar := .inl h
  rw [Char.ofNat, dif_pos hvalid]
  rfl

/-- Every byte can be written back. -/
theorem cp437Byte_char (b : UInt8) : cp437Byte (cp437Char b) = some b := by
  have hb := b.toNat_lt
  by_cases h : b.toNat < 128
  · have hchar : (cp437Char b).toNat = b.toNat := by
      rw [cp437Char, if_pos h, toNat_charOfNat (by omega)]
    rw [cp437Byte, hchar, if_pos h, UInt8.ofNat_toNat]
  · have hlt : b.toNat - 128 < cp437Upper.length := by
      rw [length_cp437Upper]
      omega
    have hget : cp437Upper.getD (b.toNat - 128) 0 = cp437Upper[b.toNat - 128] :=
      List.getD_eq_getElem _ _ hlt
    have hrange := cp437Upper_range _ (List.getElem_mem hlt)
    have hchar : (cp437Char b).toNat = cp437Upper[b.toNat - 128] := by
      rw [cp437Char, if_neg h, hget, toNat_charOfNat hrange.2]
    have hidx : cp437Upper.idxOf? cp437Upper[b.toNat - 128] = some (b.toNat - 128) := by
      refine List.idxOf?_eq_some_iff.mpr ⟨hlt, rfl, fun j hj heq => ?_⟩
      exact hj.ne ((cp437Upper_nodup.getElem_inj_iff).mp heq)
    rw [cp437Byte, hchar, if_neg (by omega), hidx, Option.map_some,
      Nat.sub_add_cancel (by omega), UInt8.ofNat_toNat]

/-- A character that can be written is the character of its byte. -/
theorem cp437Char_of_byte {c : Char} {b : UInt8} (h : cp437Byte c = some b) :
    cp437Char b = c := by
  rw [cp437Byte] at h
  split at h
  · rename_i hlt
    cases h
    rw [cp437Char, UInt8.toNat_ofNat', Nat.mod_eq_of_lt (by omega), if_pos hlt, Char.ofNat_toNat]
  · obtain ⟨i, hi, rfl⟩ := Option.map_eq_some_iff.mp h
    obtain ⟨hlt, hget, -⟩ := List.idxOf?_eq_some_iff.mp hi
    rw [length_cp437Upper] at hlt
    rw [cp437Char, UInt8.toNat_ofNat', Nat.mod_eq_of_lt (by omega), if_neg (by omega),
      Nat.add_sub_cancel, List.getD_eq_getElem _ _ (by rwa [length_cp437Upper]), hget,
      Char.ofNat_toNat]

/-- **Code page 437 loses nothing.** -/
theorem cp437Encode_decode (bytes : Bytes) : cp437Encode (cp437Decode bytes) = some bytes := by
  induction bytes with
  | nil => rfl
  | cons b bs ih =>
    have ih' : cp437Encode (bs.map cp437Char) = some bs := ih
    simp [cp437Decode, cp437Encode, cp437Byte_char, ih']

/-- What was written decodes to the text it was made from. -/
theorem cp437Decode_of_encode {text : List Char} {bytes : Bytes}
    (h : cp437Encode text = some bytes) : cp437Decode bytes = text := by
  induction text generalizing bytes with
  | nil =>
    cases h
    rfl
  | cons c cs ih =>
    simp only [cp437Encode, Option.bind_eq_bind, Option.bind_eq_some_iff, Option.pure_def,
      Option.some.injEq] at h
    obtain ⟨b, hb, bs, hbs, rfl⟩ := h
    rw [cp437Decode, List.map_cons, cp437Char_of_byte hb]
    exact congrArg _ (ih hbs)

/-- A character is in the text exactly if its byte is in the file. -/
theorem mem_cp437Decode {b : UInt8} {bytes : Bytes} :
    cp437Char b ∈ cp437Decode bytes ↔ b ∈ bytes := by
  constructor
  · intro h
    obtain ⟨b', hb', heq⟩ := List.mem_map.mp h
    have hbyte := cp437Byte_char b
    rw [← heq, cp437Byte_char] at hbyte
    rwa [← Option.some.inj hbyte]
  · exact List.mem_map_of_mem

/-! ## Text mode -/

/-- The translation of line ends when a text file is read with the default
`newline=None`. Writing on this platform leaves a newline as it is. -/
def universalNewlines : List Char → List Char
  | [] => []
  | '\r' :: '\n' :: cs => '\n' :: universalNewlines cs
  | '\r' :: cs => '\n' :: universalNewlines cs
  | c :: cs => c :: universalNewlines cs

/-- No carriage return is ever read. -/
theorem return_notMem_universalNewlines (text : List Char) :
    '\r' ∉ universalNewlines text := by
  fun_induction universalNewlines text with
  | case1 => simp
  | case2 cs ih => simpa using ih
  | case3 cs _ ih => simpa using ih
  | case4 c cs _ hne ih =>
    rw [List.mem_cons, not_or]
    exact ⟨fun h => hne h.symm, ih⟩

/-- **Text mode loses carriage returns, and nothing else.** -/
theorem universalNewlines_eq_self_iff {text : List Char} :
    universalNewlines text = text ↔ '\r' ∉ text := by
  constructor
  · intro h
    rw [← h]
    exact return_notMem_universalNewlines text
  · intro h
    fun_induction universalNewlines text with
    | case1 => rfl
    | case2 cs ih => simp at h
    | case3 cs _ ih => simp at h
    | case4 c cs _ hne ih => rw [ih (fun hc => h (List.mem_cons_of_mem _ hc))]

/-- **Which values a text file gives back**: those without a carriage return. -/
theorem encode_universalNewlines_eq_self_iff (value : Bytes) :
    cp437Encode (universalNewlines (cp437Decode value)) = some value ↔ (0x0d : UInt8) ∉ value := by
  have hreturn : cp437Char 0x0d = '\r' := by decide
  constructor
  · intro h hmem
    have htext := cp437Decode_of_encode h
    rw [← mem_cp437Decode, hreturn, htext] at hmem
    exact return_notMem_universalNewlines _ hmem
  · intro h
    have hnone : '\r' ∉ cp437Decode value := by rwa [← hreturn, mem_cp437Decode]
    rw [universalNewlines_eq_self_iff.mpr hnone, cp437Encode_decode]

/-- The encoding of the locale, used for files in text mode: the same for reading
and writing, and able to hold every character of code page 437. -/
structure Locale : Type where
  /-- characters to bytes; `none` is a `UnicodeEncodeError` -/
  encode : List Char → Option Bytes
  /-- bytes to characters; `none` is a `UnicodeDecodeError` -/
  decode : Bytes → Option (List Char)
  /-- what is written can be read -/
  decode_encode : ∀ text, (∀ c ∈ text, (cp437Byte c).isSome = true) →
    ∃ bytes, encode text = some bytes ∧ decode bytes = some text

/-- The locale can write every value, and read what it wrote. -/
theorem Locale.encode_value (loc : Locale) (value : Bytes) :
    ∃ data, loc.encode (cp437Decode value) = some data ∧
      loc.decode data = some (cp437Decode value) := by
  refine loc.decode_encode _ fun c hc => ?_
  obtain ⟨b, -, rfl⟩ := List.mem_map.mp hc
  rw [cp437Byte_char]
  rfl

/-- The usual locale, in UTF-8. -/
def Locale.utf8 : Locale where
  encode text := some (String.ofList text).toByteArray.data.toList
  decode bytes := (ByteArray.mk bytes.toArray).utf8Decode?.map Array.toList
  decode_encode text _ := by
    refine ⟨_, rfl, ?_⟩
    rw [Array.toArray_toList, ← String.utf8Encode_toList, String.toList_ofList]
    exact congrArg _ List.utf8Decode?_utf8Encode

end QubershipZookeeper
