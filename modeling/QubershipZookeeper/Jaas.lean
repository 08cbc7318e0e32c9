import QubershipZookeeper.ShellText

/-!
# Login configurations

A login configuration as Java reads it: a text becomes words, quoted strings and symbols
(`tokens`), and these become entries with the options of a login module (`read`). A quoted
string has escapes and ends at the end of the line; comments are left out.

The reader goes through a text character by character, so a text is read part by part
(`scan_append`), and a string with nothing special in it is read back (`scan_string`).
-/

namespace Jaas

open Text

/-! ## Tokens -/

/-- A token. -/
inductive Token where
  | word (text : Text)
  | quoted (text : Text)
  | symbol (c : Char)
  deriving DecidableEq

/-- Where the reader is. -/
inductive Mode where
  /-- between two tokens -/
  | gap
  /-- in a word -/
  | word (text : Text)
  /-- in a quoted string -/
  | quoted (text : Text)
  /-- after a backslash in a quoted string -/
  | escaped (text : Text)
  /-- after the first digits of an octal escape, with the number of digits that may follow -/
  | octal (text : Text) (code more : ℕ)
  deriving DecidableEq

def isBlank (c : Char) : Bool := c.toNat ≤ 32

def isWordChar (c : Char) : Bool :=
  c.isAlphanum || c ∈ ['.', '_', '-', '$', '*'] || 0xA0 ≤ c.toNat

def isOctal (c : Char) : Bool := '0' ≤ c && c ≤ '7'

/-- The character of an escape. -/
def unescape (c : Char) : Char :=
  if c = 'a' then Char.ofNat 7
  else if c = 'b' then Char.ofNat 8
  else if c = 'f' then Char.ofNat 12
  else if c = 'n' then '\n'
  else if c = 'r' then '\r'
  else if c = 't' then '\t'
  else if c = 'v' then Char.ofNat 11
  else c

def stepGap (c : Char) : Mode × List Token :=
  if isBlank c then (.gap, [])
  else if c = '"' then (.quoted [], [])
  else if isWordChar c then (.word [c], [])
  else (.gap, [.symbol c])

def stepQuoted (text : Text) (c : Char) : Mode × List Token :=
  if c = '"' ∨ c = '\n' ∨ c = '\r' then (.gap, [.quoted text])
  else if c = '\\' then (.escaped text, [])
  else (.quoted (text ++ [c]), [])

/-- The next character: where the reader is then, and the tokens that have come to their end. -/
def step : Mode → Char → Mode × List Token
  | .gap, c => stepGap c
  | .word text, c =>
    if isWordChar c then (.word (text ++ [c]), [])
    else ((stepGap c).1, .word text :: (stepGap c).2)
  | .quoted text, c => stepQuoted text c
  | .escaped text, c =>
    if isOctal c then (.octal text (c.toNat - 48) (if c ≤ '3' then 2 else 1), [])
    else (.quoted (text ++ [unescape c]), [])
  | .octal text code more, c =>
    if isOctal c ∧ 0 < more then (.octal text (code * 8 + (c.toNat - 48)) (more - 1), [])
    else stepQuoted (text ++ [Char.ofNat code]) c

/-- The end of the text. -/
def finish : Mode → List Token
  | .gap => []
  | .word text => [.word text]
  | .quoted text | .escaped text => [.quoted text]
  | .octal text code _ => [.quoted (text ++ [Char.ofNat code])]

def scan : Mode → Text → List Token
  | mode, [] => finish mode
  | mode, c :: text => (step mode c).2 ++ scan (step mode c).1 text

/-- The tokens of a text. -/
def tokens (text : Text) : List Token := scan .gap text

/-- A part of a text: where the reader is after it, and the tokens in it. -/
def pass : Mode → Text → Mode × List Token
  | mode, [] => (mode, [])
  | mode, c :: text =>
    ((pass (step mode c).1 text).1, (step mode c).2 ++ (pass (step mode c).1 text).2)

/-- A text is read part by part. -/
theorem scan_append (mode : Mode) (text rest : Text) :
    scan mode (text ++ rest) = (pass mode text).2 ++ scan (pass mode text).1 rest := by
  induction text generalizing mode with
  | nil => rfl
  | cons c text ih =>
    rw [List.cons_append, scan, ih, pass, List.append_assoc]

/-- A text that is passed over leaves its tokens, and the scan goes on in the next mode. -/
theorem scan_of_pass {mode next : Mode} {text : Text} {out : List Token}
    (h : pass mode text = (next, out)) (rest : Text) :
    scan mode (text ++ rest) = out ++ scan next rest := by
  rw [scan_append, h]

/-- Nothing in the text is special in a quoted string. -/
def Plain (text : Text) : Prop := Avoids ['"', '\\', '\n', '\r'] text

instance (text : Text) : Decidable (Plain text) :=
  inferInstanceAs (Decidable (Avoids ['"', '\\', '\n', '\r'] text))

/-- A plain text within quotes is taken as it is. -/
theorem pass_quoted {text : Text} (h : Plain text) (before : Text) :
    pass (.quoted before) text = (.quoted (before ++ text), []) := by
  induction text generalizing before with
  | nil => rw [List.append_nil, pass]
  | cons c text ih =>
    have hc := h c List.mem_cons_self
    simp only [List.mem_cons, List.not_mem_nil, or_false, not_or] at hc
    obtain ⟨hquote, hslash, hnewline, hreturn⟩ := hc
    have hstep : step (.quoted before) c = (.quoted (before ++ [c]), []) := by
      rw [step, stepQuoted, if_neg (by simp [hquote, hnewline, hreturn]), if_neg hslash]
    rw [pass, hstep, ih fun d hd => h d (List.mem_cons_of_mem c hd), List.append_assoc]
    rfl

/-- A quoted string with nothing special in it. -/
theorem scan_string {text : Text} (h : Plain text) (rest : Text) :
    scan .gap ('"' :: (text ++ '"' :: rest)) = .quoted text :: scan .gap rest := by
  have hopen : step .gap '"' = (.quoted [], []) := by decide
  have hclose : step (.quoted text) '"' = (.gap, [.quoted text]) := rfl
  rw [scan, hopen, List.nil_append, scan_of_pass (pass_quoted h []), List.nil_append,
    List.nil_append,
    scan, hclose]
  rfl

/-! ## Entries -/

/-- The text of a word or a string. -/
def Token.text : Token → Option Text
  | .word text | .quoted text => some text
  | .symbol _ => none

/-- An entry: its name, and the options of its login module. -/
structure Entry where
  name : Text
  options : List (Text × Text)
  deriving DecidableEq

/-- Options up to a semicolon. -/
def readOptions : List Token → Option (List (Text × Text) × List Token)
  | .symbol ';' :: rest => some ([], rest)
  | key :: .symbol '=' :: value :: rest => do
    let key ← key.text
    let value ← value.text
    let (options, rest) ← readOptions rest
    pure ((key, value) :: options, rest)
  | _ => none

/-- An entry with one login module. -/
def readEntry : List Token → Option (Entry × List Token)
  | name :: .symbol '{' :: moduleName :: flag :: rest => do
    let name ← name.text
    let _ ← moduleName.text
    let _ ← flag.text
    match ← readOptions rest with
    | (options, .symbol '}' :: .symbol ';' :: rest) => pure (⟨name, options⟩, rest)
    | _ => none
  | _ => none

/-- Entries, as many as there are tokens at most. -/
def readEntries : ℕ → List Token → Option (List Entry)
  | _, [] => some []
  | 0, _ => none
  | fuel + 1, tokens => do
    let (entry, rest) ← readEntry tokens
    let entries ← readEntries fuel rest
    pure (entry :: entries)

/-- Read a configuration. -/
def read (text : Text) : Option (List Entry) := readEntries (tokens text).length (tokens text)

/-- The value of an option: the last one counts. -/
def Entry.value (entry : Entry) (key : Text) : Option Text :=
  ((entry.options.filter fun option => option.1 = key).getLast?).map Prod.snd

/-- The value of an option of the entry with a name. -/
def value (entries : List Entry) (name key : Text) : Option Text :=
  (entries.find? fun entry => entry.name = name).bind fun entry => entry.value key

/-- With different keys the first option with a key is the last one. -/
theorem Entry.value_of_nodup {entry : Entry} (h : (entry.options.map Prod.fst).Nodup) (key : Text) :
    entry.value key = (entry.options.find? fun option => option.1 = key).map Prod.snd := by
  rw [Entry.value]
  congr 1
  generalize entry.options = options at h
  induction options with
  | nil => rfl
  | cons option options ih =>
    rw [List.map_cons, List.nodup_cons] at h
    by_cases hkey : option.1 = key
    · have hrest : options.filter (fun option => option.1 = key) = [] := by
        rw [List.filter_eq_nil_iff]
        rintro other hother hsame
        refine h.1 (List.mem_map.mpr ⟨other, hother, ?_⟩)
        rw [of_decide_eq_true hsame, hkey]
      rw [List.filter_cons_of_pos (by simpa using hkey), hrest,
        List.find?_cons_of_pos (by simpa using hkey)]
      rfl
    · rw [List.filter_cons_of_neg (by simpa using hkey),
        List.find?_cons_of_neg (by simpa using hkey),
        ih h.2]

/-- The tokens of an option with a quoted value. -/
def optionTokens (key : Token) (value : Text) : List Token := [key, .symbol '=', .quoted value]

/-- One more option in front of the others. -/
theorem readOptions_option {key : Token} {name : Text} (hkey : key.text = some name) (value : Text)
    {rest after : List Token} {options : List (Text × Text)}
    (h : readOptions rest = some (options, after)) :
    readOptions (optionTokens key value ++ rest) = some ((name, value) :: options, after) := by
  cases key with
  | symbol c => cases hkey
  | word text | quoted text =>
    cases hkey
    simp only [optionTokens, List.cons_append, List.nil_append, readOptions, Token.text, h,
      Option.bind_eq_bind, Option.bind_some, Option.pure_def]

/-- Options that were written are read back. -/
theorem readOptions_options (pairs : List (Text × Text)) (rest : List Token) :
    readOptions (pairs.flatMap (fun p => optionTokens (.quoted p.1) p.2) ++ .symbol ';' :: rest) =
      some (pairs, rest) := by
  induction pairs with
  | nil => rfl
  | cons p pairs ih =>
    rw [List.flatMap_cons, List.append_assoc]
    exact readOptions_option rfl p.2 ih

/-- The tokens of an entry. -/
def entryTokens (name moduleName flag : Text) (options : List Token) : List Token :=
  [.word name, .symbol '{', .word moduleName, .word flag] ++ options ++
    [.symbol ';', .symbol '}', .symbol ';']

/-- And so is an entry around them. -/
theorem readEntry_entry (name moduleName flag : Text) {options : List Token}
    {pairs : List (Text × Text)} (rest : List Token)
    (h : ∀ rest, readOptions (options ++ .symbol ';' :: rest) = some (pairs, rest)) :
    readEntry (entryTokens name moduleName flag options ++ rest) = some (⟨name, pairs⟩, rest) := by
  have hoptions := h (.symbol '}' :: .symbol ';' :: rest)
  simp only [entryTokens, List.append_assoc, List.cons_append, List.nil_append, readEntry]
  simp only [hoptions, Token.text, Option.bind_eq_bind, Option.bind_some, Option.pure_def]

/-- Entries one after the other. -/
theorem readEntries_chunks {chunks : List (List Token × Entry)} {fuel : ℕ}
    (hfuel : chunks.length ≤ fuel)
    (h : ∀ chunk ∈ chunks, chunk.1 ≠ [] ∧
      ∀ rest, readEntry (chunk.1 ++ rest) = some (chunk.2, rest)) :
    readEntries fuel (chunks.flatMap Prod.fst) = some (chunks.map Prod.snd) := by
  induction chunks generalizing fuel with
  | nil => cases fuel <;> rfl
  | cons chunk chunks ih =>
    obtain ⟨hne, hread⟩ := h chunk List.mem_cons_self
    obtain ⟨fuel, rfl⟩ : ∃ n, fuel = n + 1 := ⟨fuel - 1, by rw [List.length_cons] at hfuel; omega⟩
    have hrest : readEntries fuel (chunks.flatMap Prod.fst) = some (chunks.map Prod.snd) :=
      ih (by rw [List.length_cons] at hfuel; omega) fun c hc => h c (List.mem_cons_of_mem chunk hc)
    have hfirst := hread (chunks.flatMap Prod.fst)
    obtain ⟨t, ts, hchunk⟩ := List.exists_cons_of_ne_nil hne
    rw [List.flatMap_cons]
    rw [hchunk, List.cons_append] at hfirst ⊢
    simp only [readEntries, hfirst, hrest, Option.bind_eq_bind, Option.bind_some, Option.pure_def,
      List.map_cons]

theorem length_le_flatMap {chunks : List (List Token × Entry)}
    (h : ∀ chunk ∈ chunks, chunk.1 ≠ []) :
    chunks.length ≤ (chunks.flatMap Prod.fst).length := by
  induction chunks with
  | nil => exact le_rfl
  | cons chunk chunks ih =>
    have hpos := List.length_pos_of_ne_nil (h chunk List.mem_cons_self)
    have hrest := ih fun c hc => h c (List.mem_cons_of_mem chunk hc)
    rw [List.flatMap_cons, List.length_append, List.length_cons]
    omega

/-- A configuration whose tokens are those of entries. -/
theorem read_of_chunks {text : Text} {chunks : List (List Token × Entry)}
    (htokens : tokens text = chunks.flatMap Prod.fst)
    (h : ∀ chunk ∈ chunks, chunk.1 ≠ [] ∧
      ∀ rest, readEntry (chunk.1 ++ rest) = some (chunk.2, rest)) :
    read text = some (chunks.map Prod.snd) := by
  rw [read, htokens]
  exact readEntries_chunks (length_le_flatMap fun chunk hchunk => (h chunk hchunk).1) h

end Jaas
