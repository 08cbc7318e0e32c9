import QubershipZookeeper.BackupHierarchy

/-!
# Hierarchical restore (`process_znode_hierarchy.py`, `restore`)

The restore walks the directory tree of each requested root from the top: a znode
that exists is deleted with all that is below it, and created again with the
value in its directory. A creation that fails — for whatever reason, the handler
is a bare `except` — is reported and passed over; everything else escapes.

The walk over one root is a loop over its directories, each before those below it
(`Forest.nodes`).
-/

namespace QubershipZookeeper

/-! ## ZooKeeper -/

/-- The znodes of an ensemble and their values. The root is always there, and so
is the parent of every znode. -/
@[ext]
structure Znodes : Type where
  /-- the value at a path -/
  value : NodePath → Option Bytes
  /-- the root exists -/
  root : value [] ≠ none
  /-- parents exist -/
  parent : ∀ n p, value (n :: p) ≠ none → value p ≠ none

namespace Znodes

/-- What lies below a path that is not there is not there either. -/
theorem value_eq_none_of_suffix (zk : Znodes) {p q : NodePath} (hp : zk.value p = none)
    (hq : p <:+ q) : zk.value q = none := by
  induction q with
  | nil => rwa [← List.suffix_nil.mp hq]
  | cons n q ih =>
    rcases List.suffix_cons_iff.mp hq with rfl | hq'
    · exact hp
    · by_contra hne
      exact zk.parent n q hne (ih hq')

/-- The znodes without `n :: p` and everything below it. -/
def remove (zk : Znodes) (n : String) (p : NodePath) : Znodes where
  value q := if n :: p <:+ q then none else zk.value q
  root := by simpa using zk.root
  parent m q h := by
    by_cases hm : n :: p <:+ m :: q
    · simp [hm] at h
    · have hq : ¬ n :: p <:+ q := fun hq => hm (hq.trans (List.suffix_cons ..))
      simp only [hm, hq, if_false] at h ⊢
      exact zk.parent m q h

/-- The znodes with a new child `n` of `p`. -/
def add (zk : Znodes) (n : String) (p : NodePath) (v : Bytes) (hp : zk.value p ≠ none) :
    Znodes where
  value := Function.update zk.value (n :: p) (some v)
  root := by simpa using zk.root
  parent m q h := by
    by_cases hq : q = n :: p
    · simp [hq]
    · rw [Function.update_of_ne hq]
      by_cases hm : m :: q = n :: p
      · rw [(List.cons.inj hm).2]
        exact hp
      · rw [Function.update_of_ne hm] at h
        exact zk.parent m q h

theorem remove_value (zk : Znodes) (n : String) (p q : NodePath) :
    (zk.remove n p).value q = if n :: p <:+ q then none else zk.value q := rfl

theorem add_value (zk : Znodes) (n : String) (p : NodePath) (v : Bytes) (hp : zk.value p ≠ none) :
    (zk.add n p v hp).value = Function.update zk.value (n :: p) (some v) := rfl

/-- Removing what is not there changes nothing. -/
theorem remove_eq_self {zk : Znodes} {n : String} {p : NodePath} (h : zk.value (n :: p) = none) :
    zk.remove n p = zk := by
  ext1
  funext q
  rw [remove_value]
  split
  · rw [zk.value_eq_none_of_suffix h ‹_›]
  · rfl

end Znodes

/-- What can go wrong. -/
inductive RestoreError : Type where
  /-- `UnicodeDecodeError` while a value is read -/
  | unicodeDecode
  /-- `UnicodeEncodeError` when a value is converted back -/
  | unicodeEncode
  /-- `NoNodeError`: the parent is missing -/
  | noNode
  /-- `NodeExistsError` -/
  | nodeExists
  /-- any other failure of `zk.create` -/
  | createFailed
  /-- the roots to restore were not given -/
  | noRoots
  /-- `ValueError` of `list.remove` -/
  | valueError
  deriving DecidableEq, Repr

/-- A procedure over ZooKeeper. -/
abbrev Restore : Type → Type := Proc RestoreError Znodes

/-- `zk.delete(path, recursive=True)`. -/
def zkDelete : NodePath → Restore Unit
  | [] => pure ()
  | n :: p => Proc.update fun zk => zk.remove n p

/-- `zk.create(path, value)`; the flag tells whether this call fails for a reason
of its own. -/
def zkCreate (fails : Bool) : NodePath → Bytes → Restore Unit
  | [], _ => Proc.raise .nodeExists
  | n :: p, v => fun zk =>
    if fails then .raised .createFailed zk
    else if hp : zk.value p ≠ none then
      if zk.value (n :: p) = none then .ok () (zk.add n p v hp) else .raised .nodeExists zk
    else .raised .noNode zk

/-! ## `restore` -/

variable (loc : Locale)

/-- The text in a directory's `content` file, empty if there is none. -/
def readContent : Option Bytes → Except RestoreError (List Char)
  | none => .ok []
  | some data =>
    match loc.decode data with
    | some text => .ok (universalNewlines text)
    | none => .error .unicodeDecode

/-- `data.encode("cp437")`. -/
def encodeContent (text : List Char) : Except RestoreError Bytes :=
  match cp437Encode text with
  | some bytes => .ok bytes
  | none => .error .unicodeEncode

/-- The `try` block: convert the value and create the znode; whatever is raised is
swallowed. -/
def tryCreate (fails : Bool) (z : NodePath) (text : List Char) : Restore Unit :=
  (do
    let bytes ← Proc.lift (encodeContent text)
    zkCreate fails z bytes : Restore Unit).recover fun _ => some (pure ())

/-- One round of the walk: the directory of the znode `z`. -/
def restoreNode (fails : Bool) (z : NodePath) (content : Option Bytes) : Restore Unit := do
  let present ← Proc.observe fun zk => (zk.value z).isSome
  Proc.whenever present (zkDelete z)
  let text ← Proc.lift (readContent loc content)
  tryCreate fails z text

/-- The directories that `os.walk` visits for a root: none if the root's own is
missing. -/
def walk (dirs : Forest (Option Bytes)) (root : String) : List (NodePath × Option Bytes) :=
  match dirs.tree? root with
  | none => []
  | some (content, below) => ([root], content) :: below.nodes [root]

/-- `visit_nodes_while_restoring`. -/
def visitNodesWhileRestoring (fails : NodePath → Bool) (dirs : Forest (Option Bytes))
    (root : String) : Restore Unit :=
  Proc.forEach (walk dirs root) fun dir => restoreNode loc (fails dir.1) dir.1 dir.2

/-- Where a backup is: an archive, with the roots that
`get_znodes_list_from_archive` finds in it, or an older backup that was left as a
directory. -/
inductive BackupSource : Type where
  /-- an archive, extracted root by root -/
  | archive (listed : Except RestoreError (List String))
  /-- a directory tree -/
  | directory

/-- The roots to restore, given those that were asked for. -/
def rootsToRestore (source : BackupSource) (nodes : List String) :
    Except RestoreError (List String) :=
  match source with
  | .archive listed => if nodes = [] then listed else .ok nodes
  | .directory => if nodes = [] then .error .noRoots else .ok nodes

/-- `restore`. The `k`-th root is visited with the failures `fails k`. -/
def restore (fails : ℕ → NodePath → Bool) (source : BackupSource) (dirs : Forest (Option Bytes))
    (nodes : List String) : Restore Unit := do
  let roots ← Proc.lift (rootsToRestore source nodes)
  Proc.forEach roots.zipIdx fun root =>
    visitNodesWhileRestoring loc (fails root.2) dirs root.1

/-! ## One round -/

/-- The value that a round makes of a directory, if it can make one. -/
def contentValue (content : Option Bytes) : Option Bytes :=
  match readContent loc content with
  | .ok text => cp437Encode text
  | .error _ => none

/-- The value that a directory holds: what the bytes of its `content` file say in the
encoding of the locale, in code page 437. That is how `store_data` writes a value
(`storedValue_of_encode`); how a restore reads it plays no part. Without the file
the value is empty. -/
def storedValue : Option Bytes → Option Bytes
  | none => some []
  | some data => (loc.decode data).bind cp437Encode

variable {loc} in
/-- A file that was written for a value holds the value. -/
theorem storedValue_of_encode {v data : Bytes} (h : loc.encode (cp437Decode v) = some data) :
    storedValue loc (some data) = some v := by
  obtain ⟨written, hwritten, hdecode⟩ := loc.encode_value v
  cases h.symm.trans hwritten
  rw [storedValue, hdecode, Option.bind_some, cp437Encode_decode]

variable {loc} in
/-- A round reads the stored value in text mode. -/
theorem contentValue_of_stored {content : Option Bytes} {v : Bytes}
    (h : storedValue loc content = some v) :
    contentValue loc content = cp437Encode (universalNewlines (cp437Decode v)) := by
  cases content with
  | none =>
    cases h
    rfl
  | some data =>
    obtain ⟨text, hdecode, hencode⟩ := Option.bind_eq_some_iff.mp h
    rw [cp437Decode_of_encode hencode]
    simp [contentValue, readContent, hdecode]

variable {loc} in
/-- A round gives back the stored value exactly if that has no carriage return. -/
theorem contentValue_eq_stored_iff {content : Option Bytes} {v : Bytes}
    (h : storedValue loc content = some v) :
    contentValue loc content = some v ↔ (0x0d : UInt8) ∉ v := by
  rw [contentValue_of_stored h, encode_universalNewlines_eq_self_iff]

section Round

variable {loc} {fails : Bool} {n : String} {p : NodePath} {content : Option Bytes} {zk zk' : Znodes}

/-- A round clears its znode first. -/
theorem restoreNode_eq :
    restoreNode loc fails (n :: p) content zk =
      (do
        let text ← Proc.lift (readContent loc content)
        tryCreate fails (n :: p) text : Restore Unit) (zk.remove n p) := by
  rw [restoreNode, Proc.bind_ok (Proc.observe_apply ..)]
  rcases hz : zk.value (n :: p) with - | v
  · rw [Znodes.remove_eq_self hz]
    rfl
  · rfl

variable (fails n p zk) in
/-- A creation either goes through or leaves everything as it was. -/
theorem zkCreate_cases (v : Bytes) :
    (∃ hp : zk.value p ≠ none, fails = false ∧ zk.value (n :: p) = none ∧
      zkCreate fails (n :: p) v zk = .ok () (zk.add n p v hp)) ∨
    ((fails = true ∨ zk.value p = none ∨ zk.value (n :: p) ≠ none) ∧
      ∃ e, zkCreate fails (n :: p) v zk = .raised e zk) := by
  by_cases hfails : fails = true
  · exact .inr ⟨.inl hfails, .createFailed, by simp [zkCreate, hfails]⟩
  · by_cases hp : zk.value p = none
    · exact .inr ⟨.inr (.inl hp), .noNode, by simp [zkCreate, hfails, hp]⟩
    · by_cases hz : zk.value (n :: p) = none
      · exact .inl ⟨hp, by simpa using hfails, hz, by simp [zkCreate, hfails, hp, hz]⟩
      · exact .inr ⟨.inr (.inr hz), .nodeExists, by simp [zkCreate, hfails, hp, hz]⟩

variable (fails n p zk) in
/-- So does the `try` block, and it always returns. -/
theorem tryCreate_cases (text : List Char) :
    (∃ v, ∃ hp : zk.value p ≠ none, fails = false ∧ cp437Encode text = some v ∧
      tryCreate fails (n :: p) text zk = .ok () (zk.add n p v hp)) ∨
    ((fails = true ∨ cp437Encode text = none ∨ zk.value p = none ∨ zk.value (n :: p) ≠ none) ∧
      tryCreate fails (n :: p) text zk = .ok () zk) := by
  rcases henc : cp437Encode text with - | v
  · right
    refine ⟨.inr (.inl rfl), ?_⟩
    have hlift : encodeContent text = .error .unicodeEncode := by rw [encodeContent, henc]
    refine Proc.recover_handled (e := .unicodeEncode) ?_ rfl
    rw [hlift, Proc.lift_error, Proc.raise_bind, Proc.raise_apply]
  · have hlift : encodeContent text = .ok v := by rw [encodeContent, henc]
    rcases zkCreate_cases fails n p zk v with ⟨hp, hfails, -, hok⟩ | ⟨hwhy, e, hraised⟩
    · refine .inl ⟨v, hp, hfails, rfl, Proc.recover_ok ?_⟩
      rw [hlift, Proc.lift_ok, Proc.pure_bind, hok]
    · refine .inr ⟨?_, Proc.recover_handled (e := e) ?_ rfl⟩
      · rcases hwhy with h | h | h
        · exact .inl h
        · exact .inr (.inr (.inl h))
        · exact .inr (.inr (.inr h))
      · rw [hlift, Proc.lift_ok, Proc.pure_bind, hraised]

/-- A node whose content can be read is replaced by a new one. -/
theorem restoreNode_of_read {text : List Char} (hread : readContent loc content = .ok text) :
    restoreNode loc fails (n :: p) content zk =
      tryCreate fails (n :: p) text (zk.remove n p) := by
  rw [restoreNode_eq, hread]
  rfl

/-- A round returns exactly when the value can be read. -/
theorem restoreNode_returns :
    (∃ zk', restoreNode loc fails (n :: p) content zk = .ok () zk') ↔
      ∃ text, readContent loc content = .ok text := by
  rcases hread : readContent loc content with e | text
  · rw [restoreNode_eq, hread]
    simp
  · rw [restoreNode_of_read hread]
    rcases tryCreate_cases fails n p (zk.remove n p) text with ⟨v, hp, -, -, hok⟩ | ⟨-, hok⟩
    · simp [hok]
    · simp [hok]

/-- **One round.** Outside its znode nothing changes; at and below it, nothing is
left but the new znode, and that only if its creation did not fail. -/
theorem restoreNode_ok_inv (h : restoreNode loc fails (n :: p) content zk = .ok () zk') :
    (∀ q, ¬ n :: p <:+ q → zk'.value q = zk.value q) ∧
      ∀ q, n :: p <:+ q → zk'.value q ≠ none →
        q = n :: p ∧ fails = false ∧ zk'.value q = contentValue loc content := by
  obtain ⟨text, hread⟩ := restoreNode_returns.mp ⟨zk', h⟩
  rw [restoreNode_of_read hread] at h
  rcases tryCreate_cases fails n p (zk.remove n p) text with ⟨v, hp, hfails, henc, hok⟩ | ⟨-, hok⟩
  · rw [hok] at h
    cases h
    constructor
    · intro q hq
      have hne : q ≠ n :: p := by
        rintro rfl
        exact hq List.suffix_rfl
      rw [Znodes.add_value, Function.update_of_ne hne, Znodes.remove_value, if_neg hq]
    · intro q hq hvalue
      by_cases hself : q = n :: p
      · refine ⟨hself, hfails, ?_⟩
        rw [Znodes.add_value, hself, Function.update_self]
        simp [contentValue, hread, henc]
      · rw [Znodes.add_value, Function.update_of_ne hself, Znodes.remove_value, if_pos hq] at hvalue
        exact absurd rfl hvalue
  · rw [hok] at h
    cases h
    constructor
    · intro q hq
      rw [Znodes.remove_value, if_neg hq]
    · intro q hq hvalue
      rw [Znodes.remove_value, if_pos hq] at hvalue
      exact absurd rfl hvalue

/-- A round that goes well: the znode is there, with the value of its directory. -/
theorem restoreNode_ok (n : String) (hfails : fails = false) {v : Bytes}
    (hvalue : contentValue loc content = some v) (hp : zk.value p ≠ none) :
    ∃ zk', restoreNode loc fails (n :: p) content zk = .ok () zk' ∧
      ∀ q, zk'.value q = if q = n :: p then some v
        else if n :: p <:+ q then none else zk.value q := by
  obtain ⟨text, hread, henc⟩ : ∃ text, readContent loc content = .ok text ∧
      cp437Encode text = some v := by
    unfold contentValue at hvalue
    split at hvalue
    · exact ⟨_, ‹_›, hvalue⟩
    · cases hvalue
  -- the znode was cleared and its parent was not, so there is room for a new one
  have hparent : ¬ n :: p <:+ p := fun h => by
    have hlen := h.length_le
    rw [List.length_cons] at hlen
    omega
  have hp' : (zk.remove n p).value p ≠ none := by rwa [Znodes.remove_value, if_neg hparent]
  have hfree : (zk.remove n p).value (n :: p) = none := by
    rw [Znodes.remove_value, if_pos List.suffix_rfl]
  rw [restoreNode_of_read hread]
  rcases tryCreate_cases fails n p (zk.remove n p) text with
    ⟨v', hp'', -, henc', hok⟩ | ⟨hwhy, -⟩
  · obtain rfl : v = v' := Option.some.inj (henc.symm.trans henc')
    refine ⟨_, hok, fun q => ?_⟩
    by_cases hq : q = n :: p
    · simp [Znodes.add_value, hq]
    · rw [Znodes.add_value, Function.update_of_ne hq, if_neg hq, Znodes.remove_value]
  · rcases hwhy with h | h | h | h
    · rw [hfails] at h
      cases h
    · rw [henc] at h
      cases h
    · exact absurd h hp'
    · exact absurd hfree h

end Round

/-! ## One root -/

section Visit

variable {loc} {fails : NodePath → Bool} {zk zk' : Znodes}

/-- A znode that is there after some rounds was there before, with the value that it
has, or one of the rounds created it. -/
def CreatedBy (loc : Locale) (fails : NodePath → Bool) (rounds : List (NodePath × Option Bytes))
    (zk zk' : Znodes) : Prop :=
  ∀ q, zk'.value q ≠ none → zk'.value q = zk.value q ∨
    ∃ content, (q, content) ∈ rounds ∧ fails q = false ∧ zk'.value q = contentValue loc content

instance (rounds : List (NodePath × Option Bytes)) : Std.Refl (CreatedBy loc fails rounds) :=
  ⟨fun _ _ _ => .inl rfl⟩

instance (rounds : List (NodePath × Option Bytes)) :
    IsTrans Znodes (CreatedBy loc fails rounds) where
  trans _ _ _ h₁ h₂ q hq := by
    rcases h₂ q hq with h | h
    · rw [h] at hq ⊢
      exact h₁ q hq
    · exact .inr h

/-- Nothing changes outside the tree of a root. -/
def SameOutside (root : String) (zk zk' : Znodes) : Prop :=
  ∀ q, ¬ [root] <:+ q → zk'.value q = zk.value q

instance (root : String) : Std.Refl (SameOutside root) := ⟨fun _ _ _ => rfl⟩

instance (root : String) : IsTrans Znodes (SameOutside root) where
  trans _ _ _ h₁ h₂ q hq := (h₂ q hq).trans (h₁ q hq)

/-- **A forest restored without failures**: it is added to ZooKeeper. -/
theorem restoreForest_ok {f : Forest (Option Bytes)} (hf : f.Distinct) {p : NodePath}
    (hp : zk.value p ≠ none) (hfree : ∀ q, f.Covers p q → zk.value q = none)
    (hgood : ∀ dir ∈ f.nodes p, fails dir.1 = false ∧ (contentValue loc dir.2).isSome = true) :
    ∃ zk', Proc.forEach (f.nodes p) (fun dir => restoreNode loc (fails dir.1) dir.1 dir.2) zk =
        .ok () zk' ∧
      ∀ q, zk'.value q = ((f.labelAt p q).bind (contentValue loc)).or (zk.value q) := by
  induction f generalizing p zk with
  | nil => exact ⟨zk, rfl, fun q => by simp [Forest.labelAt]⟩
  | node n content below beside ihBelow ihBeside =>
    obtain ⟨hn, hbelow, hbeside⟩ := hf
    rw [Forest.nodes, List.forall_mem_cons, List.forall_mem_append] at hgood
    obtain ⟨⟨hfails, hvalue⟩, hgoodBelow, hgoodBeside⟩ := hgood
    obtain ⟨v, hv⟩ := Option.isSome_iff_exists.mp hvalue
    obtain ⟨zk₁, hround, hzk₁⟩ := restoreNode_ok n hfails hv hp
    -- there was nothing in the new node's tree
    have hvalue₁ : ∀ q, zk₁.value q = if q = n :: p then some v else zk.value q := by
      intro q
      rw [hzk₁]
      split
      · rfl
      · split
        · exact (hfree q (Forest.covers_node.mpr (.inl ‹_›))).symm
        · rfl
    have hplace : zk₁.value (n :: p) ≠ none := by simp [hvalue₁]
    obtain ⟨zk₂, hrun₂, hvalue₂⟩ := ihBelow hbelow hplace (fun q hq => by
      rw [hvalue₁, if_neg hq.ne]
      exact hfree q (Forest.covers_node.mpr (.inl hq.suffix))) hgoodBelow
    have hout : ∀ q, ¬ n :: p <:+ q → zk₂.value q = zk.value q := by
      intro q hq
      have hne : q ≠ n :: p := by
        rintro rfl
        exact hq List.suffix_rfl
      rw [hvalue₂, Forest.labelAt_eq_none fun h => hq h.suffix, hvalue₁, if_neg hne]
      rfl
    have hparent : ¬ n :: p <:+ p := fun h => by
      have hlen := h.length_le
      rw [List.length_cons] at hlen
      omega
    have hplace₂ : zk₂.value p ≠ none := by rwa [hout p hparent]
    obtain ⟨zk₃, hrun₃, hvalue₃⟩ := ihBeside hbeside hplace₂ (fun q hq => by
      rw [hout q fun h => Forest.Covers.not_of_notMem hn h hq]
      exact hfree q (Forest.covers_node.mpr (.inr hq))) hgoodBeside
    refine ⟨zk₃, ?_, fun q => ?_⟩
    · rw [Forest.nodes, Proc.forEach_cons, Proc.bind_ok hround, Proc.forEach_append,
        Proc.bind_ok hrun₂, hrun₃]
    · rw [hvalue₃]
      by_cases hq : n :: p <:+ q
      · rw [Forest.labelAt_eq_none (Forest.Covers.not_of_notMem hn hq), Option.bind_none,
          Option.none_or, hvalue₂, hvalue₁]
        by_cases hself : q = n :: p
        · subst hself
          rw [Forest.labelAt_eq_none fun h => h.ne rfl, Forest.labelAt_self]
          simp [hv]
        · rw [Forest.labelAt_below hn hq hself, if_neg hself]
      · rw [hout q hq, Forest.labelAt_beside hq]

variable {dirs : Forest (Option Bytes)} {root : String}

/-- The walk visits exactly the directories of the root's tree. -/
theorem mem_walk_iff (hdirs : dirs.Distinct) {q : NodePath} {content : Option Bytes} :
    (q, content) ∈ walk dirs root ↔ [root] <:+ q ∧ dirs.labelAt [] q = some content := by
  unfold walk
  rcases htree : dirs.tree? root with - | ⟨c, below⟩
  · simp only [List.not_mem_nil, false_iff, not_and]
    intro hq h
    rw [Forest.labelAt_no_tree htree hq] at h
    cases h
  · rw [List.mem_cons, Forest.mem_nodes_iff (hdirs.tree htree)]
    constructor
    · rintro (h | h)
      · cases h
        exact ⟨List.suffix_rfl, by rw [Forest.labelAt_tree hdirs htree List.suffix_rfl, if_pos rfl]⟩
      · have hcover := Forest.covers_of_labelAt h
        refine ⟨hcover.suffix, ?_⟩
        rw [Forest.labelAt_tree hdirs htree hcover.suffix, if_neg hcover.ne, h]
    · rintro ⟨hq, h⟩
      rw [Forest.labelAt_tree hdirs htree hq] at h
      split at h
      · cases h
        exact .inl (by simp_all)
      · exact .inr h

theorem exists_cons_of_suffix {q : NodePath} (h : [root] <:+ q) : ∃ n p, q = n :: p := by
  cases q with
  | nil => exact absurd (List.suffix_nil.mp h) (by simp)
  | cons n p => exact ⟨n, p, rfl⟩

/-- A visit returns exactly when every value of the tree can be read. -/
theorem visit_returns (hdirs : dirs.Distinct) :
    (∃ zk', visitNodesWhileRestoring loc fails dirs root zk = .ok () zk') ↔
      ∀ q content, [root] <:+ q → dirs.labelAt [] q = some content →
        ∃ text, readContent loc content = .ok text := by
  constructor
  · rintro ⟨zk', h⟩ q content hq hlabel
    obtain ⟨zk₁, zk₂, hround⟩ :=
      Proc.forEach_ok_inv h (q, content) ((mem_walk_iff hdirs).mpr ⟨hq, hlabel⟩)
    obtain ⟨n, p, rfl⟩ := exists_cons_of_suffix hq
    exact restoreNode_returns.mp ⟨zk₂, hround⟩
  · intro h
    refine Proc.forEach_ok (fun dir hdir zk => ?_) zk
    obtain ⟨q, content⟩ := dir
    obtain ⟨hq, hlabel⟩ := (mem_walk_iff hdirs).mp hdir
    obtain ⟨n, p, rfl⟩ := exists_cons_of_suffix hq
    exact restoreNode_returns.mpr (h _ content hq hlabel)

/-- A visit leaves everything outside its root alone. -/
theorem visit_sameOutside (hdirs : dirs.Distinct)
    (h : visitNodesWhileRestoring loc fails dirs root zk = .ok () zk') :
    SameOutside root zk zk' := by
  refine Proc.forEach_ok_related (fun dir hdir s t hround => ?_) h
  obtain ⟨hq, -⟩ := (mem_walk_iff hdirs).mp hdir
  obtain ⟨n, p, hnp⟩ := exists_cons_of_suffix hq
  rw [hnp] at hround hq
  intro q hout
  exact (restoreNode_ok_inv hround).1 q fun hin => hout (hq.trans hin)

/-- A root that is not in the backup is not touched. -/
theorem visit_missing (htree : dirs.tree? root = none)
    (h : visitNodesWhileRestoring loc fails dirs root zk = .ok () zk') : zk' = zk := by
  rw [visitNodesWhileRestoring, walk, htree] at h
  exact (Proc.pure_ok_inv h).2

/-- A root that is in the backup is cleared first. -/
theorem visit_eq_cleared (htree : dirs.tree? root ≠ none) :
    visitNodesWhileRestoring loc fails dirs root zk =
      visitNodesWhileRestoring loc fails dirs root (zk.remove root []) := by
  rcases h : dirs.tree? root with - | ⟨content, below⟩
  · exact absurd h htree
  · have hclear : (zk.remove root []).remove root [] = zk.remove root [] :=
      Znodes.remove_eq_self (by rw [Znodes.remove_value, if_pos List.suffix_rfl])
    have hround : restoreNode loc (fails [root]) [root] content zk =
        restoreNode loc (fails [root]) [root] content (zk.remove root []) := by
      rw [restoreNode_eq, restoreNode_eq, hclear]
    rw [visitNodesWhileRestoring, walk, h, Proc.forEach_cons, Proc.bind_apply, Proc.bind_apply,
      hround]

/-- What a visit leaves in the tree of a root that is in the backup was created by
it. -/
theorem visit_created (hdirs : dirs.Distinct) (htree : dirs.tree? root ≠ none)
    (h : visitNodesWhileRestoring loc fails dirs root zk = .ok () zk') {q : NodePath}
    (hq : [root] <:+ q) (hvalue : zk'.value q ≠ none) :
    fails q = false ∧ ∃ content, dirs.labelAt [] q = some content ∧
      zk'.value q = contentValue loc content := by
  rw [visit_eq_cleared htree] at h
  have hcreated : CreatedBy loc fails (walk dirs root) (zk.remove root []) zk' := by
    refine Proc.forEach_ok_related (fun dir hdir s t hround => ?_) h
    obtain ⟨hdir', -⟩ := (mem_walk_iff hdirs).mp hdir
    obtain ⟨n, p, hnp⟩ := exists_cons_of_suffix hdir'
    rw [hnp] at hround
    obtain ⟨hout, hin⟩ := restoreNode_ok_inv hround
    intro x hx
    by_cases hsuffix : n :: p <:+ x
    · obtain ⟨rfl, hfails, hcontent⟩ := hin x hsuffix hx
      exact .inr ⟨dir.2, by rwa [← hnp], hfails, hcontent⟩
    · exact .inl (hout x hsuffix)
  rcases hcreated q hvalue with hold | ⟨content, hmem, hfails, hcontent⟩
  · rw [Znodes.remove_value, if_pos hq] at hold
    exact absurd hold hvalue
  · exact ⟨hfails, content, ((mem_walk_iff hdirs).mp hmem).2, hcontent⟩

/-- **A visit without failures**: the tree of its root is the one in the backup. -/
theorem visit_exact (hdirs : dirs.Distinct) (htree : dirs.tree? root ≠ none)
    (hgood : ∀ q content, [root] <:+ q → dirs.labelAt [] q = some content →
      fails q = false ∧ (contentValue loc content).isSome = true)
    (h : visitNodesWhileRestoring loc fails dirs root zk = .ok () zk') {q : NodePath}
    (hq : [root] <:+ q) : zk'.value q = (dirs.labelAt [] q).bind (contentValue loc) := by
  rw [visit_eq_cleared htree] at h
  rcases htree' : dirs.tree? root with - | ⟨content, below⟩
  · exact absurd htree' htree
  · -- the walk is that of a forest with one tree
    have hwalk : walk dirs root = (Forest.node root content below .nil).nodes [] := by
      simp [walk, htree', Forest.nodes]
    have hsingle : (Forest.node root content below .nil).Distinct :=
      ⟨by simp [Forest.names], hdirs.tree htree', trivial⟩
    have hfree : ∀ q, (Forest.node root content below .nil).Covers [] q →
        (zk.remove root []).value q = none := by
      intro q hq
      rcases Forest.covers_node.mp hq with hq | hq
      · rw [Znodes.remove_value, if_pos hq]
      · exact absurd hq (Forest.not_covers_nil [] q)
    obtain ⟨zk₁, hrun, hvalue⟩ := restoreForest_ok hsingle (zk.remove root []).root hfree
      fun dir hdir => by
        rw [← hwalk] at hdir
        obtain ⟨hq, hlabel⟩ := (mem_walk_iff hdirs).mp hdir
        exact hgood _ _ hq hlabel
    rw [visitNodesWhileRestoring, hwalk, hrun] at h
    cases h
    rw [hvalue, Znodes.remove_value, if_pos hq, Option.or_none,
      Forest.labelAt_tree hdirs htree' hq]
    by_cases hself : q = [root]
    · subst hself
      rw [Forest.labelAt_self, if_pos rfl]
    · rw [Forest.labelAt_below (by simp [Forest.names]) hq hself, if_neg hself]

end Visit

/-! ## All roots -/

section Roots

variable {loc} {fails : ℕ → NodePath → Bool} {dirs : Forest (Option Bytes)} {zk zk' : Znodes}

/-- The `k`-th root is the last of its name. -/
def LastVisit (roots : List String) (k : ℕ) (root : String) : Prop :=
  roots[k]? = some root ∧ ∀ j, k < j → roots[j]? ≠ some root

/-- There is one last visit. -/
theorem LastVisit.unique {roots : List String} {j k : ℕ} {root : String}
    (hj : LastVisit roots j root) (hk : LastVisit roots k root) : j = k := by
  rcases lt_trichotomy j k with h | h | h
  · exact absurd hk.1 (hj.2 k h)
  · exact h
  · exact absurd hj.1 (hk.2 j h)

/-- A visit of one root leaves the others alone. -/
theorem sameOutside_of_ne {root root' : String} (hne : root ≠ root') {zk zk' : Znodes}
    (h : SameOutside root' zk zk') {q : NodePath} (hq : [root] <:+ q) : zk'.value q = zk.value q :=
  h q fun hq' => hne (NodePath.eq_of_common_descendant hq hq')

/-- What the last visit of a root leaves in its tree stays. -/
theorem visits_last (hdirs : dirs.Distinct) {roots : List String} {start : ℕ}
    (h : Proc.forEach (roots.zipIdx start)
      (fun root => visitNodesWhileRestoring loc (fails root.2) dirs root.1) zk = .ok () zk')
    (root : String) :
    (root ∉ roots → ∀ q, [root] <:+ q → zk'.value q = zk.value q) ∧
    (root ∈ roots → ∃ k zk₁ zk₂, LastVisit roots k root ∧
      visitNodesWhileRestoring loc (fails (start + k)) dirs root zk₁ = .ok () zk₂ ∧
      (∀ q, [root] <:+ q → zk'.value q = zk₂.value q) ∧
      (dirs.tree? root = none → ∀ q, [root] <:+ q → zk₁.value q = zk.value q)) := by
  induction roots generalizing start zk with
  | nil =>
    obtain ⟨-, rfl⟩ := Proc.pure_ok_inv h
    simp
  | cons first roots ih =>
    rw [List.zipIdx_cons] at h
    obtain ⟨u, zk₁, hfirst, hrest⟩ := Proc.bind_ok_inv h
    obtain ⟨hother, hlast⟩ := ih hrest
    have houtside := visit_sameOutside hdirs hfirst
    constructor
    · intro hroot q hq
      rw [List.mem_cons, not_or] at hroot
      rw [hother hroot.2 q hq, sameOutside_of_ne hroot.1 houtside hq]
    · intro hroot
      by_cases hmem : root ∈ roots
      · obtain ⟨k, zk₂, zk₃, hk, hvisit, hfinal, hmissing⟩ := hlast hmem
        refine ⟨k + 1, zk₂, zk₃, ⟨hk.1, fun j hj => ?_⟩, ?_, hfinal, fun htree q hq => ?_⟩
        · obtain ⟨j, rfl⟩ : ∃ i, j = i + 1 := ⟨j - 1, by omega⟩
          exact hk.2 j (by omega)
        · rwa [show start + (k + 1) = start + 1 + k by omega]
        · rw [hmissing htree q hq]
          by_cases hsame : root = first
          · subst hsame
            rw [visit_missing htree hfirst]
          · exact sameOutside_of_ne hsame houtside hq
      · obtain rfl : root = first := (List.mem_cons.mp hroot).resolve_right hmem
        refine ⟨0, zk, zk₁, ⟨rfl, fun j hj heq => ?_⟩, hfirst, hother hmem, fun _ _ _ => rfl⟩
        obtain ⟨j, rfl⟩ : ∃ i, j = i + 1 := ⟨j - 1, by omega⟩
        exact hmem (List.mem_of_getElem? heq)

/-- Nothing outside all roots changes. -/
theorem visits_outside (hdirs : dirs.Distinct) {roots : List String} {start : ℕ}
    (h : Proc.forEach (roots.zipIdx start)
      (fun root => visitNodesWhileRestoring loc (fails root.2) dirs root.1) zk = .ok () zk')
    {q : NodePath} (hq : ∀ root ∈ roots, ¬ [root] <:+ q) : zk'.value q = zk.value q := by
  induction roots generalizing start zk with
  | nil =>
    obtain ⟨-, rfl⟩ := Proc.pure_ok_inv h
    rfl
  | cons first roots ih =>
    rw [List.forall_mem_cons] at hq
    obtain ⟨u, zk₁, hfirst, hrest⟩ := Proc.bind_ok_inv h
    rw [ih hrest hq.2, visit_sameOutside hdirs hfirst q hq.1]

/-- The tree of every requested root is exactly the one in the backup, every
directory a znode with the value stored in the directory, and nothing else has
changed. -/
def Restored (loc : Locale) (dirs : Forest (Option Bytes)) (roots : List String)
    (zk zk' : Znodes) : Prop :=
  (∀ root ∈ roots, ∀ q, [root] <:+ q →
    (∀ content, dirs.labelAt [] q = some content →
      ∃ v, storedValue loc content = some v ∧ zk'.value q = some v) ∧
    (dirs.labelAt [] q = none → zk'.value q = none)) ∧
  ∀ q, (∀ root ∈ roots, ¬ [root] <:+ q) → zk'.value q = zk.value q

/-- In the last visit of every requested root no creation fails, and every directory
holds a value that has no carriage return; and a root that is not in the backup is
not in ZooKeeper either. -/
def Undisturbed (loc : Locale) (fails : ℕ → NodePath → Bool) (dirs : Forest (Option Bytes))
    (roots : List String) (zk : Znodes) : Prop :=
  ∀ root ∈ roots,
    (∀ k, LastVisit roots k root → ∀ q content, [root] <:+ q →
      dirs.labelAt [] q = some content →
        fails k q = false ∧ ∃ v, storedValue loc content = some v ∧ (0x0d : UInt8) ∉ v) ∧
    (dirs.labelAt [] [root] = none → zk.value [root] = none)

/-- The files of every requested root can be decoded: one that cannot stops the
restore with an exception. -/
def Readable (loc : Locale) (dirs : Forest (Option Bytes)) (roots : List String) : Prop :=
  ∀ root ∈ roots, ∀ q data, [root] <:+ q → dirs.labelAt [] q = some (some data) →
    ∃ text, loc.decode data = some text

/-- A round can read every directory whose file can be decoded. -/
theorem readContent_ok_iff {content : Option Bytes} :
    (∃ text, readContent loc content = .ok text) ↔
      ∀ data, content = some data → ∃ text, loc.decode data = some text := by
  cases content with
  | none => exact iff_of_true ⟨[], rfl⟩ nofun
  | some data => rcases hdecode : loc.decode data with - | text <;> simp [readContent, hdecode]

/-- A root is missing exactly if there is no tree of its name. -/
theorem labelAt_root_eq_none (hdirs : dirs.Distinct) {root : String} :
    dirs.labelAt [] [root] = none ↔ dirs.tree? root = none := by
  constructor
  · intro h
    rcases htree : dirs.tree? root with - | ⟨content, below⟩
    · rfl
    · rw [Forest.labelAt_tree hdirs htree List.suffix_rfl, if_pos rfl] at h
      cases h
  · intro h
    exact Forest.labelAt_no_tree h List.suffix_rfl

section Run

variable {roots : List String}

/-- If all files can be decoded, all roots are visited. -/
theorem visits_return (hdirs : dirs.Distinct) (hread : Readable loc dirs roots) (zk : Znodes) :
    ∃ zk', Proc.forEach roots.zipIdx
      (fun root => visitNodesWhileRestoring loc (fails root.2) dirs root.1) zk = .ok () zk' := by
  refine Proc.forEach_ok (fun x hx s => ?_) zk
  have hmem : x.1 ∈ roots := (List.mem_zipIdx' hx).2 ▸ List.getElem_mem _
  refine (visit_returns hdirs).mpr fun q content hq hlabel => readContent_ok_iff.mpr ?_
  rintro data rfl
  exact hread x.1 hmem q data hq hlabel

variable (hdirs : dirs.Distinct)
  (hrun : Proc.forEach roots.zipIdx
    (fun root => visitNodesWhileRestoring loc (fails root.2) dirs root.1) zk = .ok () zk')

include hdirs hrun

/-- A restore that returned has decoded all files. -/
theorem readable_of_visits : Readable loc dirs roots := by
  intro root hroot q data hq hlabel
  obtain ⟨k, zk₁, zk₂, -, hvisit, -, -⟩ := (visits_last hdirs hrun root).2 hroot
  exact readContent_ok_iff.mp ((visit_returns hdirs).mp ⟨zk₂, hvisit⟩ q _ hq hlabel) data rfl

/-- If the roots are restored, nothing went wrong that counts. -/
theorem undisturbed_of_restored (h : Restored loc dirs roots zk zk') :
    Undisturbed loc fails dirs roots zk := by
  intro root hroot
  have hrestored := h.1 root hroot
  obtain ⟨k, zk₁, zk₂, hk, hvisit, hfinal, hmissing⟩ := (visits_last hdirs hrun root).2 hroot
  rw [Nat.zero_add] at hvisit
  refine ⟨fun k' hk' q content hq hlabel => ?_, fun hnone => ?_⟩
  · -- the znode is there after the last visit, so that visit has created it
    obtain rfl := hk.unique hk'
    obtain ⟨v, hv, hvalue⟩ := (hrestored q hq).1 content hlabel
    have htree : dirs.tree? root ≠ none := fun htree => by
      rw [Forest.labelAt_no_tree htree hq] at hlabel
      cases hlabel
    have hpresent : zk₂.value q ≠ none := by
      rw [← hfinal q hq, hvalue]
      simp
    obtain ⟨hfails, content', hlabel', hcontent⟩ := visit_created hdirs htree hvisit hq hpresent
    obtain rfl : content = content' := Option.some.inj (hlabel.symm.trans hlabel')
    rw [← hfinal q hq, hvalue] at hcontent
    exact ⟨hfails, v, hv, (contentValue_eq_stored_iff hv).mp hcontent.symm⟩
  · -- a root that is not in the backup is never touched
    have htree := (labelAt_root_eq_none hdirs).mp hnone
    have hgone := (hrestored [root] List.suffix_rfl).2 hnone
    rw [hfinal _ List.suffix_rfl, visit_missing htree hvisit,
      hmissing htree _ List.suffix_rfl] at hgone
    exact hgone

/-- If nothing went wrong that counts, the roots are restored. -/
theorem restored_of_undisturbed (h : Undisturbed loc fails dirs roots zk) :
    Restored loc dirs roots zk zk' := by
  refine ⟨fun root hroot q hq => ?_, fun q hq => visits_outside hdirs hrun hq⟩
  obtain ⟨k, zk₁, zk₂, hk, hvisit, hfinal, hmissing⟩ := (visits_last hdirs hrun root).2 hroot
  obtain ⟨hgood, habsent⟩ := h root hroot
  rw [hfinal q hq]
  by_cases htree : dirs.tree? root = none
  · rw [Forest.labelAt_no_tree htree hq, visit_missing htree hvisit, hmissing htree q hq]
    have hroot' := habsent ((labelAt_root_eq_none hdirs).mpr htree)
    simp [zk.value_eq_none_of_suffix hroot' hq]
  · rw [Nat.zero_add] at hvisit
    have hplain : ∀ q content, [root] <:+ q → dirs.labelAt [] q = some content →
        fails k q = false ∧ (contentValue loc content).isSome = true := by
      intro q content hq hlabel
      obtain ⟨hfails, v, hv, hreturn⟩ := hgood k hk q content hq hlabel
      rw [(contentValue_eq_stored_iff hv).mpr hreturn]
      exact ⟨hfails, rfl⟩
    rw [visit_exact hdirs htree hplain hvisit hq]
    constructor
    · intro content hlabel
      obtain ⟨-, v, hv, hreturn⟩ := hgood k hk q content hq hlabel
      refine ⟨v, hv, ?_⟩
      rw [hlabel, Option.bind_some, (contentValue_eq_stored_iff hv).mpr hreturn]
    · intro hnone
      rw [hnone, Option.bind_none]

end Run

/-- **What a restore that returns has done.** It has restored every requested root,
for whatever creations fail, if and only if none failed that counts and no value
has a carriage return, which is read as a newline — the restore itself does not
tell. -/
theorem restore_exact_iff (loc : Locale) (fails : ℕ → NodePath → Bool) (source : BackupSource)
    (backup : Hierarchy (Option Bytes)) (nodes : List String) (zk : Znodes) :
    (∀ roots zk', rootsToRestore source nodes = .ok roots →
      restore loc fails source backup.forest nodes zk = .ok () zk' →
        Restored loc backup.forest roots zk zk') ↔
      ∀ roots, rootsToRestore source nodes = .ok roots → Readable loc backup.forest roots →
        Undisturbed loc fails backup.forest roots zk := by
  have hdirs := backup.distinct
  have hrun : ∀ {roots}, rootsToRestore source nodes = .ok roots →
      restore loc fails source backup.forest nodes zk = Proc.forEach roots.zipIdx
        (fun root => visitNodesWhileRestoring loc (fails root.2) backup.forest root.1) zk := by
    intro roots hroots
    rw [restore, hroots]
    rfl
  constructor
  · intro h roots hroots hread
    obtain ⟨zk', hzk'⟩ := visits_return hdirs hread zk
    exact undisturbed_of_restored hdirs hzk' (h roots zk' hroots ((hrun hroots).trans hzk'))
  · intro h roots zk' hroots hzk'
    rw [hrun hroots] at hzk'
    exact restored_of_undisturbed hdirs hzk' (h roots hroots (readable_of_visits hdirs hzk'))

/-- A ZooKeeper with one znode, `/a`. -/
def sampleZnodes : Znodes where
  value q := if q = [] then some [] else if q = ["a"] then some [0x31] else none
  root := by decide
  parent n p h := by
    by_cases hp : p = []
    · simp [hp]
    · simp [hp] at h

/-- A backup with one znode, `/a`, without a value. -/
def sampleBackup : Hierarchy (Option Bytes) := ⟨.node "a" none .nil .nil, by decide⟩

/-- Restored with a failing creation, `/a` is gone and the restore returns. -/
theorem not_restored_sampleBackup :
    ¬ ∀ roots zk', rootsToRestore .directory ["a"] = .ok roots →
      restore .utf8 (fun _ _ => true) .directory sampleBackup.forest ["a"] sampleZnodes =
        .ok () zk' → Restored .utf8 sampleBackup.forest roots sampleZnodes zk' := by
  intro h
  have hrun : restore .utf8 (fun _ _ => true) .directory sampleBackup.forest ["a"] sampleZnodes =
      .ok () (sampleZnodes.remove "a" []) := rfl
  have hrestored := (h ["a"] _ rfl hrun).1 "a" (by simp) ["a"] List.suffix_rfl
  obtain ⟨v, -, hv⟩ := hrestored.1 none rfl
  rw [Znodes.remove_value, if_pos List.suffix_rfl] at hv
  cases hv

end Roots

/-! ## Values, there and back -/

/-- The data of the file with a directory's value. -/
def contentOf (folder : Folder) (p : NodePath) : Option Bytes :=
  match folder (contentName :: p) with
  | some (.file data) => some data
  | _ => none

/-- A value stored by `store_data` in a new backup, and read back. -/
def roundTrip (vol : Volume) (p : NodePath) (value : Bytes) : Option Bytes :=
  match storeData vol loc p value Folder.empty with
  | .ok _ folder => contentValue loc (contentOf folder p)
  | .raised _ _ => none

section Values

variable {loc} {vol : Volume} {p : NodePath}

/-- The file layer alone decides what comes back. -/
theorem roundTrip_eq (haccepts : vol.accepts (contentName :: p) = true) (value : Bytes) :
    roundTrip loc vol p value = cp437Encode (universalNewlines (cp437Decode value)) := by
  have hstore := storeData_root loc (vol.accepts_parent _ _ haccepts)
    (fun _ : value ≠ [] => haccepts)
  rw [roundTrip, hstore]
  show contentValue loc (contentOf (storeNode loc (Folder.downTo p) p value) p) = _
  have hfile : storeNode loc (Folder.downTo p) p value (contentName :: p) =
      contentFile loc value := by
    rw [storeNode, if_neg (contentName_cons_ne p), if_pos rfl,
      downTo_eq_none (List.suffix_cons ..) (contentName_cons_ne p), Option.or_none]
  cases value with
  | nil => simp [contentOf, hfile, contentFile, contentValue, readContent, cp437Decode,
      universalNewlines]
  | cons b bs =>
    obtain ⟨data, hdata, -⟩ := loc.encode_value (b :: bs)
    have hcontent : contentOf (storeNode loc (Folder.downTo p) p (b :: bs)) p = some data := by
      simp [contentOf, hfile, contentFile, hdata]
    rw [hcontent, contentValue_of_stored (storedValue_of_encode hdata)]

/-- **Which values survive a backup**: those without a carriage return. -/
theorem roundTrip_eq_self_iff (haccepts : vol.accepts (contentName :: p) = true) (value : Bytes) :
    roundTrip loc vol p value = some value ↔ (0x0d : UInt8) ∉ value := by
  rw [roundTrip_eq haccepts, encode_universalNewlines_eq_self_iff]

/-- A value made of a null byte, the letters of a line and a newline. -/
theorem roundTrip_line :
    roundTrip .utf8 .unlimited ["a"] [0x00, 0x73, 0x64, 0x0a] = some [0x00, 0x73, 0x64, 0x0a] :=
  (roundTrip_eq_self_iff rfl _).mpr (by decide)

/-- A carriage return comes back as a newline. -/
theorem roundTrip_return :
    roundTrip .utf8 .unlimited ["a"] [0x0d] = some [0x0a] ∧
      roundTrip .utf8 .unlimited ["a"] [0x0d] ≠ some [0x0d] := by
  have h : roundTrip .utf8 .unlimited ["a"] [0x0d] = some [0x0a] := by
    rw [roundTrip_eq rfl]
    decide
  exact ⟨h, by rw [h]; decide⟩

end Values

end QubershipZookeeper
