import QubershipZookeeper.StoreZnodes

/-!
# What a hierarchical backup denotes

The folder that `visitNodes` writes is compared with the tree it was made from,
by the rules that the restore reads it with (`denoted`): a directory is a znode,
and a regular file named `content` in it is its value.

`stored` describes the folder that a forest should become. `visitChildren_ok`
says that it does become that, when nothing gets in the way, and
`backedUp_iff_fits` that the backup is faithful in no other case.
-/

namespace QubershipZookeeper

variable (vol : Volume) (loc : Locale)

/-! ## What a stored tree looks like -/

/-- The file that holds a value. -/
def contentFile (value : Bytes) : Option Entry :=
  if value = [] then none else some (.file ((loc.encode (cp437Decode value)).getD []))

/-- What is stored for a forest hung below `p`, all of it persistent: a directory
for each node and a file for each value. -/
def stored (f : Forest Znode) (p : NodePath) : NodePath → Option Entry
  | [] => none
  | n :: q =>
    if (f.labelAt p (n :: q)).isSome then some .dir
    else if n = contentName then (f.labelAt p q).bind fun z => contentFile loc z.value
    else none

/-- No value and child get in each other's way, and every path fits. -/
def Storable (f : Forest Znode) (p : NodePath) : Prop :=
  ∀ q z, f.labelAt p q = some z → vol.accepts q = true ∧
    (z.value ≠ [] → vol.accepts (contentName :: q) = true ∧ f.labelAt p (contentName :: q) = none)

/-- The locale writes every value. -/
theorem encodeValue_ok (value : Bytes) :
    encodeValue loc value = .ok ((loc.encode (cp437Decode value)).getD []) := by
  obtain ⟨data, hdata, -⟩ := loc.encode_value value
  rw [encodeValue, hdata]
  rfl

/-- A folder after a node has been stored. -/
def storeNode (folder : Folder) (p : NodePath) (value : Bytes) : Folder := fun q =>
  if q = p then some .dir
  else if q = contentName :: p then (contentFile loc value).or (folder q)
  else folder q

theorem contentName_cons_ne (p : NodePath) : contentName :: p ≠ p := by
  intro h
  have := congrArg List.length h
  simp at this

variable {vol} in
/-- Writing a value into a directory that is there. -/
theorem writeContent_ok {folder : Folder} {p : NodePath} {value : Bytes} (hp : folder p = some .dir)
    (haccepts : vol.accepts (contentName :: p) = true) (hfree : folder (contentName :: p) = none) :
    writeContent vol loc p value folder =
      .ok () (Function.update folder (contentName :: p)
        (some (.file ((loc.encode (cp437Decode value)).getD [])))) := by
  have hopen : openForWriting vol (contentName :: p) folder =
      .ok () (Function.update folder (contentName :: p) (some (.file []))) := by
    rw [openForWriting, Proc.bind_ok (checkParent_ok haccepts hp),
      Proc.bind_ok (Proc.observe_apply ..), hfree]
    rfl
  rw [writeContent, Proc.bind_ok hopen, encodeValue_ok, Proc.lift_ok, Proc.pure_bind,
    Proc.update_apply, Function.update_idem]

variable {vol} in
/-- A directory is made in a directory, where there is room for it. -/
theorem mkdir_ok {folder : Folder} {n : String} {p : NodePath} (hparent : folder p = some .dir)
    (haccepts : vol.accepts (n :: p) = true) (hfree : folder (n :: p) = none) :
    mkdir vol (n :: p) folder = .ok () (Function.update folder (n :: p) (some .dir)) := by
  rw [mkdir, Proc.bind_ok (checkParent_ok haccepts hparent), Proc.bind_ok (Proc.observe_apply ..),
    hfree]
  rfl

variable {vol} in
/-- `store_data` once the directory is there: a file for a value that is not
empty. -/
theorem storeData_of_made {folder folder' : Folder} {p : NodePath} {value : Bytes}
    (hmake : makeDirectory vol p folder = .ok true folder') (hp : folder' p = some .dir)
    (hcontent : value ≠ [] → vol.accepts (contentName :: p) = true ∧
      folder' (contentName :: p) = none) :
    storeData vol loc p value folder = .ok () (storeNode loc folder' p value) := by
  rw [storeData, Proc.bind_ok hmake]
  cases value with
  | nil =>
    have hsame : storeNode loc folder' p [] = folder' := by
      funext q
      by_cases hq : q = p
      · simp [storeNode, hq, hp]
      · simp [storeNode, hq, contentFile]
    rw [hsame]
    rfl
  | cons b bs =>
    obtain ⟨haccepts, hfree⟩ := hcontent (by simp)
    simp only [List.isEmpty_cons, Bool.not_false, Bool.and_self, Proc.whenever_true]
    rw [writeContent_ok loc hp haccepts hfree]
    congr 1
    funext q
    by_cases hq : q = p
    · subst hq
      simp [storeNode, hp]
    · by_cases hq' : q = contentName :: p
      · subst hq'
        simp [storeNode, hq, contentFile]
      · simp [storeNode, hq, hq']

variable {vol} in
/-- **`store_data` in a directory that is there**: a new directory, and a file in
it for a value that is not empty. -/
theorem storeData_ok {folder : Folder} {n : String} {p : NodePath} {value : Bytes}
    (hparent : folder p = some .dir) (haccepts : vol.accepts (n :: p) = true)
    (hfree : folder (n :: p) = none)
    (hcontent : value ≠ [] → vol.accepts (contentName :: n :: p) = true ∧
      folder (contentName :: n :: p) = none) :
    storeData vol loc (n :: p) value folder =
      .ok () (storeNode loc folder (n :: p) value) := by
  have hmake : makeDirectory vol (n :: p) folder =
      .ok true (Function.update folder (n :: p) (some .dir)) := by
    refine Proc.recover_ok ?_
    rw [Proc.bind_ok (Proc.observe_apply ..), hfree, Proc.bind_ok]
    · rfl
    · rw [Option.isSome_none, Bool.not_false, Proc.whenever_true, makedirs,
        Proc.bind_ok (Proc.observe_apply ..), hparent, Option.isSome_some, Bool.not_true,
        Proc.whenever_false, Proc.pure_bind, mkdir_ok hparent haccepts hfree]
  rw [storeData_of_made loc hmake (by simp)]
  · congr 1
    funext q
    by_cases hq : q = n :: p <;> simp [storeNode, hq]
  · intro hvalue
    rw [Function.update_of_ne (contentName_cons_ne _)]
    exact hcontent hvalue

section Forests

variable {vol} {n : String} {z : Znode} {below beside : Forest Znode} {p : NodePath}

/-- What can be stored of a forest can be stored of its parts. -/
theorem storable_below (hn : n ∉ beside.names) (h : Storable vol (.node n z below beside) p) :
    Storable vol below (n :: p) := by
  intro q w hq
  have hcover := Forest.covers_of_labelAt hq
  have hlabel : (Forest.node n z below beside).labelAt p q = some w := by
    rw [Forest.labelAt_below hn hcover.suffix hcover.ne, hq]
  obtain ⟨haccepts, hcontent⟩ := h q w hlabel
  refine ⟨haccepts, fun hvalue => ⟨(hcontent hvalue).1, ?_⟩⟩
  have hnone := (hcontent hvalue).2
  have hsuffix : n :: p <:+ contentName :: q := hcover.suffix.trans (List.suffix_cons ..)
  have hne : contentName :: q ≠ n :: p := by
    intro heq
    have hlen := hcover.suffix.length_le
    rw [← heq, List.length_cons] at hlen
    omega
  rwa [Forest.labelAt_below hn hsuffix hne] at hnone

theorem storable_beside (hn : n ∉ beside.names) (h : Storable vol (.node n z below beside) p) :
    Storable vol beside p := by
  intro q w hq
  have hcover := Forest.covers_of_labelAt hq
  have hout : ¬ n :: p <:+ q := fun hsuffix => Forest.Covers.not_of_notMem hn hsuffix hcover
  have hlabel : (Forest.node n z below beside).labelAt p q = some w := by
    rw [Forest.labelAt_beside hout, hq]
  obtain ⟨haccepts, hcontent⟩ := h q w hlabel
  refine ⟨haccepts, fun hvalue => ⟨(hcontent hvalue).1, ?_⟩⟩
  have hnone := (hcontent hvalue).2
  rcases hb : beside.labelAt p (contentName :: q) with - | w'
  · rfl
  · rw [Forest.labelAt] at hnone
    split at hnone
    · cases hnone
    · rw [hb] at hnone
      simp at hnone

/-- What is stored lies in the forest's trees. -/
theorem covers_of_stored {f : Forest Znode} {q : NodePath} (h : stored loc f p q ≠ none) :
    f.Covers p q := by
  cases q with
  | nil => exact absurd rfl h
  | cons m q =>
    rw [stored] at h
    split at h
    · rename_i hsome
      obtain ⟨w, hw⟩ := Option.isSome_iff_exists.mp hsome
      exact Forest.covers_of_labelAt hw
    · split at h
      · rcases hq : f.labelAt p q with - | w
        · rw [hq] at h
          exact absurd rfl h
        · obtain ⟨k, hk, hsuffix⟩ := Forest.covers_of_labelAt hq
          exact ⟨k, hk, hsuffix.trans (List.suffix_cons ..)⟩
      · exact absurd rfl h

/-- Nothing is stored away from the forest. -/
theorem stored_eq_none {f : Forest Znode} {q : NodePath} (h : ¬ f.Covers p q) :
    stored loc f p q = none := by
  by_contra hne
  exact h (covers_of_stored loc hne)

/-- Outside its tree, a node that was stored has left no trace. -/
theorem storeNode_outside (below : Forest Znode) {q : NodePath} (hq : ¬ n :: p <:+ q)
    (folder : Folder) (value : Bytes) :
    (stored loc below (n :: p) q).or (storeNode loc folder (n :: p) value q) = folder q := by
  have hself : q ≠ n :: p := by
    rintro rfl
    exact hq List.suffix_rfl
  have hfile : q ≠ contentName :: n :: p := by
    rintro rfl
    exact hq (List.suffix_cons ..)
  rw [stored_eq_none loc fun h : below.Covers (n :: p) q => hq h.suffix, Option.none_or]
  simp [storeNode, hself, hfile]

/-- Storing a forest is storing its first node, then what is below it, then what
is beside it. -/
theorem stored_node (hn : n ∉ beside.names) (folder : Folder) (q : NodePath) :
    (stored loc beside p q).or ((stored loc below (n :: p) q).or
        (storeNode loc folder (n :: p) z.value q)) =
      (stored loc (.node n z below beside) p q).or (folder q) := by
  by_cases hq : n :: p <:+ q
  · -- inside the first tree the forest beside it plays no part
    rw [stored_eq_none loc (Forest.Covers.not_of_notMem hn hq), Option.none_or]
    by_cases hself : q = n :: p
    · subst hself
      rw [stored_eq_none loc fun h => h.ne rfl]
      simp [storeNode, stored]
    · cases q with
      | nil => exact absurd (List.suffix_nil.mp hq) (by simp)
      | cons m q =>
        have hq' : n :: p <:+ q := (List.suffix_cons_iff.mp hq).resolve_left fun h => hself h.symm
        rw [stored, stored, Forest.labelAt_below hn hq hself]
        by_cases hdir : (below.labelAt (n :: p) (m :: q)).isSome
        · simp [hdir]
        · by_cases hm : m = contentName
          · subst hm
            by_cases hparent : q = n :: p
            · subst hparent
              have hnone : below.labelAt (n :: p) (n :: p) = none :=
                Forest.labelAt_eq_none fun h => h.ne rfl
              simp [hdir, hnone, storeNode, hself]
            · rw [Forest.labelAt_below hn hq' hparent]
              simp [hdir, storeNode, hself, hparent]
          · have hother : m :: q ≠ contentName :: n :: p := fun h => hm (List.cons.inj h).1
            simp [hdir, hm, storeNode, hself, hother]
  · -- outside of it the forest beside it is all there is
    rw [storeNode_outside loc below hq]
    have hrest : stored loc (.node n z below beside) p q = stored loc beside p q := by
      cases q with
      | nil => rfl
      | cons m q =>
        have hq' : ¬ n :: p <:+ q := fun h => hq (h.trans (List.suffix_cons ..))
        rw [stored, stored, Forest.labelAt_beside hq, Forest.labelAt_beside hq']
    rw [hrest]

/-- In the directory of a node, the places of its children are free. -/
theorem storeNode_free {f : Forest Znode} {folder : Folder} {value : Bytes}
    (hcontent : value ≠ [] → f.labelAt p (contentName :: p) = none)
    (hfree : ∀ q, p <:+ q → q ≠ p → folder q = none) {q : NodePath} (hq : f.Covers p q) :
    storeNode loc folder p value q = none := by
  by_cases hfile : q = contentName :: p
  · subst hfile
    -- a child has that name, so the value is empty
    obtain ⟨m, hm, hsuffix⟩ := hq
    obtain rfl : m = contentName := (List.cons.inj (hsuffix.eq_of_length rfl)).1
    obtain ⟨w, hw⟩ := Forest.labelAt_of_mem_names hm p
    have hvalue : value = [] := by
      by_contra hne
      rw [hcontent hne] at hw
      cases hw
    rw [storeNode, if_neg (contentName_cons_ne p), if_pos rfl, contentFile, if_pos hvalue,
      Option.none_or]
    exact hfree _ (List.suffix_cons ..) (contentName_cons_ne p)
  · rw [storeNode, if_neg hq.ne, if_neg hfile]
    exact hfree _ hq.suffix hq.ne

/-- The nodes of a forest hung below `p` lie at most so many levels below it. -/
def Shallow (depth : ℕ) (f : Forest Znode) (p : NodePath) : Prop :=
  ∀ q z, f.labelAt p q = some z → q.length ≤ p.length + depth

/-- A node needs a level of its own, and leaves one less to those below it. -/
theorem shallow_node_iff (hn : n ∉ beside.names) {depth : ℕ} :
    Shallow depth (.node n z below beside) p ↔
      ∃ room, depth = room + 1 ∧ Shallow room below (n :: p) ∧ Shallow depth beside p := by
  constructor
  · intro h
    have hself := h (n :: p) z Forest.labelAt_self
    rw [List.length_cons] at hself
    refine ⟨depth - 1, by omega, fun q w hq => ?_, fun q w hq => h q w ?_⟩
    · have hcover := Forest.covers_of_labelAt hq
      have hlength := h q w (by rw [Forest.labelAt_below hn hcover.suffix hcover.ne, hq])
      rw [List.length_cons]
      omega
    · have hcover := Forest.covers_of_labelAt hq
      rw [Forest.labelAt_beside fun hin => Forest.Covers.not_of_notMem hn hin hcover, hq]
  · rintro ⟨room, rfl, hbelow, hbeside⟩ q w hq
    rw [Forest.labelAt] at hq
    split at hq
    next hself =>
      rw [hself, List.length_cons]
      omega
    next =>
      rcases Option.or_eq_some_iff.mp hq with hq | ⟨-, hq⟩
      · have hlength := hbelow q w hq
        rw [List.length_cons] at hlength
        omega
      · exact hbeside q w hq

/-- **Storing a forest that can be stored**: it is added to the folder. -/
theorem visitChildren_ok {f : Forest Znode} (hf : f.Distinct) {depth : ℕ} {folder : Folder}
    (hdepth : Shallow depth f p)
    (hstorable : Storable vol (f.prune Znode.persistent) p) (hp : folder p = some .dir)
    (hfree : ∀ q, (f.prune Znode.persistent).Covers p q → folder q = none) :
    visitChildren vol loc depth f p folder =
      .ok () fun q => (stored loc (f.prune Znode.persistent) p q).or (folder q) := by
  induction f generalizing p depth folder with
  | nil =>
    have hnil : (fun q => (stored loc (.nil : Forest Znode) p q).or (folder q)) = folder := by
      funext q
      rw [stored_eq_none loc (Forest.not_covers_nil p q), Option.none_or]
    rw [Forest.prune, hnil, visitChildren]
    rfl
  | node n z below beside ihBelow ihBeside =>
    obtain ⟨hn, hbelow, hbeside⟩ := hf
    obtain ⟨room, rfl, hroom, hdepth⟩ := (shallow_node_iff hn).mp hdepth
    rw [Forest.prune] at hstorable hfree ⊢
    rcases hz : z.persistent with - | -
    · -- an ephemeral node is passed over
      rw [hz] at hstorable hfree
      rw [visitChildren, hz, Proc.whenever_false, Proc.pure_bind]
      exact ihBeside hbeside hdepth hstorable hp hfree
    · rw [hz] at hstorable hfree
      simp only [if_true] at hstorable hfree ⊢
      set below' := below.prune Znode.persistent
      set beside' := beside.prune Znode.persistent
      have hn' : n ∉ beside'.names := fun h => hn (Forest.names_prune_subset h)
      obtain ⟨haccepts, hcontent⟩ := hstorable (n :: p) z Forest.labelAt_self
      have hin : ∀ q, n :: p <:+ q → folder q = none := fun q hq =>
        hfree _ (Forest.covers_node.mpr (.inl hq))
      have hstore := storeData_ok loc hp haccepts (hin _ List.suffix_rfl) fun hvalue =>
        ⟨(hcontent hvalue).1, hin _ (List.suffix_cons ..)⟩
      -- the children find a directory with nothing in it but the value
      have hplaces : ∀ q, below'.Covers (n :: p) q →
          storeNode loc folder (n :: p) z.value q = none := fun q hq =>
        storeNode_free loc (fun hvalue => by
          have hnone := (hcontent hvalue).2
          rwa [Forest.labelAt_below hn' (List.suffix_cons ..) (contentName_cons_ne _)] at hnone)
          (fun q hq _ => hin q hq) hq
      have hchildren := ihBelow hbelow hroom (storable_below hn' hstorable) (by simp [storeNode])
        hplaces
      -- the siblings find the folder as it was
      have hout : ∀ q, beside'.Covers p q → ¬ n :: p <:+ q := fun q hq hsuffix =>
        Forest.Covers.not_of_notMem hn' hsuffix hq
      have hparent : ¬ n :: p <:+ p := fun h => by
        have hlen := h.length_le
        rw [List.length_cons] at hlen
        omega
      have hsiblings := ihBeside hbeside hdepth (storable_beside hn' hstorable)
        ((storeNode_outside loc below' hparent folder z.value).trans hp) fun q hq =>
          (storeNode_outside loc below' (hout q hq) folder z.value).trans
            (hfree q (Forest.covers_node.mpr (.inr hq)))
      rw [visitChildren, hz, Proc.whenever_true, Proc.bind_assoc, Proc.bind_ok hstore,
        Proc.bind_ok hchildren, hsiblings]
      congr 1
      funext q
      exact stored_node loc hn' folder q

/-- **A loop that returned had room**: every node of the forest has had its call. -/
theorem shallow_of_visitChildren_ok {f : Forest Znode} (hf : f.Distinct)
    (hleaves : f.LeavesUnless Znode.persistent) {depth : ℕ} {folder folder' : Folder} {u : Unit}
    (h : visitChildren vol loc depth f p folder = .ok u folder') : Shallow depth f p := by
  induction f generalizing p depth folder folder' u with
  | nil => nofun
  | node n z below beside ihBelow ihBeside =>
    obtain ⟨hn, hbelow, hbeside⟩ := hf
    obtain ⟨hleaf, hleavesBelow, hleavesBeside⟩ := hleaves
    rw [visitChildren_node] at h
    obtain ⟨v, mid, hfirst, hrest⟩ := Proc.bind_ok_inv h
    rw [shallow_node_iff hn]
    rcases hz : z.persistent with - | -
    · -- an ephemeral node has nothing below it
      obtain rfl := hleaf hz
      cases depth with
      | zero => cases hfirst
      | succ room => exact ⟨room, rfl, nofun, ihBeside hbeside hleavesBeside hrest⟩
    · obtain ⟨room, _, _, rfl, -, hchildren⟩ := visitNodes_ok_inv hfirst hz
      exact ⟨room, rfl, ihBelow hbelow hleavesBelow hchildren,
        ihBeside hbeside hleavesBeside hrest⟩

end Forests

/-! ## The whole backup -/

/-- Names that ZooKeeper allows, as far as a file system could object to them. -/
def allowedName (name : String) : Bool :=
  name != "" && name != "." && name != ".." && !name.toList.contains '/' &&
    !name.toList.contains '\x00'

/-- All names of a forest. -/
def allNames : Forest Znode → List String
  | .nil => []
  | .node n _ below beside => n :: (allNames below ++ allNames beside)

/-- A tree of znodes, as ZooKeeper can hold it: siblings have different names, and
ephemeral nodes are leaves. -/
structure ZnodeTree : Type where
  /-- the outermost node -/
  root : Znode
  /-- the nodes below it -/
  below : Forest Znode
  /-- the outermost node is persistent -/
  persistent : root.persistent = true
  /-- siblings have different names -/
  distinct : below.Distinct
  /-- ephemeral nodes have no children -/
  leaves : below.LeavesUnless Znode.persistent
  /-- ZooKeeper allows the names -/
  allowed : ∀ n ∈ allNames below, allowedName n = true

/-- The znode at `q`, for a tree at the path `p`. -/
def ZnodeTree.znodeAt (t : ZnodeTree) (p q : NodePath) : Option Znode :=
  if q = p then some t.root else t.below.labelAt p q

/-- The persistent znode at `q`. -/
def ZnodeTree.persistentAt (t : ZnodeTree) (p q : NodePath) : Option Znode :=
  (t.znodeAt p q).filter Znode.persistent

/-- What the restore makes of a path: a directory is a znode, and it has a value
if there is a regular file named `content` in it. -/
def denoted (folder : Folder) (q : NodePath) : Option Bool :=
  match folder q, folder (contentName :: q) with
  | some .dir, some (.file _) => some true
  | some .dir, _ => some false
  | _, _ => none

/-- The backup of a tree returns, with a stack that holds `depth` calls of
`visit_nodes` inside one another, and denotes exactly its persistent znodes, each
with a value if its own is not empty. -/
def BackedUp (depth : ℕ) (t : ZnodeTree) (p : NodePath) : Prop :=
  ∃ folder, visitNodes vol loc depth p t.root t.below Folder.empty = .ok () folder ∧
    ∀ q, p <:+ q → denoted folder q = (t.persistentAt p q).map fun z => !z.value.isEmpty

/-- The folder with nothing but the directories down to `p`. -/
def Folder.downTo (p : NodePath) : Folder := fun q => if q <:+ p then some .dir else none

theorem downTo_nil : Folder.downTo [] = Folder.empty := by
  funext q
  simp [Folder.downTo, Folder.empty]

theorem downTo_eq_none {p q : NodePath} (hq : p <:+ q) (hne : q ≠ p) :
    Folder.downTo p q = none := by
  rw [Folder.downTo, if_neg]
  intro h
  exact hne (h.eq_of_length (le_antisymm h.length_le hq.length_le))

/-- One directory more on the way down. -/
theorem downTo_cons (n : String) (p : NodePath) :
    Function.update (Folder.downTo p) (n :: p) (some .dir) = Folder.downTo (n :: p) := by
  funext q
  by_cases hq : q = n :: p
  · simp [Folder.downTo, hq]
  · rw [Function.update_of_ne hq, Folder.downTo, Folder.downTo]
    simp [List.suffix_cons_iff, hq]

variable {vol}

/-- `os.makedirs` on the empty folder. -/
theorem makedirs_ok {n : String} {p : NodePath} (haccepts : vol.accepts (n :: p) = true) :
    makedirs vol (n :: p) Folder.empty = .ok () (Folder.downTo (n :: p)) := by
  have hfree : Folder.downTo p (n :: p) = none :=
    downTo_eq_none (List.suffix_cons ..) (by simp)
  have hmkdir : mkdir vol (n :: p) (Folder.downTo p) = .ok () (Folder.downTo (n :: p)) := by
    rw [← downTo_cons]
    exact mkdir_ok (by simp [Folder.downTo]) haccepts hfree
  induction p generalizing n with
  | nil =>
    rw [downTo_nil] at hmkdir
    exact hmkdir
  | cons m p ih =>
    have hfree' : Folder.downTo p (m :: p) = none :=
      downTo_eq_none (List.suffix_cons ..) (by simp)
    have haccepts' := vol.accepts_parent _ _ haccepts
    have hparent := ih haccepts' hfree' (by
      rw [← downTo_cons]
      exact mkdir_ok (by simp [Folder.downTo]) haccepts' hfree')
    exact (Proc.bind_ok (Proc.recover_ok hparent)).trans hmkdir

/-- `store_data` for the outermost node. -/
theorem storeData_root {p : NodePath} {value : Bytes} (haccepts : vol.accepts p = true)
    (hcontent : value ≠ [] → vol.accepts (contentName :: p) = true) :
    storeData vol loc p value Folder.empty = .ok () (storeNode loc (Folder.downTo p) p value) := by
  have hmake : makeDirectory vol p Folder.empty = .ok true (Folder.downTo p) := by
    refine Proc.recover_ok ?_
    rw [Proc.bind_ok (Proc.observe_apply ..)]
    cases p with
    | nil =>
      rw [downTo_nil]
      rfl
    | cons n p => exact Proc.bind_ok (makedirs_ok haccepts)
  refine storeData_of_made loc hmake (by simp [Folder.downTo]) fun hvalue => ⟨hcontent hvalue, ?_⟩
  exact downTo_eq_none (List.suffix_cons ..) (contentName_cons_ne p)

variable (vol)

/-- Every znode, ephemeral ones included, lies less than `depth` levels below the
outermost one. Every persistent znode has a path that fits; one with a value has
room for the file, and no persistent child of the file's name. -/
structure Fits (depth : ℕ) (t : ZnodeTree) (p : NodePath) : Prop where
  levels : ∀ q z, t.znodeAt p q = some z → q.length < p.length + depth
  paths : ∀ q z, t.persistentAt p q = some z → vol.accepts q = true ∧
    (z.value ≠ [] → vol.accepts (contentName :: q) = true ∧
      t.persistentAt p (contentName :: q) = none)

section Tree

variable {vol} {depth : ℕ} {t : ZnodeTree} {p : NodePath}

/-- The persistent forest below the outermost node. -/
def ZnodeTree.kept (t : ZnodeTree) : Forest Znode := t.below.prune Znode.persistent

theorem persistentAt_root : t.persistentAt p p = some t.root := by
  simp [ZnodeTree.persistentAt, ZnodeTree.znodeAt, Option.filter, t.persistent]

/-- Below the root the persistent nodes are those of the pruned forest. -/
theorem persistentAt_below {q : NodePath} (hq : q ≠ p) :
    t.persistentAt p q = t.kept.labelAt p q := by
  rw [ZnodeTree.persistentAt, ZnodeTree.znodeAt, if_neg hq, ZnodeTree.kept,
    Forest.labelAt_prune t.distinct t.leaves]

/-- The levels of a tree: one for the outermost node, and those below it. -/
theorem levels_iff : (∀ q z, t.znodeAt p q = some z → q.length < p.length + depth) ↔
    ∃ room, depth = room + 1 ∧ Shallow room t.below p := by
  constructor
  · intro h
    have hroot := h p t.root (by rw [ZnodeTree.znodeAt, if_pos rfl])
    refine ⟨depth - 1, by omega, fun q z hq => ?_⟩
    have hlength := h q z (by
      rw [ZnodeTree.znodeAt, if_neg (Forest.covers_of_labelAt hq).ne, hq])
    omega
  · rintro ⟨room, rfl, hroom⟩ q z hq
    rw [ZnodeTree.znodeAt] at hq
    split at hq
    next hself =>
      rw [hself]
      omega
    next =>
      have hlength := hroom q z hq
      omega

/-- A tree that fits can be stored. -/
theorem Fits.storable (h : Fits vol depth t p) : Storable vol t.kept p := by
  intro q z hq
  have hcover := Forest.covers_of_labelAt hq
  have hne : contentName :: q ≠ p := fun heq => by
    have hlen := hcover.suffix.length_le
    rw [← heq, List.length_cons] at hlen
    omega
  have := h.paths q z (by rw [persistentAt_below hcover.ne, hq])
  rwa [persistentAt_below hne] at this

/-- The folder after the backup of a tree that fits. -/
theorem visitNodes_ok (h : Fits vol depth t p) :
    visitNodes vol loc depth p t.root t.below Folder.empty = .ok () fun q =>
      (stored loc t.kept p q).or (storeNode loc (Folder.downTo p) p t.root.value q) := by
  obtain ⟨haccepts, hcontent⟩ := h.paths p t.root persistentAt_root
  obtain ⟨room, rfl, hroom⟩ := levels_iff.mp h.levels
  have hstore := storeData_root loc haccepts fun hvalue => (hcontent hvalue).1
  rw [visitNodes, t.persistent, Proc.whenever_true, Proc.bind_ok hstore]
  refine visitChildren_ok loc t.distinct hroom h.storable (by simp [storeNode]) fun q hq => ?_
  refine storeNode_free loc (fun hvalue => ?_) (fun q => downTo_eq_none) hq
  rw [← (hcontent hvalue).2, persistentAt_below (contentName_cons_ne p)]
  rfl

/-- Only directories stand for nodes. -/
theorem denoted_of_not_dir {folder : Folder} {q : NodePath} (h : folder q ≠ some .dir) :
    denoted folder q = none := by
  unfold denoted
  split
  · contradiction
  · contradiction
  · rfl

/-- A directory without a file beside it: what its `content` is decides. -/
theorem denoted_dir {folder : Folder} {q : NodePath} {value : Bytes} (hdir : folder q = some .dir)
    (hvalue : value ≠ [] → folder (contentName :: q) = contentFile loc value)
    (hempty : value = [] → ∀ data, folder (contentName :: q) ≠ some (.file data)) :
    denoted folder q = some (!value.isEmpty) := by
  cases value with
  | nil =>
    unfold denoted
    split
    · exact absurd ‹_› (hempty rfl _)
    · rfl
    · simp_all
  | cons b bs =>
    have hfile := hvalue (by simp)
    rw [contentFile, if_neg (by simp)] at hfile
    simp [denoted, hdir, hfile]

/-- The `content` of a stored directory. -/
theorem stored_content {f : Forest Znode} {q : NodePath} {z : Znode} (hq : f.labelAt p q = some z)
    (hstorable : Storable vol f p) :
    (z.value ≠ [] → stored loc f p (contentName :: q) = contentFile loc z.value) ∧
      (z.value = [] → ∀ data, stored loc f p (contentName :: q) ≠ some (.file data)) := by
  constructor
  · intro hvalue
    rw [stored, ((hstorable q z hq).2 hvalue).2, if_neg (by simp), if_pos rfl, hq]
    rfl
  · intro hvalue data
    rw [stored]
    split
    · simp
    · simp [hq, contentFile, hvalue]

theorem contentFile_ne_dir (value : Bytes) : contentFile loc value ≠ some .dir := by
  unfold contentFile
  split <;> simp

/-- Only nodes are stored as directories. -/
theorem stored_ne_dir {f : Forest Znode} {q : NodePath} (h : f.labelAt p q = none) :
    stored loc f p q ≠ some .dir := by
  cases q with
  | nil => simp [stored]
  | cons n q =>
    rw [stored, h, if_neg (by simp)]
    split
    · rcases f.labelAt p q with - | w
      · simp
      · exact contentFile_ne_dir loc w.value
    · simp

theorem storeNode_ne_dir {folder : Folder} {value : Bytes} {q : NodePath} (hne : q ≠ p)
    (hfree : folder q = none) : storeNode loc folder p value q ≠ some .dir := by
  rw [storeNode, if_neg hne, hfree]
  split
  · rw [Option.or_none]
    exact contentFile_ne_dir loc value
  · simp

/-- **What the backup of a tree that fits denotes.** -/
theorem denoted_visitNodes (h : Fits vol depth t p) {q : NodePath} (hq : p <:+ q) :
    denoted (fun q => (stored loc t.kept p q).or
        (storeNode loc (Folder.downTo p) p t.root.value q)) q =
      (t.persistentAt p q).map fun z => !z.value.isEmpty := by
  have hcontent : ∀ {q}, p <:+ q → q ≠ p →
      storeNode loc (Folder.downTo p) p t.root.value (contentName :: q) = none := by
    intro q hq hne
    have hlen := hq.length_le
    have hself : contentName :: q ≠ p := fun heq => by
      rw [← heq, List.length_cons] at hlen
      omega
    rw [storeNode, if_neg hself, if_neg (by simpa using hne)]
    exact downTo_eq_none (hq.trans (List.suffix_cons ..)) hself
  by_cases hself : q = p
  · subst hself
    rw [persistentAt_root, Option.map_some]
    have hnode : t.kept.labelAt q q = none := Forest.labelAt_eq_none fun h => h.ne rfl
    have hfile : storeNode loc (Folder.downTo q) q t.root.value (contentName :: q) =
        contentFile loc t.root.value := by
      rw [storeNode, if_neg (contentName_cons_ne q), if_pos rfl,
        downTo_eq_none (List.suffix_cons ..) (contentName_cons_ne q), Option.or_none]
    refine denoted_dir loc ?_ (fun hvalue => ?_) fun hvalue data => ?_
    · rw [stored_eq_none loc fun h => h.ne rfl]
      simp [storeNode]
    · -- no persistent child is in the way of the value
      have hchild := ((h.paths q t.root persistentAt_root).2 hvalue).2
      rw [persistentAt_below (contentName_cons_ne q)] at hchild
      rw [hfile, stored, hchild, if_neg (by simp), if_pos rfl, hnode]
      rfl
    · rw [hfile, stored, hnode, contentFile, if_pos hvalue]
      split <;> simp
  · rw [persistentAt_below hself]
    rcases hlabel : t.kept.labelAt p q with - | z
    · -- no znode: nothing is there, or a value
      refine denoted_of_not_dir fun hdir => ?_
      rcases Option.or_eq_some_iff.mp hdir with hdir | ⟨-, hdir⟩
      · exact stored_ne_dir loc hlabel hdir
      · exact storeNode_ne_dir loc hself (downTo_eq_none hq hself) hdir
    · obtain ⟨hvalue, hempty⟩ := stored_content loc hlabel h.storable
      rw [Option.map_some]
      refine denoted_dir loc ?_ (fun hne => ?_) fun heq data => ?_
      · cases q with
        | nil => exact absurd (List.suffix_nil.mp hq).symm hself
        | cons n q =>
          rw [stored, hlabel]
          rfl
      · rw [hcontent hq hself, Option.or_none]
        exact hvalue hne
      · rw [hcontent hq hself, Option.or_none]
        exact hempty heq data

/-- A tree has nodes below its root only. -/
theorem suffix_of_persistentAt {q : NodePath} {z : Znode} (h : t.persistentAt p q = some z) :
    p <:+ q := by
  by_cases hq : q = p
  · rw [hq]
  · rw [persistentAt_below hq] at h
    exact (Forest.covers_of_labelAt h).suffix

/-- A node with a value has a file for it. -/
theorem file_of_denoted {folder : Folder} {q : NodePath} (h : denoted folder q = some true) :
    ∃ data, folder (contentName :: q) = some (.file data) := by
  unfold denoted at h
  split at h
  · exact ⟨_, ‹_›⟩
  · cases h
  · cases h

/-- **The encoding is faithful exactly when nothing collides.** The backup of a
tree returns and denotes exactly its persistent znodes and which of them have
values, if and only if the stack has room for its levels, every path fits the file
system and no znode with a value has a persistent child named `content`. -/
theorem backedUp_iff_fits (vol : Volume) (loc : Locale) (depth : ℕ) (t : ZnodeTree) (p : NodePath) :
    BackedUp vol loc depth t p ↔ Fits vol depth t p := by
  constructor
  · rintro ⟨folder, hrun, hdenoted⟩
    have hadds := (visitNodes_within vol loc depth p t.root t.below).ok hrun
    -- whatever is there has a path that fits
    have haccepts : ∀ q, folder q ≠ none → vol.accepts q = true := by
      intro q hq
      rcases hadds q hq with h | h
      · rw [Folder.empty] at h
        split at h
        · rename_i hroot
          rw [hroot, vol.accepts_root]
        · exact absurd rfl h
      · exact h
    have hdir : ∀ q z, t.persistentAt p q = some z → folder q = some .dir := by
      intro q z hq
      by_contra hne
      have := hdenoted q (suffix_of_persistentAt hq)
      rw [denoted_of_not_dir hne, hq] at this
      cases this
    obtain ⟨room, _, _, hdepth, -, hchildren⟩ := visitNodes_ok_inv hrun t.persistent
    refine ⟨levels_iff.mpr ⟨room, hdepth,
      shallow_of_visitChildren_ok loc t.distinct t.leaves hchildren⟩, fun q z hq => ?_⟩
    refine ⟨haccepts q (by rw [hdir q z hq]; simp), fun hvalue => ?_⟩
    have hmark := hdenoted q (suffix_of_persistentAt hq)
    rw [hq, Option.map_some, List.isEmpty_eq_false_iff.mpr hvalue, Bool.not_false] at hmark
    obtain ⟨data, hfile⟩ := file_of_denoted hmark
    refine ⟨haccepts _ (by rw [hfile]; simp), ?_⟩
    -- the same path cannot be the value's file and a child's directory
    rcases hchild : t.persistentAt p (contentName :: q) with - | w
    · rfl
    · have := hdir _ w hchild
      rw [hfile] at this
      cases this
  · intro h
    exact ⟨_, visitNodes_ok loc h, fun q hq => denoted_visitNodes loc h hq⟩

/-- A znode `/a` with a value, and a child named `content` without one. -/
def collidingTree : ZnodeTree where
  root := ⟨[], 0⟩
  below := .node "a" ⟨[0x78], 0⟩ (.node "content" ⟨[], 0⟩ .nil .nil) .nil
  persistent := rfl
  distinct := by decide
  leaves := by simp [Forest.LeavesUnless, Znode.persistent]
  allowed := by decide

/-- The value's file and the child's directory are the same path. -/
theorem not_backedUp_collidingTree : ¬ BackedUp .unlimited .utf8 1000 collidingTree [] := by
  rintro ⟨folder, -, hdenoted⟩
  have hvalue : denoted folder ["a"] = some true := hdenoted ["a"] (by simp)
  have hchild : denoted folder ["content", "a"] = some false :=
    hdenoted ["content", "a"] (by simp)
  obtain ⟨data, hfile⟩ := file_of_denoted hvalue
  have hnotdir : folder ["content", "a"] ≠ some .dir := by
    rw [show folder ["content", "a"] = some (.file data) from hfile]
    simp
  rw [denoted_of_not_dir hnotdir] at hchild
  cases hchild

end Tree

end QubershipZookeeper
