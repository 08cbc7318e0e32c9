import QubershipZookeeper.BackupFolder
import QubershipZookeeper.RestoreHierarchy

/-!
# The archive of a backup (`process_znode_hierarchy.py`, `restore`)

`shutil.make_archive` packs the folder of a backup: one entry per directory, with
a name that ends in `/`, and one per file. The restore finds its way in the
archive by these names alone. With no roots given it lists those names that are
one component and a slash, and takes `zookeeper` out of the list; then it extracts
each root by the prefix `<root>/`, leaving out the entry of that very name.

The order of the entries is the zip library's affair: an `Archive` of a folder is
any list of its entries, each once.
-/

namespace QubershipZookeeper

/-! ## Entry names -/

/-- The components of a path, joined by `/`. -/
def pathText : NodePath → List Char
  | [] => []
  | [n] => n.toList
  | n :: m :: p => pathText (m :: p) ++ '/' :: n.toList

/-- The name of an entry; that of a directory ends in `/`. -/
def entryName (entry : NodePath × Entry) : List Char :=
  pathText entry.1 ++ match entry.2 with
    | .dir => ['/']
    | .file _ => []

/-- `re.fullmatch(r'^[^/]+/$', name)`. -/
def isRootDirectory (name : List Char) : Bool :=
  name.getLast? = some '/' && name.dropLast != [] && !name.dropLast.contains '/'

/-- `get_znodes_list_from_archive`, on the `namelist` of the archive. -/
def getZnodesListFromArchive (namelist : List (List Char)) : Except RestoreError (List String) :=
  let nodesToRestore := (namelist.filter isRootDirectory).map fun x => String.ofList x.dropLast
  if "zookeeper" ∈ nodesToRestore then .ok (nodesToRestore.erase "zookeeper")
  else .error .valueError

/-- The entries that `extract_znode_from_archive` takes. -/
def isExtracted (znode : String) (name : List Char) : Bool :=
  (znode.toList ++ ['/']).isPrefixOf name && name != znode.toList ++ ['/']

/-- `archive.extract`: the entry, with the directories above it that are missing. -/
def extractEntry (folder : Folder) (entry : NodePath × Entry) : Folder := fun p =>
  if p = entry.1 then some entry.2
  else if p <:+ entry.1 ∧ folder p = none then some .dir
  else folder p

/-- `extract_znode_from_archive`. -/
def extractZnodeFromArchive (znode : String) (entries : List (NodePath × Entry)) (folder : Folder) :
    Folder :=
  (entries.filter fun entry => isExtracted znode (entryName entry)).foldl extractEntry folder

/-- The archive of a folder, as `shutil.make_archive` makes it. -/
structure Archive (folder : Folder) where
  entries : List (NodePath × Entry)
  nodup : (entries.map Prod.fst).Nodup
  mem_iff : ∀ q entry, (q, entry) ∈ entries ↔ q ≠ [] ∧ folder q = some entry

/-- A name that is one component of a path: not empty, without slashes. -/
def Component (n : String) : Prop := n.toList ≠ [] ∧ '/' ∉ n.toList

section Names

variable {n r : String} {p : NodePath} {entry : Entry}

/-- A name that is allowed is one component of a path. -/
theorem Component.of_allowedName (h : allowedName n = true) : Component n := by
  simp only [allowedName, Bool.and_eq_true, bne_iff_ne, ne_eq, Bool.not_eq_true',
    List.contains_eq_mem, decide_eq_false_iff_not] at h
  exact ⟨fun hnil => h.1.1.1.1 (String.toList_eq_nil_iff.mp hnil), h.1.2⟩

/-- Every path but a single component has a slash in it. -/
theorem slash_mem_pathText {m : String} : '/' ∈ pathText (n :: m :: p) := by
  simp [pathText]

/-- No path ends in a slash. -/
theorem getLast?_pathText (hn : Component n) : (pathText (n :: p)).getLast? ≠ some '/' := by
  have hlast : (pathText (n :: p)).getLast? = n.toList.getLast? := by
    cases p with
    | nil => rfl
    | cons m p =>
      rw [pathText, List.getLast?_append, List.getLast?_cons, List.getLast?_eq_some_getLast hn.1]
      rfl
  rw [hlast]
  intro h
  exact hn.2 (List.mem_of_getLast? h)

/-- The names that match the pattern are those of the directories at the top. -/
theorem isRootDirectory_entryName (hn : Component n) :
    isRootDirectory (entryName (n :: p, entry)) = true ↔ p = [] ∧ entry = .dir := by
  cases entry with
  | file data =>
    have hlast := getLast?_pathText (p := p) hn
    simp [isRootDirectory, entryName, hlast]
  | dir =>
    cases p with
    | nil => simpa [isRootDirectory, entryName, pathText, Component] using hn
    | cons m p => simp [isRootDirectory, entryName, slash_mem_pathText]

/-- A path starts with its outermost name, and goes on with a slash. -/
theorem pathText_root {front : NodePath} (hfront : ∀ n ∈ front, Component n) (hne : front ≠ []) :
    ∃ rest, rest ≠ [] ∧ pathText (front ++ [r]) = r.toList ++ '/' :: rest := by
  induction front with
  | nil => exact absurd rfl hne
  | cons n front ih =>
    have hn := (hfront n (by simp)).1
    cases front with
    | nil => exact ⟨n.toList, hn, rfl⟩
    | cons m front =>
      obtain ⟨rest, -, heq⟩ := ih (fun k hk => hfront k (by simp [hk])) (by simp)
      refine ⟨rest ++ '/' :: n.toList, by simp, ?_⟩
      rw [List.cons_append, List.cons_append, pathText, ← List.cons_append, heq]
      simp

/-- Two paths with the same text begin with the same component. -/
theorem eq_of_slash_eq {a b x y : List Char} (ha : '/' ∉ a) (hb : '/' ∉ b)
    (h : a ++ '/' :: x = b ++ '/' :: y) : a = b := by
  have htake : ∀ {c z : List Char}, '/' ∉ c → (c ++ '/' :: z).takeWhile (· ≠ '/') = c := by
    intro c z hc
    rw [List.takeWhile_append_of_pos]
    · simp
    · intro d hd
      exact decide_eq_true fun heq => hc (heq ▸ hd)
  rw [← htake (z := x) ha, h, htake hb]

/-- The entries that are extracted for a root are those below it. -/
theorem isExtracted_entryName (hr : Component r) {q : NodePath} (hq : ∀ n ∈ q, Component n)
    (hne : q ≠ []) : isExtracted r (entryName (q, entry)) = true ↔ [r] <:+ q ∧ q ≠ [r] := by
  obtain ⟨front, root, rfl⟩ := (List.eq_nil_or_concat q).resolve_left hne
  have hroot : Component root := hq root (by simp)
  have hsuffix : [r] <:+ front ++ [root] ↔ r = root := by
    constructor
    · rintro ⟨x, hx⟩
      simpa using (List.append_inj' hx rfl).2
    · rintro rfl
      exact List.suffix_append ..
  rw [List.concat_eq_append, hsuffix, isExtracted, Bool.and_eq_true, List.isPrefixOf_iff_prefix,
    bne_iff_ne]
  by_cases hfront : front = []
  · -- the root's own entry: a file has no slash, the directory's is left out
    subst hfront
    constructor
    · rintro ⟨⟨x, hx⟩, hother⟩
      cases entry with
      | dir =>
        have heq : r.toList = root.toList :=
          eq_of_slash_eq hr.2 hroot.2 (by simpa [entryName, pathText] using hx)
        exact absurd (by simp [entryName, pathText, heq]) hother
      | file data =>
        refine absurd (?_ : '/' ∈ root.toList) hroot.2
        have hmem : '/' ∈ r.toList ++ ['/'] ++ x := by simp
        rw [hx] at hmem
        simpa [entryName, pathText] using hmem
    · rintro ⟨rfl, hself⟩
      exact absurd rfl hself
  · obtain ⟨rest, hrest, heq⟩ := pathText_root (r := root) (fun n hn => hq n (by simp [hn])) hfront
    have hname : ∃ more, more ≠ [] ∧
        entryName (front ++ [root], entry) = root.toList ++ '/' :: more := by
      cases entry with
      | dir => exact ⟨rest ++ ['/'], by simp, by simp [entryName, heq]⟩
      | file data => exact ⟨rest, hrest, by simp [entryName, heq]⟩
    obtain ⟨more, hmore, hname⟩ := hname
    have hstrict : front ++ [root] ≠ [r] := by
      intro h
      exact hfront (List.append_inj' (h.trans (List.nil_append [r]).symm) rfl).1
    rw [hname]
    constructor
    · rintro ⟨⟨x, hx⟩, -⟩
      have hslash : r.toList ++ '/' :: x = root.toList ++ '/' :: more := by simpa using hx
      exact ⟨String.toList_inj.mp (eq_of_slash_eq hr.2 hroot.2 hslash), hstrict⟩
    · rintro ⟨rfl, -⟩
      refine ⟨⟨more, by simp⟩, ?_⟩
      simpa using hmore

end Names

/-! ## The archive of a backup -/

section Components

variable {vol : Volume} {loc : Locale} {depth : ℕ} {t : ZnodeTree} {znodes : List String}
  {folder : Folder}
  {u : Unit}

theorem mem_allNames_of_labelAt {f : Forest Znode} {p q : NodePath} {z : Znode}
    (h : f.labelAt p q = some z) : ∀ n ∈ q, n ∈ p ∨ n ∈ allNames f := by
  induction f generalizing p with
  | nil => cases h
  | node m b below beside ihBelow ihBeside =>
    intro n hn
    rw [allNames]
    rw [Forest.labelAt] at h
    split at h
    · rename_i heq
      subst heq
      rcases List.mem_cons.mp hn with rfl | hn
      · exact .inr (by simp)
      · exact .inl hn
    · rcases Option.or_eq_some_iff.mp h with h | ⟨-, h⟩
      · rcases ihBelow h n hn with hp | hp
        · rcases List.mem_cons.mp hp with rfl | hp
          · exact .inr (by simp)
          · exact .inl hp
        · exact .inr (by simp [hp])
      · rcases ihBeside h n hn with hp | hp
        · exact .inl hp
        · exact .inr (by simp [hp])

/-- All names on a chosen path are components. -/
theorem Chosen.component {q : NodePath} (h : t.Chosen znodes q) : ∀ n ∈ q, Component n := by
  intro n hn
  have hne : q ≠ [] := List.ne_nil_of_mem hn
  obtain ⟨w, hw⟩ := Option.ne_none_iff_exists'.mp h.1
  rw [ZnodeTree.persistentAt, ZnodeTree.znodeAt, if_neg hne] at hw
  have hlabel := (Option.filter_eq_some_iff.mp hw).1
  have hmem := (mem_allNames_of_labelAt hlabel n hn).resolve_left (by simp)
  exact Component.of_allowedName (t.allowed n hmem)

/-- Every name in the folder of a backup is a component: a znode's, or that of
the file with a value. -/
theorem component_of_backup
    (h : backup vol loc depth t znodes Folder.empty = .ok u folder) {q : NodePath}
    (hq : folder q ≠ none) : ∀ n ∈ q, Component n := by
  have hsound := sound_backup h
  have hdirs : ∀ {p : NodePath}, folder p = some .dir → ∀ n ∈ p, Component n := by
    intro p hp
    cases p with
    | nil => simp
    | cons m p => exact Chosen.component (hsound.dirs m p hp)
  cases q with
  | nil => simp
  | cons m p =>
    cases hentry : folder (m :: p) with
    | none => exact absurd hentry hq
    | some entry =>
      cases entry with
      | dir => exact hdirs hentry
      | file data =>
        obtain ⟨rfl, -⟩ := hsound.files m p data hentry
        have hcontent : Component contentName := Component.of_allowedName (by decide)
        exact List.forall_mem_cons.mpr ⟨hcontent, hdirs (hsound.parent _ p hq)⟩

end Components

/-- A folder that grew from the empty one can be archived. -/
theorem SoundFolder.exists_archive {vol : Volume} {S V : NodePath → Prop} {folder : Folder}
    (h : SoundFolder vol S V folder) : Nonempty (Archive folder) := by
  classical
  let paths := h.finite.toFinset.toList.filter fun q => q ≠ []
  have hpaths : ∀ q, q ∈ paths ↔ q ≠ [] ∧ folder q ≠ none := by
    intro q
    simp [paths, and_comm]
  have hfst : (paths.map fun q => (q, (folder q).getD .dir)).map Prod.fst = paths := by
    rw [List.map_map]
    exact List.map_id _
  refine ⟨⟨paths.map fun q => (q, (folder q).getD .dir), ?_, ?_⟩⟩
  · rw [hfst]
    exact (Finset.nodup_toList _).filter _
  · intro q entry
    rw [List.mem_map]
    constructor
    · rintro ⟨p, hp, heq⟩
      obtain ⟨rfl, rfl⟩ := Prod.mk.inj heq
      obtain ⟨hne, hpresent⟩ := (hpaths p).mp hp
      obtain ⟨e, he⟩ := Option.ne_none_iff_exists'.mp hpresent
      exact ⟨hne, by simp [he]⟩
    · rintro ⟨hne, hentry⟩
      exact ⟨q, (hpaths q).mpr ⟨hne, by simp [hentry]⟩, by simp [hentry]⟩

namespace Archive

variable {folder : Folder} (archive : Archive folder)

/-- `namelist()`. -/
def namelist : List (List Char) := archive.entries.map entryName

/-- The roots that a restore of everything starts from are those in the archive,
each once, without `zookeeper`. -/
def ListsRoots : Prop :=
  ∃ roots, rootsToRestore (.archive (getZnodesListFromArchive archive.namelist)) [] = .ok roots ∧
    roots.Nodup ∧ ∀ r, r ∈ roots ↔ ([r], Entry.dir) ∈ archive.entries ∧ r ≠ "zookeeper"

variable {archive}

/-- The list before `zookeeper` is taken out. -/
theorem listed_spec (hnames : ∀ q, folder q ≠ none → ∀ n ∈ q, Component n) :
    let listed := (archive.namelist.filter isRootDirectory).map fun x => String.ofList x.dropLast
    listed.Nodup ∧ ∀ r, r ∈ listed ↔ ([r], Entry.dir) ∈ archive.entries := by
  -- a name in the list stands for the directory of that name
  have hroot : ∀ entry ∈ archive.entries, isRootDirectory (entryName entry) = true →
      entry = ([String.ofList (entryName entry).dropLast], Entry.dir) := by
    rintro ⟨q, e⟩ hmem hmatch
    obtain ⟨hne, hq⟩ := (archive.mem_iff q e).mp hmem
    obtain ⟨n, p, rfl⟩ := List.exists_cons_of_ne_nil hne
    have hn := hnames (n :: p) (by simp [hq]) n (by simp)
    obtain ⟨rfl, rfl⟩ := (isRootDirectory_entryName hn).mp hmatch
    simp [entryName, pathText]
  have hlisted : (archive.namelist.filter isRootDirectory).map (fun x => String.ofList x.dropLast) =
      (archive.entries.filter fun entry => isRootDirectory (entryName entry)).map
        fun entry => String.ofList (entryName entry).dropLast := by
    rw [namelist, List.filter_map, List.map_map]
    rfl
  intro listed
  rw [show listed = _ from hlisted]
  constructor
  · refine List.Nodup.map_on ?_ (archive.nodup.of_map.filter _)
    rintro x hx y hy hxy
    obtain ⟨hx, hxmatch⟩ := List.mem_filter.mp hx
    obtain ⟨hy, hymatch⟩ := List.mem_filter.mp hy
    rw [hroot x hx hxmatch, hroot y hy hymatch, hxy]
  · intro r
    constructor
    · intro hr
      obtain ⟨entry, hentry, rfl⟩ := List.mem_map.mp hr
      obtain ⟨hmem, hmatch⟩ := List.mem_filter.mp hentry
      rw [← hroot entry hmem hmatch]
      exact hmem
    · intro hmem
      have hr := hnames [r] (by simp [((archive.mem_iff _ _).mp hmem).2]) r (by simp)
      refine List.mem_map.mpr ⟨([r], .dir), List.mem_filter.mpr ⟨hmem, ?_⟩, ?_⟩
      · exact (isRootDirectory_entryName hr).mpr ⟨rfl, rfl⟩
      · simp [entryName, pathText]

/-- The roots are found exactly when `zookeeper` is among them: `list.remove`
raises if there is nothing to remove. -/
theorem listsRoots_iff_mem (hnames : ∀ q, folder q ≠ none → ∀ n ∈ q, Component n) :
    archive.ListsRoots ↔ (["zookeeper"], Entry.dir) ∈ archive.entries := by
  obtain ⟨hnodup, hmem⟩ := archive.listed_spec hnames
  rw [← hmem]
  constructor
  · rintro ⟨roots, hroots, -⟩
    by_contra hno
    rw [rootsToRestore, if_pos rfl, getZnodesListFromArchive, if_neg hno] at hroots
    cases hroots
  · intro hyes
    refine ⟨_, ?_, hnodup.erase "zookeeper", fun r => ?_⟩
    · rw [rootsToRestore, if_pos rfl, getZnodesListFromArchive, if_pos hyes]
    · rw [hnodup.mem_erase_iff, hmem]
      exact and_comm

/-- **Restoring everything from an archive.** The roots are found exactly when
the backup stored the `zookeeper` znode: it is persistent, its path fits, and it
was asked for if anything was. -/
theorem listsRoots_iff (vol : Volume) (loc : Locale) (depth : ℕ) (t : ZnodeTree)
    (znodes : List String)
    {u : Unit} (h : backup vol loc depth t znodes Folder.empty = .ok u folder)
    (archive : Archive folder) :
    archive.ListsRoots ↔
      (∃ z below, t.below.tree? "zookeeper" = some (z, below) ∧ z.persistent = true) ∧
        vol.accepts ["zookeeper"] = true ∧ (znodes = [] ∨ "zookeeper" ∈ znodes) := by
  rw [listsRoots_iff_mem fun q => component_of_backup h, archive.mem_iff,
    backup_root_iff h (by decide)]
  exact and_iff_right (by simp)

/-- Two roots beside `zookeeper`: `/a` has neither value nor children, `/ab` has
a value. -/
def twoRoots : ZnodeTree where
  root := ⟨[], 0⟩
  below := .node "zookeeper" ⟨[], 0⟩ .nil
    (.node "a" ⟨[], 0⟩ .nil (.node "ab" ⟨[0x78], 0⟩ .nil .nil))
  persistent := Znode.persistent_zero []
  distinct := by decide
  leaves := by simp [Forest.LeavesUnless, Znode.persistent]
  allowed := by decide

theorem exists_backup_twoRoots (znodes : List String) (h : znodes ∈ [[], ["ab"]]) :
    ∃ u folder, backup .unlimited .utf8 1000 twoRoots znodes Folder.empty = .ok u folder := by
  have hreturned : ∀ znodes ∈ [[], ["ab"]],
      (backup .unlimited .utf8 1000 twoRoots znodes Folder.empty).returned = true := by
        decide +kernel
  exact Outcome.returned_iff.mp (hreturned znodes h)

/-- The full backup has `zookeeper` in it. -/
theorem listsRoots_full :
    ∃ u folder, backup .unlimited .utf8 1000 twoRoots [] Folder.empty = .ok u folder ∧
    ∃ archive : Archive folder, archive.ListsRoots := by
  obtain ⟨u, folder, h⟩ := exists_backup_twoRoots [] (by decide)
  obtain ⟨archive⟩ := (sound_backup h).exists_archive
  refine ⟨u, folder, h, archive,
    (listsRoots_iff .unlimited .utf8 1000 twoRoots [] h archive).mpr ?_⟩
  exact ⟨⟨⟨[], 0⟩, .nil, rfl, rfl⟩, rfl, .inl rfl⟩

/-- The backup of `/ab` alone has not, and everything cannot be restored from it. -/
theorem not_listsRoots_granular :
    ∃ u folder, backup .unlimited .utf8 1000 twoRoots ["ab"] Folder.empty = .ok u folder ∧
      ∃ archive : Archive folder, ¬ archive.ListsRoots := by
  obtain ⟨u, folder, h⟩ := exists_backup_twoRoots ["ab"] (by decide)
  obtain ⟨archive⟩ := (sound_backup h).exists_archive
  refine ⟨u, folder, h, archive, fun hlists => ?_⟩
  have hmem := (listsRoots_iff_mem fun q => component_of_backup h).mp hlists
  obtain ⟨-, -, hchosen⟩ := (backup_root_iff h (by decide)).mp ((archive.mem_iff _ _).mp hmem).2
  exact absurd hchosen (by decide)

/-! ## Extraction -/

section Extraction

variable {entries : List (NodePath × Entry)} {before : Folder} {q : NodePath}

/-- An extracted entry is there. -/
theorem extractEntry_self (entry : Entry) : extractEntry before (q, entry) q = some entry :=
  if_pos rfl

/-- What is there stays, unless an entry of that path comes. -/
theorem foldl_extractEntry_present {x : Entry} (hq : q ∉ entries.map Prod.fst)
    (hx : before q = some x) : entries.foldl extractEntry before q = some x := by
  induction entries generalizing before with
  | nil => exact hx
  | cons entry entries ih =>
    simp only [List.map_cons, List.mem_cons, not_or] at hq
    refine ih hq.2 ?_
    rw [extractEntry, if_neg hq.1, hx]
    simp

/-- What no entry is at or below is left alone. -/
theorem foldl_extractEntry_outside (hq : ∀ entry ∈ entries, ¬ q <:+ entry.1) :
    entries.foldl extractEntry before q = before q := by
  induction entries generalizing before with
  | nil => rfl
  | cons entry entries ih =>
    have hentry := hq entry (by simp)
    have hne : q ≠ entry.1 := fun heq => hentry (heq ▸ List.suffix_rfl)
    rw [List.foldl_cons, ih fun other hother => hq other (by simp [hother]), extractEntry,
      if_neg hne, if_neg fun h => hentry h.1]

/-- Every entry is recreated. -/
theorem foldl_extractEntry_mem {entry : Entry} (hnodup : (entries.map Prod.fst).Nodup)
    (hmem : (q, entry) ∈ entries) : entries.foldl extractEntry before q = some entry := by
  induction entries generalizing before with
  | nil => cases hmem
  | cons first entries ih =>
    rw [List.map_cons, List.nodup_cons] at hnodup
    rw [List.foldl_cons]
    rcases List.mem_cons.mp hmem with rfl | hmem
    · exact foldl_extractEntry_present hnodup.1 (extractEntry_self entry)
    · exact ih hnodup.2 hmem

/-- So are the directories above them. -/
theorem foldl_extractEntry_above (hq : q ∉ entries.map Prod.fst) (hfree : before q = none)
    {p : NodePath} (hp : p ∈ entries.map Prod.fst) (hsuffix : q <:+ p) :
    entries.foldl extractEntry before q = some .dir := by
  induction entries generalizing before with
  | nil => cases hp
  | cons entry entries ih =>
    simp only [List.map_cons, List.mem_cons, not_or] at hq hp
    rw [List.foldl_cons]
    by_cases habove : q <:+ entry.1
    · refine foldl_extractEntry_present hq.2 ?_
      rw [extractEntry, if_neg hq.1, if_pos ⟨habove, hfree⟩]
    · have hp' : p ∈ entries.map Prod.fst := hp.resolve_left fun heq => habove (heq ▸ hsuffix)
      refine ih hq.2 ?_ hp'
      rw [extractEntry, if_neg hq.1, if_neg fun h => habove h.1, hfree]

end Extraction

/-- `os.walk` from `p` comes to `q`. -/
def Walked (folder : Folder) (p q : NodePath) : Prop :=
  ∀ s, p <:+ s → s <:+ q → folder s = some .dir

variable (archive)

/-- Extracting a root, into a folder that has nothing of it yet, gives the tree
that was archived and touches no other root. -/
def Extracts (r : String) : Prop :=
  ∀ before : Folder, (∀ q, [r] <:+ q → before q = none) →
    let after := extractZnodeFromArchive r archive.entries before
    after [r] = some .dir ∧ (∀ q, [r] <:+ q → after q = folder q) ∧
      (∀ q, q ≠ [] → ¬ [r] <:+ q → after q = before q) ∧
      ∀ q, [r] <:+ q → folder q = some .dir → Walked after [r] q

variable {archive}

section Root

variable {r : String} (hnames : ∀ q, folder q ≠ none → ∀ n ∈ q, Component n)
  (hclosed : ∀ n p, folder (n :: p) ≠ none → folder p = some .dir)
  (hdir : folder [r] = some .dir)

include hnames hdir in
/-- What is extracted for a root: the entries below it. -/
theorem mem_extracted {q : NodePath} {entry : Entry} :
    (q, entry) ∈ archive.entries.filter (fun entry => isExtracted r (entryName entry)) ↔
      folder q = some entry ∧ [r] <:+ q ∧ q ≠ [r] := by
  have hr : Component r := hnames [r] (by simp [hdir]) r (by simp)
  rw [List.mem_filter, archive.mem_iff]
  constructor
  · rintro ⟨⟨hne, hq⟩, hextracted⟩
    exact ⟨hq, (isExtracted_entryName hr (hnames q (by simp [hq])) hne).mp hextracted⟩
  · rintro ⟨hq, hbelow⟩
    have hne : q ≠ [] := by
      rintro rfl
      cases List.suffix_nil.mp hbelow.1
    exact ⟨⟨hne, hq⟩, (isExtracted_entryName hr (hnames q (by simp [hq])) hne).mpr hbelow⟩

include hnames hdir in
theorem mem_extracted_paths {q : NodePath} :
    q ∈ (archive.entries.filter fun entry => isExtracted r (entryName entry)).map Prod.fst ↔
      folder q ≠ none ∧ [r] <:+ q ∧ q ≠ [r] := by
  rw [List.mem_map]
  constructor
  · rintro ⟨⟨p, entry⟩, hmem, rfl⟩
    obtain ⟨hq, hbelow⟩ := (mem_extracted hnames hdir).mp hmem
    exact ⟨by simp [hq], hbelow⟩
  · rintro ⟨hq, hbelow⟩
    obtain ⟨entry, hentry⟩ := Option.ne_none_iff_exists'.mp hq
    exact ⟨(q, entry), (mem_extracted hnames hdir).mpr ⟨hentry, hbelow⟩, rfl⟩

include hclosed in
/-- Every entry has directories above it. -/
theorem dir_of_suffix {p q : NodePath} (hp : p <:+ q) (hne : p ≠ q) (hq : folder q ≠ none) :
    folder p = some .dir := by
  induction q with
  | nil => exact absurd (List.suffix_nil.mp hp) hne
  | cons n q ih =>
    have hparent := hclosed n q hq
    rcases List.suffix_cons_iff.mp hp with heq | hp
    · exact absurd heq hne
    · by_cases hpq : p = q
      · rw [hpq, hparent]
      · exact ih hp hpq (by simp [hparent])

include hnames hclosed hdir in
/-- The root's directory comes with what is inside it, and only with it. -/
theorem extracts_iff_exists :
    archive.Extracts r ↔ ∃ q, [r] <:+ q ∧ q ≠ [r] ∧ folder q ≠ none := by
  have hnodup := archive.nodup.sublist
    (List.filter_sublist (p := fun entry => isExtracted r (entryName entry)).map Prod.fst)
  have hroot : [r] ∉ (archive.entries.filter fun entry =>
      isExtracted r (entryName entry)).map Prod.fst := by
    rw [mem_extracted_paths hnames hdir]
    simp
  constructor
  · intro hextracts
    by_contra hnone
    -- nothing is selected, and an empty folder stays empty
    obtain ⟨hthere, -⟩ := hextracts (fun _ => none) fun _ _ => rfl
    rw [extractZnodeFromArchive, foldl_extractEntry_outside] at hthere
    · cases hthere
    · rintro ⟨q, entry⟩ hmem hsuffix
      obtain ⟨hq, hbelow, hne⟩ := (mem_extracted hnames hdir).mp hmem
      exact hnone ⟨q, hbelow, hne, by simp [hq]⟩
  · rintro ⟨inside, hinside, hstrict, hpresent⟩ before hbefore after
    have hself : after [r] = some .dir :=
      foldl_extractEntry_above hroot (hbefore _ List.suffix_rfl)
        ((mem_extracted_paths hnames hdir).mpr ⟨hpresent, hinside, hstrict⟩) hinside
    have hsame : ∀ q, [r] <:+ q → after q = folder q := by
      intro q hq
      by_cases hqr : q = [r]
      · rw [hqr, hself, hdir]
      · cases hentry : folder q with
        | some entry =>
          exact foldl_extractEntry_mem hnodup ((mem_extracted hnames hdir).mpr ⟨hentry, hq, hqr⟩)
        | none =>
          rw [← hbefore q hq]
          refine foldl_extractEntry_outside ?_
          rintro ⟨p, entry⟩ hmem hsuffix
          obtain ⟨hp, -⟩ := (mem_extracted hnames hdir).mp hmem
          -- what is above an entry is a directory of the archive
          have hne : q ≠ p := by
            rintro rfl
            rw [hentry] at hp
            cases hp
          have hqdir := dir_of_suffix hclosed hsuffix hne (by simp [hp])
          rw [hentry] at hqdir
          cases hqdir
    refine ⟨hself, hsame, ?_, ?_⟩
    · intro q hne hout
      refine foldl_extractEntry_outside ?_
      rintro ⟨p, entry⟩ hmem hsuffix
      obtain ⟨-, hbelow, -⟩ := (mem_extracted hnames hdir).mp hmem
      rcases List.suffix_or_suffix_of_suffix hbelow hsuffix with h | h
      · exact hout h
      · rcases List.suffix_cons_iff.mp h with rfl | h
        · exact hout List.suffix_rfl
        · exact hne (List.suffix_nil.mp h)
    · intro q hq hqdir s hs hsq
      rw [hsame s hs]
      by_cases hsame' : s = q
      · rw [hsame', hqdir]
      · exact dir_of_suffix hclosed hsq hsame' (by simp [hqdir])

end Root

/-- **Extracting a root of an archive.** The root's tree is recreated exactly
when there is something inside it: it has a value, or a persistent child whose
path fits. -/
theorem extracts_iff (vol : Volume) (loc : Locale) (depth : ℕ) (t : ZnodeTree)
    (znodes : List String)
    {u : Unit} (h : backup vol loc depth t znodes Folder.empty = .ok u folder)
    (archive : Archive folder) (r : String) (hr : ([r], Entry.dir) ∈ archive.entries) (z : Znode)
    (below : Forest Znode) (htree : t.below.tree? r = some (z, below)) :
    archive.Extracts r ↔ z.value ≠ [] ∨ ∃ m w inner, below.tree? m = some (w, inner) ∧
      w.persistent = true ∧ vol.accepts [m, r] = true := by
  have hdir : folder [r] = some .dir := ((archive.mem_iff _ _).mp hr).2
  rw [extracts_iff_exists (fun q => component_of_backup h) (sound_backup h).parent hdir]
  exact backup_below_iff h hdir htree

/-- `/ab` has a value, and is extracted. -/
theorem extracts_ab :
    ∃ u folder, backup .unlimited .utf8 1000 twoRoots [] Folder.empty = .ok u folder ∧
    ∃ archive : Archive folder, (["ab"], Entry.dir) ∈ archive.entries ∧ archive.Extracts "ab" := by
  obtain ⟨u, folder, h⟩ := exists_backup_twoRoots [] (by decide)
  obtain ⟨archive⟩ := (sound_backup h).exists_archive
  have hdir : folder ["ab"] = some .dir :=
    (backup_root_iff h (by decide)).mpr ⟨⟨⟨[0x78], 0⟩, .nil, rfl, rfl⟩, rfl, .inl rfl⟩
  have hmem : (["ab"], Entry.dir) ∈ archive.entries := (archive.mem_iff _ _).mpr ⟨by simp, hdir⟩
  refine ⟨u, folder, h, archive, hmem, ?_⟩
  exact (extracts_iff .unlimited .utf8 1000 twoRoots [] h archive "ab" hmem
    ⟨[0x78], 0⟩ .nil rfl).mpr
    (.inl (by simp))

/-- `/a` has nothing in it, and nothing is extracted for it. -/
theorem not_extracts_a :
    ∃ u folder, backup .unlimited .utf8 1000 twoRoots [] Folder.empty = .ok u folder ∧
    ∃ archive : Archive folder, (["a"], Entry.dir) ∈ archive.entries ∧ ¬ archive.Extracts "a" := by
  obtain ⟨u, folder, h⟩ := exists_backup_twoRoots [] (by decide)
  obtain ⟨archive⟩ := (sound_backup h).exists_archive
  have hdir : folder ["a"] = some .dir :=
    (backup_root_iff h (by decide)).mpr ⟨⟨⟨[], 0⟩, .nil, rfl, rfl⟩, rfl, .inl rfl⟩
  refine ⟨u, folder, h, archive, (archive.mem_iff _ _).mpr ⟨by simp, hdir⟩, ?_⟩
  rw [extracts_iff_exists (fun q => component_of_backup h) (sound_backup h).parent hdir,
    backup_below_iff h hdir (z := ⟨[], 0⟩) rfl]
  rintro (hvalue | ⟨m, w, inner, hchild, -⟩)
  · exact hvalue rfl
  · cases hchild

end Archive

end QubershipZookeeper
