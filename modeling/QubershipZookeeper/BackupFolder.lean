import Mathlib.Data.Set.Finite.Basic
import Mathlib.Logic.Relation
import QubershipZookeeper.BackupHierarchy

/-!
# What a backup leaves on disk (`process_znode_hierarchy.py`, `backup`)

`backup` stores the whole tree, or the requested roots one after the other. When
it returns, not every znode need be there: a directory that could not be made was
passed over with a message. What can be said of the folder in every case comes
from one relation, `Grows`: the folder changes by new directories and by files
for values, each made in a directory that was there.

* `SoundFolder` — what holds of every folder that grew from the empty one;
* `visitNodes_present` — what a round that returned has certainly made.
-/

namespace QubershipZookeeper

variable (vol : Volume) (loc : Locale) (depth : ℕ)

/-- `backup`, on the folder that was just made. -/
def backup (t : ZnodeTree) (znodes : List String) : Store Unit :=
  if znodes = [] then visitNodes vol loc depth [] t.root t.below
  else Proc.forEach znodes fun znode =>
    match t.below.tree? znode with
    | some (z, below) => visitNodes vol loc depth [znode] z below
    | none => Proc.raise .noNode

/-! ## How the folder grows -/

/-- One new directory or one file written. `S` are the paths that may become
directories, `V` the directories that may get a value. -/
inductive Adds (S V : NodePath → Prop) : Folder → Folder → Prop where
  | dir {folder : Folder} {n : String} {p : NodePath} : vol.accepts (n :: p) = true → S (n :: p) →
      folder p = some .dir → folder (n :: p) = none →
      Adds S V folder (Function.update folder (n :: p) (some .dir))
  | file {folder : Folder} {p : NodePath} (data : Bytes) : vol.accepts (contentName :: p) = true →
      V p → folder p = some .dir → folder (contentName :: p) ≠ some .dir →
      Adds S V folder (Function.update folder (contentName :: p) (some (.file data)))

/-- The folder after any number of additions. -/
def Grows (S V : NodePath → Prop) : Folder → Folder → Prop :=
  Relation.ReflTransGen (Adds vol S V)

instance (S V : NodePath → Prop) : Std.Refl (Grows vol S V) := ⟨fun _ => .refl⟩

instance (S V : NodePath → Prop) : IsTrans Folder (Grows vol S V) := ⟨fun _ _ _ => .trans⟩

section Grows

variable {vol loc depth} {S V : NodePath → Prop}

/-- After the parent has been checked. -/
theorem checked_grows {p : NodePath} {α : Type} {m : Unit → Store α}
    (hm : ∀ folder, vol.accepts p = true → folder p.tail = some .dir →
      Grows vol S V folder (m () folder).next) :
    Proc.Within (Grows vol S V) (checkParent vol p >>= m) := by
  intro folder
  rcases h : checkParent vol p folder with ⟨u, folder'⟩ | ⟨e, folder'⟩
  · obtain ⟨haccepts, hparent, rfl⟩ := checkParent_ok_inv h
    rw [Proc.bind_ok h]
    exact hm folder' haccepts hparent
  · have hnext := checkParent_next vol p folder
    rw [h] at hnext
    rw [Proc.bind_raised h]
    subst hnext
    exact .refl

/-- The steps of the backup add entries under paths that are to be stored, and change none. -/
theorem mkdir_grows {n : String} {p : NodePath} (hS : S (n :: p)) :
    Proc.Within (Grows vol S V) (mkdir vol (n :: p)) := by
  refine checked_grows fun folder haccepts hparent => ?_
  rw [Proc.bind_ok (Proc.observe_apply ..)]
  cases hfree : folder (n :: p) with
  | some entry => exact .refl
  | none => exact .single (.dir haccepts hS hparent hfree)

theorem makedirs_grows (hS : ∀ n p, S (n :: p) → S p) {p : NodePath} (hp : S p) :
    Proc.Within (Grows vol S V) (makedirs vol p) := by
  induction p with
  | nil => exact Proc.within_raise _
  | cons n p ih =>
    refine (Proc.within_observe _).bind fun present => (Proc.Within.whenever ?_).bind fun _ =>
      mkdir_grows hp
    refine (ih (hS n p hp)).recover fun e k hk => ?_
    split at hk
    · cases hk
      exact Proc.within_pure _
    · cases hk

/-- The file is opened empty, then written. -/
theorem writeContent_grows {p : NodePath} {value : Bytes} (hV : V p) :
    Proc.Within (Grows vol S V) (writeContent vol loc p value) := by
  rw [writeContent, openForWriting, Proc.bind_assoc]
  refine checked_grows fun folder haccepts hparent => ?_
  rw [Proc.bind_assoc, Proc.bind_ok (Proc.observe_apply ..)]
  by_cases hdir : folder (contentName :: p) = some .dir
  · rw [if_pos hdir]
    exact .refl
  · have hopened : Adds vol S V folder
      (Function.update folder (contentName :: p) (some (.file []))) :=
      .file [] haccepts hV hparent hdir
    rw [if_neg hdir, Proc.bind_ok (Proc.update_apply ..), encodeValue_ok, Proc.lift_ok,
      Proc.pure_bind, Proc.update_apply]
    refine .tail (.single hopened) (.file _ haccepts hV ?_ (by simp))
    rw [Function.update_of_ne (contentName_cons_ne p).symm]
    exact hparent

/-- A value is written where a value is to be stored. -/
theorem storeData_grows (hS : ∀ n p, S (n :: p) → S p) {p : NodePath} {value : Bytes} (hp : S p)
    (hV : value ≠ [] → V p) : Proc.Within (Grows vol S V) (storeData vol loc p value) := by
  have hmake : Proc.Within (Grows vol S V) (makeDirectory vol p) := by
    refine ((Proc.within_observe _).bind fun present => (Proc.Within.whenever
      (makedirs_grows hS hp)).bind fun _ => Proc.within_pure _).recover fun e k hk => ?_
    split at hk
    · cases hk
      exact Proc.within_pure _
    · cases hk
  refine hmake.bind fun made => ?_
  cases value with
  | nil =>
    rw [List.isEmpty_nil, Bool.not_true, Bool.and_false]
    exact Proc.within_pure _
  | cons b value => exact Proc.Within.whenever (writeContent_grows (hV (by simp)))

/-- The persistent nodes of a forest become directories, those with a value get
one. -/
theorem visitChildren_grows (hS : ∀ n p, S (n :: p) → S p) {f : Forest Znode} (hf : f.Distinct)
    {p : NodePath} (h : ∀ q z, (f.prune Znode.persistent).labelAt p q = some z →
      S q ∧ (z.value ≠ [] → V q)) :
    Proc.Within (Grows vol S V) (visitChildren vol loc depth f p) := by
  induction f generalizing depth p with
  | nil => exact Proc.within_pure _
  | node n z below beside ihBelow ihBeside =>
    obtain ⟨hn, hbelow, hbeside⟩ := hf
    have hn' : n ∉ (beside.prune Znode.persistent).names :=
      fun hmem => hn (Forest.names_prune_subset hmem)
    rw [Forest.prune] at h
    rw [visitChildren_node]
    by_cases hz : z.persistent = true
    · rw [if_pos hz] at h
      obtain ⟨hself, hvalue⟩ := h (n :: p) z Forest.labelAt_self
      have hunder (room : ℕ) :
          Proc.Within (Grows vol S V) (visitChildren vol loc room below (n :: p)) := by
        refine ihBelow hbelow fun q w hq => h q w ?_
        have hcover := Forest.covers_of_labelAt hq
        rw [Forest.labelAt_below hn' hcover.suffix hcover.ne, hq]
      have hrest : Proc.Within (Grows vol S V) (visitChildren vol loc depth beside p) := by
        refine ihBeside hbeside fun q w hq => h q w ?_
        have hcover := Forest.covers_of_labelAt hq
        rw [Forest.labelAt_beside fun hin => Forest.Covers.not_of_notMem hn' hin hcover, hq]
      exact (visitNodes_within_of vol loc (fun _ => storeData_grows hS hself hvalue)
        fun _ => hunder).bind fun _ => hrest
    · rw [if_neg hz] at h
      exact (visitNodes_within_of vol loc (fun hpersistent => absurd hpersistent hz)
        fun hpersistent => absurd hpersistent hz).bind fun _ => ihBeside hbeside h

/-- The visit of a tree adds what its persistent nodes ask for. -/
theorem visitNodes_grows (hS : ∀ n p, S (n :: p) → S p) {p : NodePath} {z : Znode}
    {f : Forest Znode} (hf : f.Distinct) (hp : z.persistent = true → S p ∧ (z.value ≠ [] → V p))
    (h : z.persistent = true → ∀ q w, (f.prune Znode.persistent).labelAt p q = some w →
      S q ∧ (w.value ≠ [] → V q)) :
    Proc.Within (Grows vol S V) (visitNodes vol loc depth p z f) :=
  visitNodes_within_of vol loc (fun hz => storeData_grows hS (hp hz).1 (hp hz).2)
    fun hz _ => visitChildren_grows hS hf (h hz)

end Grows

/-! ## What holds of the folder -/

/-- The folder is a tree of directories that may be there, with values in those
that may have one. -/
structure SoundFolder (S V : NodePath → Prop) (folder : Folder) : Prop where
  root : folder [] = some .dir
  accepted : ∀ q, folder q ≠ none → vol.accepts q = true
  parent : ∀ n p, folder (n :: p) ≠ none → folder p = some .dir
  dirs : ∀ n p, folder (n :: p) = some .dir → S (n :: p)
  files : ∀ n p data, folder (n :: p) = some (.file data) → n = contentName ∧ V p
  finite : {q | folder q ≠ none}.Finite

section Sound

variable {vol} {S V : NodePath → Prop} {folder folder' : Folder}

theorem sound_empty : SoundFolder vol S V Folder.empty where
  root := rfl
  accepted q hq := by
    by_cases h : q = []
    · rw [h, vol.accepts_root]
    · simp [Folder.empty, h] at hq
  parent n p h := by simp [Folder.empty] at h
  dirs n p h := by simp [Folder.empty] at h
  files n p data h := by simp [Folder.empty] at h
  finite := by
    refine (Set.finite_singleton ([] : NodePath)).subset ?_
    intro q hq
    by_contra hne
    simp only [Set.mem_singleton_iff] at hne
    simp [Folder.empty, hne] at hq

/-- A new entry keeps all that does not depend on what it is. -/
theorem SoundFolder.update {n : String} {p : NodePath} {entry : Entry}
    (h : SoundFolder vol S V folder)
    (haccepts : vol.accepts (n :: p) = true) (hparent : folder p = some .dir)
    (hfree : folder (n :: p) ≠ some .dir) (hdir : entry = .dir → S (n :: p))
    (hfile : ∀ data, entry = .file data → n = contentName ∧ V p) :
    SoundFolder vol S V (Function.update folder (n :: p) (some entry)) := by
  have hold : ∀ {q}, q ≠ n :: p → Function.update folder (n :: p) (some entry) q = folder q :=
    fun hq => Function.update_of_ne hq ..
  refine ⟨?_, ?_, ?_, ?_, ?_, ?_⟩
  · rw [hold (by simp)]
    exact h.root
  · intro q hq
    by_cases hqp : q = n :: p
    · rw [hqp, haccepts]
    · rw [hold hqp] at hq
      exact h.accepted q hq
  · intro m q hq
    by_cases hqp : m :: q = n :: p
    · obtain ⟨rfl, rfl⟩ := List.cons.inj hqp
      rwa [hold (by simp)]
    · rw [hold hqp] at hq
      have hdirq := h.parent m q hq
      -- nothing was below the new entry
      have hne : q ≠ n :: p := by
        rintro rfl
        exact hfree hdirq
      rwa [hold hne]
  · intro m q hq
    by_cases hqp : m :: q = n :: p
    · rw [hqp, Function.update_self] at hq
      rw [hqp]
      exact hdir (Option.some.inj hq)
    · rw [hold hqp] at hq
      exact h.dirs m q hq
  · intro m q data hq
    by_cases hqp : m :: q = n :: p
    · rw [hqp, Function.update_self] at hq
      obtain ⟨rfl, rfl⟩ := List.cons.inj hqp
      exact hfile data (Option.some.inj hq)
    · rw [hold hqp] at hq
      exact h.files m q data hq
  · refine (h.finite.insert (n :: p)).subset ?_
    intro q hq
    by_cases hqp : q = n :: p
    · exact .inl hqp
    · exact .inr ((hold hqp).symm.trans_ne hq)

/-- A sound folder stays sound when entries are added. -/
theorem SoundFolder.adds (h : SoundFolder vol S V folder) (hadds : Adds vol S V folder folder') :
    SoundFolder vol S V folder' := by
  cases hadds with
  | dir haccepts hS hparent hfree =>
    exact h.update haccepts hparent (by simp [hfree]) (fun _ => hS) (by simp)
  | file data haccepts hV hparent hfree =>
    exact h.update haccepts hparent hfree (by simp) (fun _ _ => ⟨rfl, hV⟩)

theorem SoundFolder.grows (h : SoundFolder vol S V folder) (hgrows : Grows vol S V folder folder') :
    SoundFolder vol S V folder' := by
  induction hgrows with
  | refl => exact h
  | tail _ hadds ih => exact ih.adds hadds

/-- Nothing is removed. -/
theorem Adds.present (h : Adds vol S V folder folder') {q : NodePath} (hq : folder q ≠ none) :
    folder' q ≠ none := by
  cases h with
  | dir haccepts hS hparent hfree =>
    have hne : q ≠ _ := fun heq => hq (heq ▸ hfree)
    rwa [Function.update_of_ne hne]
  | @file p data haccepts hV hparent hfree =>
    by_cases hqp : q = contentName :: p
    · simp [hqp]
    · rwa [Function.update_of_ne hqp]

/-- What is there stays there. -/
theorem Grows.present (h : Grows vol S V folder folder') {q : NodePath} (hq : folder q ≠ none) :
    folder' q ≠ none := by
  induction h with
  | refl => exact hq
  | tail _ hadds ih => exact hadds.present ih

/-- Entries do not change their kind. -/
theorem Grows.dir_of_dir (h : Grows vol S V folder folder') {q : NodePath}
    (hq : folder q ≠ none) (hdir : folder' q = some .dir) : folder q = some .dir := by
  induction h with
  | refl => exact hdir
  | tail hgrows hadds ih =>
    refine ih ?_
    have hmid := Grows.present hgrows hq
    cases hadds with
    | dir haccepts hS hparent hfree =>
      have hne : q ≠ _ := fun heq => hmid (heq ▸ hfree)
      rwa [Function.update_of_ne hne] at hdir
    | @file p data haccepts hV hparent hfree =>
      by_cases hqp : q = contentName :: p
      · simp [hqp] at hdir
      · rwa [Function.update_of_ne hqp] at hdir

end Sound

/-! ## What a round that returned has made -/

section Present

variable {vol loc depth} {S V : NodePath → Prop} {folder folder' : Folder}

/-- Forgetting which paths may be made. -/
def Retains (vol : Volume) : Folder → Folder → Prop := Grows vol (fun _ => True) (fun _ => True)

instance : Std.Refl (Retains vol) := ⟨fun _ => .refl⟩

instance : IsTrans Folder (Retains vol) := ⟨fun _ _ _ => .trans⟩

/-- A directory is made where its parent is. -/
theorem makeDirectory_present {p : NodePath} (haccepts : vol.accepts p = true)
    (hparent : folder p.tail = some .dir) :
    ∃ made, makeDirectory vol p folder = .ok true made ∧ made p ≠ none := by
  cases hp : folder p with
  | some entry =>
    refine ⟨folder, Proc.recover_ok ?_, by simp [hp]⟩
    rw [Proc.bind_ok (Proc.observe_apply ..), hp]
    rfl
  | none =>
    cases p with
    | nil => exact absurd (hp.symm.trans hparent) (by simp)
    | cons n p =>
      refine ⟨Function.update folder (n :: p) (some .dir), Proc.recover_ok ?_, by simp⟩
      have hmake : makedirs vol (n :: p) folder =
          .ok () (Function.update folder (n :: p) (some .dir)) := by
        rw [makedirs, Proc.bind_ok (Proc.observe_apply ..), show folder p = some .dir from hparent]
        exact mkdir_ok hparent haccepts hp
      rw [Proc.bind_ok (Proc.observe_apply ..), hp]
      exact Proc.bind_ok hmake

theorem writeContent_ok_inv {p : NodePath} {value : Bytes} {u : Unit}
    (h : writeContent vol loc p value folder = .ok u folder') :
    folder' (contentName :: p) ≠ none := by
  obtain ⟨-, opened, -, hrest⟩ := Proc.bind_ok_inv h
  obtain ⟨data, read, -, hwrite⟩ := Proc.bind_ok_inv hrest
  obtain ⟨-, rfl⟩ := Proc.update_ok_inv hwrite
  simp

/-- `store_data`, in a directory that is there, at a path that fits. -/
theorem storeData_present {p : NodePath} {value : Bytes} {u : Unit}
    (h : storeData vol loc p value folder = .ok u folder') (haccepts : vol.accepts p = true)
    (hparent : folder p.tail = some .dir) :
    folder' p ≠ none ∧ (value ≠ [] → folder' (contentName :: p) ≠ none) := by
  obtain ⟨made, hmake, hp⟩ := makeDirectory_present haccepts hparent
  rw [storeData, Proc.bind_ok hmake] at h
  cases value with
  | nil =>
    obtain ⟨-, rfl⟩ := Proc.pure_ok_inv h
    exact ⟨hp, by simp⟩
  | cons b value =>
    have hwrite : writeContent vol loc p (b :: value) made = .ok u folder' := h
    have hkeeps : Retains vol made folder' := (writeContent_grows trivial).ok hwrite
    exact ⟨hkeeps.present hp, fun _ => writeContent_ok_inv hwrite⟩

/-- In the loop over the children, every child has its round. -/
theorem visitChildren_reaches {f below : Forest Znode} (hf : f.Distinct) {p : NodePath} {n : String}
    {z : Znode} {u : Unit} (h : visitChildren vol loc depth f p folder = .ok u folder')
    (htree : f.tree? n = some (z, below)) :
    ∃ s s' v, visitNodes vol loc depth (n :: p) z below s = .ok v s' ∧ Retains vol folder s ∧
      Retains vol s' folder' := by
  induction f generalizing folder with
  | nil => cases htree
  | node m w inner beside _ ih =>
    obtain ⟨-, hinner, hbeside⟩ := hf
    rw [visitChildren_node] at h
    obtain ⟨v, mid, hfirst, hrest⟩ := Proc.bind_ok_inv h
    rw [Forest.tree?] at htree
    by_cases hnm : n = m
    · subst hnm
      rw [if_pos rfl] at htree
      cases htree
      have hkeeps : Retains vol mid folder' :=
        (visitChildren_grows (fun _ _ _ => trivial) hbeside fun _ _ _ =>
          ⟨trivial, fun _ => trivial⟩).ok
          hrest
      exact ⟨folder, mid, v, hfirst, .refl, hkeeps⟩
    · rw [if_neg hnm] at htree
      obtain ⟨s, s', v', hround, hbefore, hafter⟩ := ih hbeside hrest htree
      have hkeeps : Retains vol folder mid :=
        (visitNodes_grows (fun _ _ _ => trivial) hinner (fun _ => ⟨trivial, fun _ => trivial⟩)
          fun _ _ _ _ => ⟨trivial, fun _ => trivial⟩).ok hfirst
      exact ⟨s, s', v', hround, hkeeps.trans hbefore, hafter⟩

/-- A round that returned has made the directory of its znode, if that is possible at all, and its
value. -/
theorem visitNodes_present {p : NodePath} {z : Znode} {below : Forest Znode} {u : Unit}
    (h : visitNodes vol loc depth p z below folder = .ok u folder') (hbelow : below.Distinct)
    (hz : z.persistent = true) (haccepts : vol.accepts p = true)
    (hparent : folder p.tail = some .dir) :
    folder' p ≠ none ∧ (z.value ≠ [] → folder' (contentName :: p) ≠ none) := by
  obtain ⟨room, v, mid, -, hstore, hchildren⟩ := visitNodes_ok_inv h hz
  have hkeeps : Retains vol mid folder' :=
    (visitChildren_grows (fun _ _ _ => trivial) hbelow fun _ _ _ => ⟨trivial, fun _ => trivial⟩).ok
      hchildren
  obtain ⟨hself, hvalue⟩ := storeData_present hstore haccepts hparent
  exact ⟨hkeeps.present hself, fun hne => hkeeps.present (hvalue hne)⟩

/-- It has also made the directories of its persistent children. -/
theorem visitNodes_child_present {p : NodePath} {z w : Znode} {below inner : Forest Znode}
    {m : String} {u : Unit} (h : visitNodes vol loc depth p z below folder = .ok u folder')
    (hbelow : below.Distinct) (hz : z.persistent = true) (haccepts : vol.accepts p = true)
    (hparent : folder p.tail = some .dir) (hdir : folder' p = some .dir)
    (hchild : below.tree? m = some (w, inner)) (hw : w.persistent = true)
    (hfits : vol.accepts (m :: p) = true) : folder' (m :: p) ≠ none := by
  obtain ⟨room, v, mid, -, hstore, hchildren⟩ := visitNodes_ok_inv h hz
  obtain ⟨s, s', v', hround, hbefore, hafter⟩ := visitChildren_reaches hbelow hchildren hchild
  have hround' : Retains vol s s' :=
    (visitNodes_grows (fun _ _ _ => trivial) (hbelow.tree hchild)
      (fun _ => ⟨trivial, fun _ => trivial⟩) fun _ _ _ _ => ⟨trivial, fun _ => trivial⟩).ok hround
  have hs : s p ≠ none := hbefore.present (storeData_present hstore haccepts hparent).1
  have hsdir : s p = some .dir := Grows.dir_of_dir (hround'.trans hafter) hs hdir
  exact hafter.present (visitNodes_present hround (hbelow.tree hchild) hw hfits hsdir).1

end Present

/-! ## The folder of a backup -/

/-- The persistent znodes at and below the requested roots. -/
def ZnodeTree.Chosen (t : ZnodeTree) (znodes : List String) (q : NodePath) : Prop :=
  t.persistentAt [] q ≠ none ∧ (znodes = [] ∨ q = [] ∨ ∃ r ∈ znodes, [r] <:+ q)

/-- The persistent znodes with a value. -/
def ZnodeTree.Valued (t : ZnodeTree) (q : NodePath) : Prop :=
  ∃ z, t.persistentAt [] q = some z ∧ z.value ≠ []

section Backup

variable {vol loc depth} {t : ZnodeTree} {znodes : List String} {r : String} {z : Znode}
  {below : Forest Znode} {folder : Folder} {u : Unit}

/-- The parent of a chosen node is chosen. -/
theorem Chosen.parent (n : String) (p : NodePath) (h : t.Chosen znodes (n :: p)) :
    t.Chosen znodes p := by
  obtain ⟨hpersistent, hroots⟩ := h
  constructor
  · rw [persistentAt_below (by simp)] at hpersistent
    obtain ⟨w, hw⟩ := Option.ne_none_iff_exists'.mp hpersistent
    rcases Forest.labelAt_parent hw with rfl | ⟨w', hw'⟩
    · rw [persistentAt_root]
      simp
    · rw [persistentAt_below (Forest.covers_of_labelAt hw').ne, hw']
      simp
  · rcases hroots with hnil | hcons | ⟨r, hr, hsuffix⟩
    · exact .inl hnil
    · cases hcons
    · rcases List.suffix_cons_iff.mp hsuffix with heq | hsuffix
      · exact .inr (.inl (List.cons.inj heq).2.symm)
      · exact .inr (.inr ⟨r, hr, hsuffix⟩)

/-- Inside a root, the tree is that root's. -/
theorem persistentAt_tree (htree : t.below.tree? r = some (z, below)) {q : NodePath}
    (hq : [r] <:+ q) :
    t.persistentAt [] q = if q = [r] then (some z).filter Znode.persistent
      else (below.prune Znode.persistent).labelAt [r] q := by
  have hne : q ≠ [] := by
    rintro rfl
    cases List.suffix_nil.mp hq
  rw [ZnodeTree.persistentAt, ZnodeTree.znodeAt, if_neg hne,
    Forest.labelAt_tree t.distinct htree hq,
    Forest.labelAt_prune (t.distinct.tree htree) (t.leaves.tree htree)]
  split <;> rfl

/-- A root's own round makes only what is persistent at and below it. -/
theorem root_grows (htree : t.below.tree? r = some (z, below))
    (hr : znodes = [] ∨ r ∈ znodes) :
    Proc.Within (Grows vol (t.Chosen znodes) t.Valued) (visitNodes vol loc depth [r] z below) := by
  have hchosen : ∀ q w, [r] <:+ q → t.persistentAt [] q = some w →
      t.Chosen znodes q ∧ (w.value ≠ [] → t.Valued q) := by
    intro q w hq hw
    refine ⟨⟨by simp [hw], ?_⟩, fun hvalue => ⟨w, hw, hvalue⟩⟩
    rcases hr with hr | hr
    · exact .inl hr
    · exact .inr (.inr ⟨r, hr, hq⟩)
  refine visitNodes_grows Chosen.parent (t.distinct.tree htree) (fun hz => ?_) fun _ q w hq => ?_
  · refine hchosen [r] z List.suffix_rfl ?_
    rw [persistentAt_tree htree List.suffix_rfl, if_pos rfl]
    simp [Option.filter, hz]
  · have hcover := Forest.covers_of_labelAt hq
    refine hchosen q w hcover.suffix ?_
    rw [persistentAt_tree htree hcover.suffix, if_neg hcover.ne, hq]

/-- A backup stores chosen nodes only. -/
theorem backup_grows :
    Proc.Within (Grows vol (t.Chosen znodes) t.Valued) (backup vol loc depth t znodes) := by
  rw [backup]
  split
  · rename_i hnil
    have hchosen : ∀ q w, t.persistentAt [] q = some w →
        t.Chosen znodes q ∧ (w.value ≠ [] → t.Valued q) :=
      fun q w hw => ⟨⟨by simp [hw], .inl hnil⟩, fun hvalue => ⟨w, hw, hvalue⟩⟩
    refine visitNodes_grows Chosen.parent t.distinct (fun _ => hchosen _ _ persistentAt_root)
      fun _ q w hq => hchosen q w ?_
    rw [persistentAt_below (Forest.covers_of_labelAt hq).ne]
    exact hq
  · refine Proc.forEach_within fun r hr => ?_
    split
    · exact root_grows ‹_› (.inr hr)
    · exact Proc.within_raise _

/-- So what it leaves is sound. -/
theorem sound_backup (h : backup vol loc depth t znodes Folder.empty = .ok u folder) :
    SoundFolder vol (t.Chosen znodes) t.Valued folder :=
  sound_empty.grows (backup_grows.ok h)

/-- In a backup that returned, every requested root had its round. -/
theorem backup_reaches (h : backup vol loc depth t znodes Folder.empty = .ok u folder)
    (htree : t.below.tree? r = some (z, below)) (hr : znodes = [] ∨ r ∈ znodes) :
    ∃ room s s' v, visitNodes vol loc room [r] z below s = .ok v s' ∧ Retains vol Folder.empty s ∧
      Retains vol s' folder := by
  rw [backup] at h
  split at h
  · obtain ⟨room, v, mid, -, hstore, hchildren⟩ := visitNodes_ok_inv h t.persistent
    obtain ⟨s, s', v', hround, hbefore, hafter⟩ := visitChildren_reaches t.distinct hchildren htree
    have hroot : Retains vol Folder.empty mid :=
      (storeData_grows (fun _ _ _ => trivial) trivial fun _ => trivial).ok hstore
    exact ⟨room, s, s', v', hround, hroot.trans hbefore, hafter⟩
  · rename_i hne
    have hrounds : ∀ r ∈ znodes, Proc.Within (Retains vol) (match t.below.tree? r with
        | some (z, below) => visitNodes vol loc depth [r] z below
        | none => Proc.raise .noNode) := by
      intro r _
      split
      · exact visitNodes_grows (fun _ _ _ => trivial) (t.distinct.tree ‹_›)
          (fun _ => ⟨trivial, fun _ => trivial⟩) fun _ _ _ _ => ⟨trivial, fun _ => trivial⟩
      · exact Proc.within_raise _
    obtain ⟨s, s', hround, hbefore, hafter⟩ :=
      Proc.forEach_reaches hrounds h (hr.resolve_left hne)
    rw [htree] at hround
    exact ⟨depth, s, s', (), hround, hbefore, hafter⟩

theorem exists_tree_of_persistentAt {w : Znode} (h : t.persistentAt [] [r] = some w) :
    ∃ below, t.below.tree? r = some (w, below) ∧ w.persistent = true := by
  cases htree : t.below.tree? r with
  | none =>
    rw [persistentAt_below (by simp), ZnodeTree.kept, Forest.labelAt_prune t.distinct t.leaves,
      Forest.labelAt_no_tree htree List.suffix_rfl] at h
    cases h
  | some tree =>
    obtain ⟨z, below⟩ := tree
    rw [persistentAt_tree htree List.suffix_rfl, if_pos rfl] at h
    obtain ⟨heq, hpersistent⟩ := Option.filter_eq_some_iff.mp h
    cases heq
    exact ⟨below, rfl, hpersistent⟩

/-- A root that was chosen is a persistent znode, and one of those requested. -/
theorem Chosen.root (h : t.Chosen znodes [r]) :
    (∃ w below, t.below.tree? r = some (w, below) ∧ w.persistent = true) ∧
      (znodes = [] ∨ r ∈ znodes) := by
  obtain ⟨hpersistent, hroots⟩ := h
  constructor
  · obtain ⟨w, hw⟩ := Option.ne_none_iff_exists'.mp hpersistent
    exact ⟨w, exists_tree_of_persistentAt hw⟩
  · rcases hroots with hnil | hcons | ⟨r', hr', hsuffix⟩
    · exact .inl hnil
    · cases hcons
    · obtain ⟨rfl, -⟩ := List.cons.inj (hsuffix.eq_of_length rfl)
      exact .inr hr'

/-- Which roots are stored as directories. -/
theorem backup_root_iff (h : backup vol loc depth t znodes Folder.empty = .ok u folder)
    (hr : r ≠ contentName) :
    folder [r] = some .dir ↔
      (∃ z below, t.below.tree? r = some (z, below) ∧ z.persistent = true) ∧
        vol.accepts [r] = true ∧ (znodes = [] ∨ r ∈ znodes) := by
  have hsound := sound_backup h
  constructor
  · intro hdir
    obtain ⟨htree, hchosen⟩ := Chosen.root (hsound.dirs r [] hdir)
    exact ⟨htree, hsound.accepted _ (by simp [hdir]), hchosen⟩
  · rintro ⟨⟨z, below, htree, hz⟩, haccepts, hchosen⟩
    obtain ⟨room, s, s', v, hround, hbefore, hafter⟩ := backup_reaches h htree hchosen
    have hs : s [] = some .dir := (sound_empty.grows hbefore).root
    have hpresent := hafter.present
      (visitNodes_present hround (t.distinct.tree htree) hz haccepts hs).1
    cases hentry : folder [r] with
    | none => exact absurd hentry hpresent
    | some entry =>
      cases entry with
      | dir => rfl
      | file data => exact absurd (hsound.files r [] data hentry).1 hr

/-- In a sound folder every entry has its ancestors. -/
theorem SoundFolder.suffix {S V : NodePath → Prop} (h : SoundFolder vol S V folder) {p q : NodePath}
    (hp : p <:+ q) (hq : folder q ≠ none) : folder p ≠ none := by
  induction q with
  | nil => rwa [List.suffix_nil.mp hp]
  | cons n q ih =>
    rcases List.suffix_cons_iff.mp hp with rfl | hp
    · exact hq
    · exact ih hp (by simp [h.parent n q hq])

/-- When there is something inside the directory of a root: its value, or a
child. -/
theorem backup_below_iff (h : backup vol loc depth t znodes Folder.empty = .ok u folder)
    (hdir : folder [r] = some .dir) (htree : t.below.tree? r = some (z, below)) :
    (∃ q, [r] <:+ q ∧ q ≠ [r] ∧ folder q ≠ none) ↔
      z.value ≠ [] ∨ ∃ m w inner, below.tree? m = some (w, inner) ∧ w.persistent = true ∧
        vol.accepts [m, r] = true := by
  have hsound := sound_backup h
  constructor
  · rintro ⟨q, hsuffix, hne, hq⟩
    -- the entry one level below the root on the way to `q`
    obtain ⟨m, hm⟩ : ∃ m, [m, r] <:+ q := by
      obtain ⟨front, rfl⟩ := hsuffix
      rcases List.eq_nil_or_concat front with rfl | ⟨front, m, rfl⟩
      · exact absurd rfl hne
      · exact ⟨m, front, by simp⟩
    have hmid := hsound.suffix hm hq
    cases hentry : folder [m, r] with
    | none => exact absurd hentry hmid
    | some entry =>
      cases entry with
      | dir =>
        right
        obtain ⟨hpersistent, -⟩ := hsound.dirs m [r] hentry
        have hbelow : [m, r] ≠ [r] := by simp
        rw [persistentAt_tree htree (List.suffix_cons ..), if_neg hbelow,
          Forest.labelAt_prune (t.distinct.tree htree) (t.leaves.tree htree)] at hpersistent
        cases hchild : below.tree? m with
        | none =>
          rw [Forest.labelAt_no_tree hchild List.suffix_rfl] at hpersistent
          exact absurd rfl hpersistent
        | some child =>
          obtain ⟨w, inner⟩ := child
          rw [Forest.labelAt_tree (t.distinct.tree htree) hchild List.suffix_rfl, if_pos rfl]
            at hpersistent
          obtain ⟨w', hw'⟩ := Option.ne_none_iff_exists'.mp hpersistent
          obtain ⟨heq, hw⟩ := Option.filter_eq_some_iff.mp hw'
          cases heq
          exact ⟨m, w, inner, hchild, hw, hsound.accepted _ (by simp [hentry])⟩
      | file data =>
        left
        obtain ⟨-, w, hw, hvalue⟩ := hsound.files m [r] data hentry
        obtain ⟨below', htree', -⟩ := exists_tree_of_persistentAt hw
        rw [htree] at htree'
        cases htree'
        exact hvalue
  · intro hinside
    obtain ⟨⟨w, below', htree', hz⟩, hchosen⟩ := Chosen.root (hsound.dirs r [] hdir)
    rw [htree] at htree'
    cases htree'
    obtain ⟨room, s, s', v, hround, hbefore, hafter⟩ := backup_reaches h htree hchosen
    have hs : s [] = some .dir := (sound_empty.grows hbefore).root
    have haccepts : vol.accepts [r] = true := hsound.accepted _ (by simp [hdir])
    have hdistinct := t.distinct.tree htree
    obtain ⟨hself, hvalue⟩ := visitNodes_present hround hdistinct hz haccepts hs
    rcases hinside with hne | ⟨m, w', inner, hchild, hw', hfits⟩
    · exact ⟨[contentName, r], List.suffix_cons .., by simp, hafter.present (hvalue hne)⟩
    · have hs' : s' [r] = some .dir := hafter.dir_of_dir hself hdir
      have hpresent := visitNodes_child_present hround hdistinct hz haccepts hs hs' hchild hw' hfits
      exact ⟨[m, r], List.suffix_cons .., by simp, hafter.present hpresent⟩

end Backup

end QubershipZookeeper
