import Mathlib.Logic.Function.Basic
import QubershipZookeeper.Proc
import QubershipZookeeper.Forest
import QubershipZookeeper.TextFile

/-!
# Storing znodes in files (`process_znode_hierarchy.py`, `visit_nodes`)

A znode becomes a directory of its name, and its value, unless empty, a file
named `content` in that directory. Children and the value thus share one
namespace.

`visitNodes` follows the code, over a file system that can refuse a path: a
directory that cannot be made is reported and passed over, a file that cannot be
written raises. It calls itself for each child, and the stack of the interpreter
holds so many calls inside one another and no more; the number is a parameter.
-/

namespace QubershipZookeeper

/-! ## The file system -/

/-- What stands at a path. -/
inductive Entry : Type where
  /-- a directory -/
  | dir
  /-- a regular file -/
  | file (data : Bytes)
  deriving DecidableEq, Repr

/-- The contents of the folder `znodes`; paths are relative to it. -/
abbrev Folder : Type := NodePath → Option Entry

/-- The folder as `os.makedirs(znodes_folder)` leaves it. -/
def Folder.empty : Folder := fun p => if p = [] then some .dir else none

/-- A file system: which paths it can hold (names and whole paths can be too long
for it). -/
structure Volume : Type where
  /-- can the path be made? -/
  accepts : NodePath → Bool
  /-- the folder itself is there -/
  accepts_root : accepts [] = true
  /-- a path can only be made if its parent can -/
  accepts_parent : ∀ n p, accepts (n :: p) = true → accepts p = true

/-- A file system without limits. -/
def Volume.unlimited : Volume := ⟨fun _ => true, rfl, fun _ _ _ => rfl⟩

/-- What can go wrong. -/
inductive StoreError : Type where
  /-- `FileExistsError` -/
  | fileExists
  /-- `FileNotFoundError` -/
  | notFound
  /-- `NotADirectoryError` -/
  | notADirectory
  /-- `IsADirectoryError` -/
  | isADirectory
  /-- any other `OSError`: the path is too long -/
  | refused
  /-- `UnicodeEncodeError`, which is no `OSError` -/
  | unicodeEncode
  /-- `NoNodeError` of ZooKeeper, which is none either -/
  | noNode
  /-- `RecursionError`, nor is this -/
  | recursion
  deriving DecidableEq, Repr

/-- Is it a subclass of `OSError`? -/
def StoreError.isOSError : StoreError → Bool
  | unicodeEncode => false
  | noNode => false
  | recursion => false
  | _ => true

/-- A procedure over the folder. -/
abbrev Store : Type → Type := Proc StoreError Folder

variable (vol : Volume) (loc : Locale)

/-- What a new entry at a path needs: a path that fits, in a directory. -/
def checkParent (p : NodePath) : Store Unit := fun folder =>
  if vol.accepts p then
    match folder p.tail with
    | some .dir => .ok () folder
    | some (.file _) => .raised .notADirectory folder
    | none => .raised .notFound folder
  else .raised .refused folder

/-- `os.mkdir`. -/
def mkdir (p : NodePath) : Store Unit := do
  checkParent vol p
  let present ← Proc.observe fun folder => (folder p).isSome
  if present then Proc.raise .fileExists
  else Proc.update fun folder => Function.update folder p (some .dir)

/-- `os.makedirs`: missing parents first. -/
def makedirs : NodePath → Store Unit
  | [] => Proc.raise .fileExists
  | n :: p => do
    let present ← Proc.observe fun folder => (folder p).isSome
    Proc.whenever (!present) ((makedirs p).recover fun
      | .fileExists => some (pure ())
      | _ => none)
    mkdir vol (n :: p)

/-- `open(p, 'w')`: the file is there, and empty, from then on. -/
def openForWriting (p : NodePath) : Store Unit := do
  checkParent vol p
  let entry ← Proc.observe fun folder => folder p
  if entry = some .dir then Proc.raise .isADirectory
  else Proc.update fun folder => Function.update folder p (some (.file []))

/-- The name of the file that holds a value. -/
def contentName : String := "content"

/-- The value written as text, in the locale's encoding. -/
def encodeValue (value : Bytes) : Except StoreError Bytes :=
  match loc.encode (cp437Decode value) with
  | some data => .ok data
  | none => .error .unicodeEncode

/-! ## `store_data` and `visit_nodes` -/

/-- The `try` block of `store_data`: is the directory there afterwards, as far as
the code can tell? -/
def makeDirectory (p : NodePath) : Store Bool :=
  (do
    let present ← Proc.observe fun folder => (folder p).isSome
    Proc.whenever (!present) (makedirs vol p)
    pure true : Store Bool).recover fun e => if e.isOSError then some (pure false) else none

/-- The end of `store_data`: the file with the value. -/
def writeContent (p : NodePath) (value : Bytes) : Store Unit := do
  openForWriting vol (contentName :: p)
  let data ← Proc.lift (encodeValue loc value)
  Proc.update fun folder => Function.update folder (contentName :: p) (some (.file data))

/-- `store_data`. -/
def storeData (p : NodePath) (value : Bytes) : Store Unit := do
  let made ← makeDirectory vol p
  Proc.whenever (made && !value.isEmpty) (writeContent vol loc p value)

/-- A znode: its value, and the session that owns it if it is ephemeral. -/
structure Znode : Type where
  /-- the value -/
  value : Bytes
  /-- owning session, zero for a persistent node -/
  ephemeralOwner : ℕ
  deriving DecidableEq, Repr

/-- Is the znode persistent? -/
def Znode.persistent (z : Znode) : Bool := z.ephemeralOwner == 0

theorem Znode.persistent_zero (value : Bytes) : (Znode.mk value 0).persistent = true := rfl

/-- The loop of `visit_nodes` over the children of `p`, when the stack has room for
`depth` more calls inside one another. A call asks ZooKeeper for the znode before
anything else, so without room for it nothing is stored; that goes for ephemeral
znodes as well. -/
def visitChildren : ℕ → Forest Znode → NodePath → Store Unit
  | _, .nil, _ => pure ()
  | 0, .node .., _ => Proc.raise .recursion
  | depth + 1, .node n z below beside, p => do
    Proc.whenever z.persistent (do
      storeData vol loc (n :: p) z.value
      visitChildren depth below (n :: p))
    visitChildren (depth + 1) beside p

/-- `visit_nodes` at the path `p`, when the stack has room for `depth` calls inside
one another. -/
def visitNodes : ℕ → NodePath → Znode → Forest Znode → Store Unit
  | 0, _, _, _ => Proc.raise .recursion
  | depth + 1, p, z, children => Proc.whenever z.persistent (do
      storeData vol loc p z.value
      visitChildren vol loc depth children p)

/-- `visit_nodes` calls itself on each child. -/
theorem visitChildren_node (depth : ℕ) (n : String) (z : Znode) (below beside : Forest Znode)
    (p : NodePath) :
    visitChildren vol loc depth (.node n z below beside) p = (do
      visitNodes vol loc depth (n :: p) z below
      visitChildren vol loc depth beside p) := by
  cases depth <;> rfl

variable {vol loc} in
/-- A call for a persistent znode that returned: there was room for it, and both its
parts returned. -/
theorem visitNodes_ok_inv {depth : ℕ} {p : NodePath} {z : Znode}
    {children : Forest Znode} {u : Unit}
    {folder folder' : Folder} (h : visitNodes vol loc depth p z children folder = .ok u folder')
    (hz : z.persistent = true) :
    ∃ room v mid, depth = room + 1 ∧ storeData vol loc p z.value folder = .ok v mid ∧
      visitChildren vol loc room children p mid = .ok u folder' := by
  cases depth with
  | zero => cases h
  | succ room =>
    rw [visitNodes, hz] at h
    obtain ⟨v, mid, hstore, hchildren⟩ := Proc.bind_ok_inv h
    exact ⟨room, v, mid, rfl, hstore, hchildren⟩

/-! ## Only paths that fit are made -/

/-- New entries are at paths that the file system can hold. -/
def AddsAccepted (folder folder' : Folder) : Prop :=
  ∀ q, folder' q ≠ none → folder q ≠ none ∨ vol.accepts q = true

instance : Std.Refl (AddsAccepted vol) := ⟨fun _ _ h => .inl h⟩

instance : IsTrans Folder (AddsAccepted vol) where
  trans f₁ f₂ f₃ h₁ h₂ q hq := by
    rcases h₂ q hq with h | h
    · exact h₁ q h
    · exact .inr h

/-- An entry that the volume accepts may be added. -/
theorem addsAccepted_update {p : NodePath} (hp : vol.accepts p = true) (folder : Folder)
    (entry : Option Entry) : AddsAccepted vol folder (Function.update folder p entry) := by
  intro q hq
  by_cases h : q = p
  · exact .inr (h ▸ hp)
  · rw [Function.update_of_ne h] at hq
    exact .inl hq

theorem checkParent_next (p : NodePath) (folder : Folder) :
    (checkParent vol p folder).next = folder := by
  unfold checkParent
  split
  · split <;> rfl
  · rfl

variable {vol} in
/-- The check passes only where there is room and a directory above. -/
theorem checkParent_ok_inv {p : NodePath} {folder folder' : Folder} {u : Unit}
    (h : checkParent vol p folder = .ok u folder') :
    vol.accepts p = true ∧ folder p.tail = some .dir ∧ folder' = folder := by
  unfold checkParent at h
  split at h
  · split at h
    · cases h
      exact ⟨‹_›, ‹_›, rfl⟩
    · cases h
    · cases h
  · cases h

variable {vol} in
/-- It does pass there. -/
theorem checkParent_ok {p : NodePath} {folder : Folder} (hp : vol.accepts p = true)
    (hparent : folder p.tail = some .dir) : checkParent vol p folder = .ok () folder := by
  rw [checkParent, if_pos hp, hparent]

/-- A step that is only taken once the path has been checked. -/
theorem checked_within {p : NodePath} {α : Type} {m : Unit → Store α}
    (hm : vol.accepts p = true → Proc.Within (AddsAccepted vol) (m ())) :
    Proc.Within (AddsAccepted vol) (checkParent vol p >>= m) := by
  intro folder
  rcases h : checkParent vol p folder with ⟨u, folder'⟩ | ⟨e, folder'⟩
  · obtain ⟨hp, -, rfl⟩ := checkParent_ok_inv h
    rw [Proc.bind_ok h]
    exact hm hp folder'
  · have hnext := checkParent_next vol p folder
    rw [h] at hnext
    rw [Proc.bind_raised h]
    subst hnext
    exact refl_of (AddsAccepted vol) _

/-- All steps of the backup add accepted entries only. -/
theorem mkdir_within (p : NodePath) : Proc.Within (AddsAccepted vol) (mkdir vol p) := by
  refine checked_within vol fun hp => (Proc.within_observe _).bind fun present => ?_
  split
  · exact Proc.within_raise _
  · exact fun folder => addsAccepted_update vol hp folder _

theorem makedirs_within (p : NodePath) : Proc.Within (AddsAccepted vol) (makedirs vol p) := by
  induction p with
  | nil => exact Proc.within_raise _
  | cons n p ih =>
    refine (Proc.within_observe _).bind fun present => (Proc.Within.whenever ?_).bind fun _ =>
      mkdir_within vol _
    refine ih.recover fun e k hk => ?_
    split at hk
    · cases hk
      exact Proc.within_pure _
    · cases hk

theorem storeData_within (p : NodePath) (value : Bytes) :
    Proc.Within (AddsAccepted vol) (storeData vol loc p value) := by
  have hmake : Proc.Within (AddsAccepted vol) (makeDirectory vol p) := by
    refine ((Proc.within_observe _).bind fun present => (Proc.Within.whenever
      (makedirs_within vol p)).bind fun _ => Proc.within_pure _).recover fun e k hk => ?_
    split at hk
    · cases hk
      exact Proc.within_pure _
    · cases hk
  refine hmake.bind fun made => Proc.Within.whenever ?_
  -- writing: the path is checked when the file is opened, and is the same afterwards
  rw [writeContent, openForWriting, Proc.bind_assoc]
  refine checked_within vol fun hp => ?_
  rw [Proc.bind_assoc]
  refine (Proc.within_observe _).bind fun entry => ?_
  split
  · exact Proc.within_raise _
  · exact Proc.Within.bind (fun folder => addsAccepted_update vol hp folder _) fun _ =>
      (Proc.within_lift _).bind fun data folder => addsAccepted_update vol hp folder _

/-- A call keeps what storing and its own calls keep. -/
theorem visitNodes_within_of {R : Folder → Folder → Prop} [Std.Refl R] [IsTrans Folder R]
    {depth : ℕ} {p : NodePath} {z : Znode} {children : Forest Znode}
    (hstore : z.persistent = true → Proc.Within R (storeData vol loc p z.value))
    (hchildren : z.persistent = true →
      ∀ room, Proc.Within R (visitChildren vol loc room children p)) :
    Proc.Within R (visitNodes vol loc depth p z children) := by
  cases depth with
  | zero => exact Proc.within_raise _
  | succ room =>
    rw [visitNodes]
    rcases hz : z.persistent with - | -
    · exact Proc.within_pure _
    · exact (hstore hz).bind fun _ => hchildren hz room

theorem visitChildren_within (depth : ℕ) (f : Forest Znode) (p : NodePath) :
    Proc.Within (AddsAccepted vol) (visitChildren vol loc depth f p) := by
  induction f generalizing depth p with
  | nil => exact Proc.within_pure _
  | node n z below beside ihBelow ihBeside =>
    rw [visitChildren_node]
    refine (visitNodes_within_of vol loc (fun _ => storeData_within vol loc _ _)
      fun _ room => ?_).bind
      fun _ => ihBeside depth p
    exact ihBelow room (n :: p)

/-- And so does the visit of a whole tree. -/
theorem visitNodes_within (depth : ℕ) (p : NodePath) (z : Znode) (f : Forest Znode) :
    Proc.Within (AddsAccepted vol) (visitNodes vol loc depth p z f) :=
  visitNodes_within_of vol loc (fun _ => storeData_within vol loc _ _) fun _ room =>
    visitChildren_within vol loc room f p

end QubershipZookeeper
