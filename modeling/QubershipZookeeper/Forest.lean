import Mathlib.Data.List.Basic
import Mathlib.Data.List.Infix
import Mathlib.Order.Basic

/-!
# Named forests and paths

A general layer for hierarchies of named nodes: directory trees, trees of keys.
A `NodePath` lists names **innermost first**, so that `n :: p` is the child `n` of
`p`, and `p <:+ q` says that `q` is `p` or lies below it. A `Forest` is a list of
named, labelled nodes, each with the forest below it; hanging it below a path
gives every node its full path.

* `Forest.labelAt` — the forest as a partial function on paths;
* `Forest.nodes` — the forest as a list, each node before those below it;
* `Forest.prune` — the forest without the nodes that lack a property;
* `Forest.tree?` — one of its trees.

When siblings have different names (`Forest.Distinct`, `Hierarchy`), function and
list agree (`Forest.mem_nodes_iff`).
-/

/-- A path, innermost name first. -/
abbrev NodePath : Type := List String

/-- Two children of one path have nothing below them in common. -/
theorem NodePath.eq_of_common_descendant {n m : String} {p q : NodePath} (hn : n :: p <:+ q)
    (hm : m :: p <:+ q) : n = m := by
  have hsuffix : n :: p <:+ m :: p := by
    rcases List.suffix_or_suffix_of_suffix hn hm with h | h
    · exact h
    · rw [h.eq_of_length rfl]
  exact (List.cons.inj (hsuffix.eq_of_length rfl)).1

/-- A forest of named nodes with labels. -/
inductive Forest (α : Type) : Type where
  /-- no node -/
  | nil
  /-- a node, the forest below it and the rest of the forest beside it -/
  | node (name : String) (label : α) (below beside : Forest α)
  deriving DecidableEq, Repr

namespace Forest

variable {α : Type}

/-- The names of the outermost nodes. -/
def names : Forest α → List String
  | nil => []
  | node n _ _ beside => n :: beside.names

/-- The label of the node `q` of a forest hung below `p`. -/
def labelAt : Forest α → NodePath → NodePath → Option α
  | nil, _, _ => none
  | node n a below beside, p, q =>
    if q = n :: p then some a else (below.labelAt (n :: p) q).or (beside.labelAt p q)

/-- All nodes of a forest hung below `p`, each before those below it. -/
def nodes : Forest α → NodePath → List (NodePath × α)
  | nil, _ => []
  | node n a below beside, p => (n :: p, a) :: (below.nodes (n :: p) ++ beside.nodes p)

/-- Siblings have different names. -/
def Distinct : Forest α → Prop
  | nil => True
  | node n _ below beside => n ∉ beside.names ∧ below.Distinct ∧ beside.Distinct

instance decidableDistinct : (f : Forest α) → Decidable f.Distinct
  | nil => inferInstanceAs (Decidable True)
  | node _ _ below beside =>
    have := decidableDistinct below
    have := decidableDistinct beside
    inferInstanceAs (Decidable (_ ∧ _ ∧ _))

/-- Does the path lie in one of the forest's trees? -/
def Covers (f : Forest α) (p q : NodePath) : Prop := ∃ n ∈ f.names, n :: p <:+ q

@[simp] theorem not_covers_nil (p q : NodePath) : ¬ (nil : Forest α).Covers p q := by
  rintro ⟨n, hn, -⟩
  cases hn

/-- A forest covers what is at or below its roots. -/
theorem covers_node {n : String} {a : α} {below beside : Forest α} {p q : NodePath} :
    (node n a below beside).Covers p q ↔ n :: p <:+ q ∨ beside.Covers p q := by
  simp [Covers, names]

/-- What is covered below a node is covered by the node. -/
theorem Covers.suffix {f : Forest α} {p q : NodePath} (h : f.Covers p q) : p <:+ q := by
  obtain ⟨n, -, hq⟩ := h
  exact (List.suffix_cons n p).trans hq

/-- A forest does not cover the path it hangs from. -/
theorem Covers.ne {f : Forest α} {p q : NodePath} (h : f.Covers p q) : q ≠ p := by
  rintro rfl
  obtain ⟨n, -, hq⟩ := h
  have hlen := hq.length_le
  rw [List.length_cons] at hlen
  omega

/-- Nodes of different name cover different paths. -/
theorem Covers.not_of_notMem {f : Forest α} {n : String} {p q : NodePath} (hn : n ∉ f.names)
    (hq : n :: p <:+ q) : ¬ f.Covers p q := by
  rintro ⟨m, hm, hmq⟩
  rw [NodePath.eq_of_common_descendant hq hmq] at hn
  exact hn hm

/-- Every node of a forest is covered by it. -/
theorem covers_of_labelAt {f : Forest α} {p q : NodePath} {a : α} (h : f.labelAt p q = some a) :
    f.Covers p q := by
  induction f generalizing p with
  | nil => cases h
  | node n b below beside ihBelow ihBeside =>
    rw [covers_node]
    rw [labelAt] at h
    split at h
    · exact .inl (by simp_all)
    · rcases Option.or_eq_some_iff.mp h with h | ⟨-, h⟩
      · exact .inl (ihBelow h).suffix
      · exact .inr (ihBeside h)

/-- Away from the forest there are no labels. -/
theorem labelAt_eq_none {f : Forest α} {p q : NodePath} (h : ¬ f.Covers p q) :
    f.labelAt p q = none := by
  rcases ha : f.labelAt p q with - | a
  · rfl
  · exact absurd (covers_of_labelAt ha) h

/-- The parent of a node is a node, or the path the forest hangs from. -/
theorem labelAt_parent {f : Forest α} {p q : NodePath} {n : String} {a : α}
    (h : f.labelAt p (n :: q) = some a) : q = p ∨ ∃ b, f.labelAt p q = some b := by
  induction f generalizing p with
  | nil => cases h
  | node m b below beside ihBelow ihBeside =>
    rw [labelAt] at h
    split at h
    · rename_i heq
      exact .inl (List.cons.inj heq).2
    · rcases Option.or_eq_some_iff.mp h with h | ⟨-, h⟩
      · right
        rw [labelAt]
        split
        · exact ⟨b, rfl⟩
        · rcases ihBelow h with rfl | ⟨c, hc⟩
          · contradiction
          · exact ⟨c, by rw [hc]; rfl⟩
      · rcases ihBeside h with rfl | ⟨c, hc⟩
        · exact .inl rfl
        · right
          rw [labelAt]
          split
          · exact ⟨b, rfl⟩
          · rcases hbelow : below.labelAt (m :: p) q with - | d
            · exact ⟨c, hc⟩
            · exact ⟨d, rfl⟩

/-- Every root has a label. -/
theorem labelAt_of_mem_names {f : Forest α} {n : String} (h : n ∈ f.names) (p : NodePath) :
    ∃ a, f.labelAt p (n :: p) = some a := by
  induction f with
  | nil => cases h
  | node m b below beside _ ih =>
    rw [labelAt]
    split
    · exact ⟨b, rfl⟩
    · rename_i hne
      have hnm : n ≠ m := fun h => hne (by rw [h])
      obtain ⟨a, ha⟩ := ih ((List.mem_cons.mp h).resolve_left hnm)
      rcases below.labelAt (m :: p) (n :: p) with - | c
      · exact ⟨a, ha⟩
      · exact ⟨c, rfl⟩

section Node

variable {n : String} {a : α} {below beside : Forest α} {p q : NodePath}

@[simp] theorem labelAt_self : (node n a below beside).labelAt p (n :: p) = some a := by
  rw [labelAt, if_pos rfl]

/-- Strictly below a node, only the forest below it counts. -/
theorem labelAt_below (hn : n ∉ beside.names) (hq : n :: p <:+ q) (hne : q ≠ n :: p) :
    (node n a below beside).labelAt p q = below.labelAt (n :: p) q := by
  rw [labelAt, if_neg hne, labelAt_eq_none (Covers.not_of_notMem hn hq), Option.or_none]

/-- Outside a node, only the forest beside it counts. -/
theorem labelAt_beside (hq : ¬ n :: p <:+ q) :
    (node n a below beside).labelAt p q = beside.labelAt p q := by
  have hne : q ≠ n :: p := by
    rintro rfl
    exact hq List.suffix_rfl
  rw [labelAt, if_neg hne, labelAt_eq_none fun h => hq h.suffix, Option.none_or]

end Node

/-- Lists and functions agree on what a forest contains. -/
theorem mem_nodes_iff {f : Forest α} (hf : f.Distinct) {p q : NodePath} {a : α} :
    (q, a) ∈ f.nodes p ↔ f.labelAt p q = some a := by
  induction f generalizing p with
  | nil => simp [nodes, labelAt]
  | node n b below beside ihBelow ihBeside =>
    obtain ⟨hn, hbelow, hbeside⟩ := hf
    rw [nodes, List.mem_cons, List.mem_append, ihBelow hbelow, ihBeside hbeside]
    by_cases hq : n :: p <:+ q
    · have hother : beside.labelAt p q = none := labelAt_eq_none (Covers.not_of_notMem hn hq)
      by_cases hself : q = n :: p
      · subst hself
        have hstrict : below.labelAt (n :: p) (n :: p) = none :=
          labelAt_eq_none fun h => h.ne rfl
        simp [hother, hstrict, eq_comm]
      · rw [labelAt_below hn hq hself, hother]
        simp [hself]
    · have hself : q ≠ n :: p := by
        rintro rfl
        exact hq List.suffix_rfl
      have hunder : below.labelAt (n :: p) q = none := labelAt_eq_none fun h => hq h.suffix
      rw [labelAt_beside hq, hunder]
      simp [hself]

/-- Keep the nodes with a property, with all that is below the others gone. -/
def prune (keep : α → Bool) : Forest α → Forest α
  | nil => nil
  | node n a below beside =>
    if keep a then node n a (below.prune keep) (beside.prune keep) else beside.prune keep

/-- Pruning adds no roots. -/
theorem names_prune_subset {keep : α → Bool} {f : Forest α} {n : String}
    (h : n ∈ (f.prune keep).names) : n ∈ f.names := by
  induction f with
  | nil => exact h
  | node m a below beside _ ih =>
    rw [prune] at h
    split at h
    · rcases List.mem_cons.mp h with rfl | h
      · exact List.mem_cons_self ..
      · exact List.mem_cons_of_mem _ (ih h)
    · exact List.mem_cons_of_mem _ (ih h)

/-- Nodes without the property have nothing below them. -/
def LeavesUnless (keep : α → Bool) : Forest α → Prop
  | nil => True
  | node _ a below beside =>
    (keep a = false → below = nil) ∧ below.LeavesUnless keep ∧ beside.LeavesUnless keep

/-- When only leaves are pruned, every node that has the property stays. -/
theorem labelAt_prune {keep : α → Bool} {f : Forest α} (hf : f.Distinct)
    (hleaves : f.LeavesUnless keep) (p q : NodePath) :
    (f.prune keep).labelAt p q = (f.labelAt p q).filter keep := by
  induction f generalizing p with
  | nil => rfl
  | node n a below beside ihBelow ihBeside =>
    obtain ⟨hn, hbelow, hbeside⟩ := hf
    obtain ⟨hleaf, hbelow', hbeside'⟩ := hleaves
    have hn' : n ∉ (beside.prune keep).names := fun h => hn (names_prune_subset h)
    rw [prune]
    rcases ha : keep a with - | -
    · obtain rfl := hleaf ha
      rw [if_neg (by simp), ihBeside hbeside hbeside', labelAt]
      by_cases hq : q = n :: p
      · subst hq
        rw [if_pos rfl, labelAt_eq_none (Covers.not_of_notMem hn List.suffix_rfl)]
        simp [Option.filter, ha]
      · rw [if_neg hq]
        rfl
    · rw [if_pos rfl]
      by_cases hq : n :: p <:+ q
      · by_cases hself : q = n :: p
        · subst hself
          simp [Option.filter, ha]
        · rw [labelAt_below hn' hq hself, labelAt_below hn hq hself, ihBelow hbelow hbelow']
      · rw [labelAt_beside hq, labelAt_beside hq, ihBeside hbeside hbeside']

/-! ### One tree of a forest -/

/-- The outermost node of a given name, with what is below it. -/
def tree? : Forest α → String → Option (α × Forest α)
  | nil, _ => none
  | node n a below beside, m => if m = n then some (a, below) else beside.tree? m

/-- A tree is found under the names of the roots only. -/
theorem tree?_eq_none {f : Forest α} {m : String} : f.tree? m = none ↔ m ∉ f.names := by
  induction f with
  | nil => simp [tree?, names]
  | node n a below beside _ ih =>
    by_cases h : m = n
    · simp [tree?, names, h]
    · simp [tree?, names, h, ih]

/-- The siblings in a tree of the forest are distinct again. -/
theorem Distinct.tree {f below : Forest α} {m : String} {a : α} (hf : f.Distinct)
    (h : f.tree? m = some (a, below)) : below.Distinct := by
  induction f with
  | nil => cases h
  | node n b below' beside _ ih =>
    obtain ⟨-, hbelow, hbeside⟩ := hf
    rw [tree?] at h
    split at h
    · cases h
      exact hbelow
    · exact ih hbeside h

/-- The same for nodes that have nothing below them. -/
theorem LeavesUnless.tree {keep : α → Bool} {f below : Forest α} {m : String} {a : α}
    (hf : f.LeavesUnless keep) (h : f.tree? m = some (a, below)) : below.LeavesUnless keep := by
  induction f with
  | nil => cases h
  | node n b below' beside _ ih =>
    obtain ⟨-, hbelow, hbeside⟩ := hf
    rw [tree?] at h
    split at h
    · cases h
      exact hbelow
    · exact ih hbeside h

/-- Inside the tree `m`, the forest is that tree. -/
theorem labelAt_tree {f below : Forest α} {m : String} {a : α} (hf : f.Distinct)
    (h : f.tree? m = some (a, below)) {p q : NodePath} (hq : m :: p <:+ q) :
    f.labelAt p q = if q = m :: p then some a else below.labelAt (m :: p) q := by
  induction f with
  | nil => cases h
  | node n b below' beside _ ih =>
    obtain ⟨hn, -, hbeside⟩ := hf
    rw [tree?] at h
    split at h
    · rename_i hm
      subst hm
      cases h
      split
      · rename_i hself
        rw [hself, labelAt_self]
      · rename_i hself
        rw [labelAt_below hn hq hself]
    · rename_i hm
      have hout : ¬ n :: p <:+ q := fun h => hm (NodePath.eq_of_common_descendant hq h)
      rw [labelAt_beside hout, ih hbeside h]

/-- Without a tree `m`, there is nothing at or below `m`. -/
theorem labelAt_no_tree {f : Forest α} {m : String} (h : f.tree? m = none) {p q : NodePath}
    (hq : m :: p <:+ q) : f.labelAt p q = none :=
  labelAt_eq_none (Covers.not_of_notMem (tree?_eq_none.mp h) hq)

end Forest

/-- A forest whose siblings have different names. -/
structure Hierarchy (α : Type) : Type where
  /-- the nodes -/
  forest : Forest α
  /-- siblings have different names -/
  distinct : forest.Distinct
