import Mathlib.Data.Finmap

/-!
# Three-way merges

A **three-way merge** brings a map that others write to as well in line with a wanted one: the
wanted entries are copied over, and those that were wanted the last time and are not wanted any more
are removed. Nothing else changes.

A map is **in sync** on a set of keys when it has the wanted entries there, and no others. A merge
needs the map that was wanted the last time: what it leaves is in sync if nothing is left over from
still earlier times (`Tidy`, `inSync_merge`).
-/

namespace ThreeWayMerge

variable {κ : Type*} {β : κ → Type*} [DecidableEq κ]

/-! ## Maps -/

/-- Erasing entry after entry erases their keys. -/
theorem lookup_foldl_erase {entries : List (Sigma β)} {m : Finmap β} (k : κ) :
    (entries.foldl (fun m e => m.erase e.1) m).lookup k =
      if k ∈ entries.keys then none else m.lookup k := by
  induction entries generalizing m with
  | nil => rfl
  | cons e entries ih =>
    rw [List.foldl_cons, ih, List.keys_cons]
    by_cases hk : k = e.1
    · subst hk
      simp [Finmap.lookup_erase]
    · rw [Finmap.lookup_erase_ne hk]
      simp [hk]

/-- The difference of two maps loses the keys of the second. -/
theorem lookup_sdiff (m m' : Finmap β) (k : κ) :
    (m \ m').lookup k = if k ∈ m' then none else m.lookup k := by
  induction m' using Finmap.induction_on with
  | _ l =>
    have herase : m \ l.toFinmap = l.entries.foldl (fun m e => m.erase e.1) m := rfl
    rw [herase, lookup_foldl_erase]
    exact if_congr Iff.rfl rfl rfl

/-! ## The merge -/

/-- The three-way merge. -/
def merge (wanted previous found : Finmap β) : Finmap β := (wanted ∪ found) \ (previous \ wanted)

variable {wanted previous found : Finmap β} {keys : Set κ} {k : κ}

theorem mem_sdiff {m m' : Finmap β} : k ∈ m \ m' ↔ k ∈ m ∧ k ∉ m' := by
  rw [← Finmap.lookup_isSome, ← Finmap.lookup_isSome, lookup_sdiff]
  split
  next h => simp [h]
  next h => simp [h]

/-- Wanted entries are copied. -/
theorem lookup_merge_of_mem (h : k ∈ wanted) :
    (merge wanted previous found).lookup k = wanted.lookup k := by
  rw [merge, lookup_sdiff, if_neg fun hk => (mem_sdiff.mp hk).2 h, Finmap.lookup_union_left h]

/-- Entries that are not wanted any more are removed. -/
theorem lookup_merge_of_dropped (h : k ∉ wanted) (h' : k ∈ previous) :
    (merge wanted previous found).lookup k = none := by
  rw [merge, lookup_sdiff, if_pos (mem_sdiff.mpr ⟨h', h⟩)]

/-- All other entries stay. -/
theorem lookup_merge_of_other (h : k ∉ wanted) (h' : k ∉ previous) :
    (merge wanted previous found).lookup k = found.lookup k := by
  rw [merge, lookup_sdiff, if_neg fun hk => h' (mem_sdiff.mp hk).1, Finmap.lookup_union_right h]

/-- A map that is what is wanted stays as it is. -/
theorem merge_self (wanted previous : Finmap β) : merge wanted previous wanted = wanted := by
  refine Finmap.ext_lookup fun k => ?_
  by_cases h : k ∈ wanted
  · exact lookup_merge_of_mem h
  · rw [Finmap.lookup_eq_none.mpr h]
    by_cases h' : k ∈ previous
    · exact lookup_merge_of_dropped h h'
    · rw [lookup_merge_of_other h h', Finmap.lookup_eq_none.mpr h]

/-- A merge leaves nothing only if nothing is wanted. -/
theorem eq_empty_of_merge_eq_empty (h : merge wanted previous found = ∅) : wanted = ∅ := by
  refine Finmap.ext_lookup fun k => ?_
  by_cases hk : k ∈ wanted
  · have hcopied : (merge wanted previous found).lookup k = wanted.lookup k :=
      lookup_merge_of_mem hk
    rw [← hcopied, h]
  · rw [Finmap.lookup_eq_none.mpr hk, Finmap.lookup_empty]

/-- Merging a second time changes nothing. -/
theorem merge_merge (wanted previous found : Finmap β) :
    merge wanted previous (merge wanted previous found) = merge wanted previous found := by
  refine Finmap.ext_lookup fun k => ?_
  by_cases h : k ∈ wanted
  · rw [lookup_merge_of_mem h, lookup_merge_of_mem h]
  · by_cases h' : k ∈ previous
    · rw [lookup_merge_of_dropped h h', lookup_merge_of_dropped h h']
    · exact lookup_merge_of_other h h'

/-! ## In sync -/

/-- On these keys the map has the wanted entries, and no others. -/
def InSync (keys : Set κ) (wanted found : Finmap β) : Prop :=
  ∀ k ∈ keys, found.lookup k = wanted.lookup k

/-- On these keys nothing is left over from earlier times: what is there is wanted, or was wanted
the last time. -/
def Tidy (keys : Set κ) (wanted previous found : Finmap β) : Prop :=
  ∀ k ∈ keys, k ∉ wanted → k ∉ previous → found.lookup k = none

/-- Where everything is in sync, nothing is left over. -/
theorem InSync.tidy (h : InSync keys wanted found) : Tidy keys wanted previous found := by
  intro k hk hwanted _
  rw [h k hk, Finmap.lookup_eq_none.mpr hwanted]

/-- **A merge brings a tidy map in sync.** -/
theorem inSync_merge (h : Tidy keys wanted previous found) :
    InSync keys wanted (merge wanted previous found) := by
  intro k hk
  by_cases hwanted : k ∈ wanted
  · exact lookup_merge_of_mem hwanted
  · rw [Finmap.lookup_eq_none.mpr hwanted]
    by_cases hprevious : k ∈ previous
    · exact lookup_merge_of_dropped hwanted hprevious
    · rw [lookup_merge_of_other hwanted hprevious, h k hk hwanted hprevious]

/-- In sync, or a merge away from it. A merge that finds nothing to be changed is left out. -/
def Pending (keys : Set κ) (wanted previous found : Finmap β) : Prop :=
  InSync keys wanted found ∨ wanted ≠ previous ∧ Tidy keys wanted previous found

/-- Where the wanted map is only pending, nothing is left over either. -/
theorem Pending.tidy (h : Pending keys wanted previous found) : Tidy keys wanted previous found :=
  h.elim InSync.tidy And.right

/-- One merge puts in sync what was pending. -/
theorem Pending.merge (h : Pending keys wanted previous found) :
    InSync keys wanted (merge wanted previous found) :=
  inSync_merge h.tidy

/-- Only the entries with these keys matter. -/
theorem Pending.congr {found' : Finmap β} (h : Pending keys wanted previous found)
    (hsame : ∀ k ∈ keys, found'.lookup k = found.lookup k) :
    Pending keys wanted previous found' := by
  rcases h with h | ⟨hne, h⟩
  · exact .inl fun k hk => (hsame k hk).trans (h k hk)
  · exact .inr ⟨hne, fun k hk hwanted hprevious => (hsame k hk).trans (h k hk hwanted hprevious)⟩

/-- Other entries are wanted from now on: nothing is left over from earlier times if the map was in
sync with what was wanted the last time. -/
theorem Pending.next {more : Set κ} (h : Pending keys previous previous found)
    (hne : wanted ≠ previous) (hmore : ∀ k ∈ more, k ∉ keys → k ∈ wanted) :
    Pending more wanted previous found := by
  have hsync : InSync keys previous found := h.resolve_right fun h => h.1 rfl
  refine .inr ⟨hne, fun k hk hwanted hprevious => ?_⟩
  have hkey : k ∈ keys := by
    by_contra hkey
    exact hwanted (hmore k hk hkey)
  rw [hsync k hkey, Finmap.lookup_eq_none.mpr hprevious]

/-! ## What becomes of a map -/

/-- What becomes of a map when only merges are made: it stays, it comes into being as the wanted
one, or it is merged. -/
def MergesTo (wanted previous : Finmap β) (a a' : Option (Finmap β)) : Prop :=
  a' = a ∨ a = none ∧ a' = some wanted ∨
    wanted ≠ previous ∧ ∃ m, a = some m ∧ a' = some (merge wanted previous m)

theorem MergesTo.refl (a : Option (Finmap β)) : MergesTo wanted previous a a := .inl rfl

/-- Several merges with the same maps come to one, or to a creation and nothing more. -/
theorem MergesTo.trans {a b c : Option (Finmap β)} (h : MergesTo wanted previous a b)
    (h' : MergesTo wanted previous b c) : MergesTo wanted previous a c := by
  rcases h' with rfl | ⟨rfl, rfl⟩ | ⟨hne, m, rfl, rfl⟩
  · exact h
  · rcases h with rfl | ⟨-, h⟩ | ⟨-, m, -, h⟩
    · exact .inr (.inl ⟨rfl, rfl⟩)
    · cases h
    · cases h
  · rcases h with rfl | ⟨rfl, h⟩ | ⟨-, m', rfl, h⟩
    · exact .inr (.inr ⟨hne, m, rfl, rfl⟩)
    · obtain rfl := Option.some.inj h
      rw [merge_self]
      exact .inr (.inl ⟨rfl, rfl⟩)
    · obtain rfl := Option.some.inj h
      rw [merge_merge]
      exact .inr (.inr ⟨hne, m', rfl, rfl⟩)

/-- Maps that are in sync or a merge away from it stay so, and new ones are in sync. -/
theorem MergesTo.pending {a a' : Option (Finmap β)} (h : MergesTo wanted previous a a')
    (ha : ∀ m ∈ a, Pending keys wanted previous m) : ∀ m ∈ a', Pending keys wanted previous m := by
  rcases h with rfl | ⟨-, rfl⟩ | ⟨-, m, rfl, rfl⟩
  · exact ha
  · rintro m ⟨⟩
    exact .inl fun _ _ => rfl
  · rintro m' ⟨⟩
    exact .inl (ha m rfl).merge

/-- Entries with other keys stay. -/
theorem MergesTo.lookup_other {m m' : Finmap β} (h : MergesTo wanted previous (some m) (some m'))
    (hwanted : k ∉ wanted) (hprevious : k ∉ previous) : m'.lookup k = m.lookup k := by
  rcases h with h | ⟨h, -⟩ | ⟨-, found, h, h'⟩
  · rw [Option.some.inj h]
  · cases h
  · rw [Option.some.inj h', Option.some.inj h]
    exact lookup_merge_of_other hwanted hprevious

/-- The map is there, and a merge would not change it. -/
def Merged (wanted previous : Finmap β) (a : Option (Finmap β)) : Prop :=
  ∃ m, a = some m ∧ (wanted ≠ previous → merge wanted previous m = m)

/-- A merged map stays merged. -/
theorem Merged.mergesTo {a a' : Option (Finmap β)} (h : Merged wanted previous a)
    (h' : MergesTo wanted previous a a') : Merged wanted previous a' := by
  obtain ⟨m, rfl, hm⟩ := h
  rcases h' with rfl | ⟨h, -⟩ | ⟨hne, m', h, rfl⟩
  · exact ⟨m, rfl, hm⟩
  · cases h
  · obtain rfl := Option.some.inj h
    rw [hm hne]
    exact ⟨m, rfl, hm⟩

/-- A map that was pending and is merged is in sync. -/
theorem Merged.inSync {a : Option (Finmap β)} (h : Merged wanted previous a)
    (ha : ∀ m ∈ a, Pending keys wanted previous m) : ∀ m ∈ a, InSync keys wanted m := by
  obtain ⟨m, rfl, hm⟩ := h
  rintro _ ⟨⟩
  by_cases heq : wanted = previous
  · exact (ha m rfl).resolve_right fun h => h.1 heq
  · rw [← hm heq]
    exact (ha m rfl).merge

end ThreeWayMerge
