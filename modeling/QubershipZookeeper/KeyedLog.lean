import Mathlib.Data.List.Basic
import Mathlib.Data.List.Induction
import Mathlib.Data.List.Nodup

/-!
# The latest entries of a log

A log of entries with a key and a content is kept in a short form: one entry for every key, at the
place of its first use. A new entry replaces the one with its key, unless that one has the same
content already; so the kept entry is the one that **began** the present run of entries with that
key and content.

`KeyedLog.Latest` says this of a log and a list, and `KeyedLog.Latest.upsert` shows that one more
entry keeps it.
-/

namespace KeyedLog

variable {α κ γ : Type*} [DecidableEq κ] (key : α → κ) (content : α → γ)

/-- Replace the entry with the key of `a`, unless it has the same content; or add `a` at the end. -/
def upsert [DecidableEq γ] : List α → α → List α
  | [], a => [a]
  | b :: l, a =>
    if key a = key b then if content a = content b then b :: l else a :: l else b :: upsert l a

/-- The keys of a log in the order of their first use. -/
def firstUses (log : List α) : List κ := (log.map key).eraseDups

/-- In the log, `a` began the present run of entries with its key and content: what comes after
it with this key has the same content, and what came last before it has another one. -/
def Began (log : List α) (a : α) : Prop :=
  ∃ earlier run, log.filter (fun b => key b = key a) = earlier ++ a :: run ∧
    (∀ b ∈ run, content b = content a) ∧ ∀ b ∈ earlier.getLast?, content b ≠ content a

/-- The list is the short form of the log. -/
structure Latest (log l : List α) : Prop where
  keys : l.map key = firstUses key log
  began : ∀ a ∈ l, Began key content log a

variable {key content} {log l : List α} {a b : α}

/-- The keys of a log are those of its entries. -/
theorem mem_firstUses {k : κ} : k ∈ firstUses key log ↔ ∃ a ∈ log, key a = k := by
  rw [firstUses, List.mem_eraseDups, List.mem_map]

/-- A later entry adds its key at the end, unless the key was used before. -/
theorem firstUses_append_singleton (log : List α) (a : α) :
    firstUses key (log ++ [a]) =
      if key a ∈ firstUses key log then firstUses key log else firstUses key log ++ [key a] := by
  rw [firstUses, List.map_append, List.eraseDups_append, ← firstUses]
  by_cases hmem : key a ∈ firstUses key log
  · have hlog : key a ∈ log.map key := List.mem_map.mpr (mem_firstUses.mp hmem)
    have hrest : (List.map key [a]).removeAll (log.map key) = [] := by
      simpa [List.removeAll] using hlog
    rw [if_pos hmem, hrest, List.eraseDups_nil, List.append_nil]
  · have hlog : key a ∉ log.map key := fun h => hmem (mem_firstUses.mpr (List.mem_map.mp h))
    have hrest : (List.map key [a]).removeAll (log.map key) = [key a] := by
      simpa [List.removeAll] using hlog
    rw [if_neg hmem, hrest]
    rfl

/-- Every key is listed once. -/
theorem nodup_firstUses (log : List α) : (firstUses key log).Nodup := by
  induction log using List.reverseRecOn with
  | nil => exact List.nodup_nil
  | append_singleton log a ih =>
    rw [firstUses_append_singleton]
    split
    · exact ih
    next hmem => exact List.nodup_append_comm.mp (List.nodup_cons.mpr ⟨hmem, ih⟩)

/-! ## One more entry -/

section Upsert

variable [DecidableEq γ]

/-- The keys after an update: as before, with the new one at the end if it is new. -/
theorem map_key_upsert (l : List α) (a : α) :
    (upsert key content l a).map key =
      if key a ∈ l.map key then l.map key else l.map key ++ [key a] := by
  induction l with
  | nil => simp [upsert]
  | cons b l ih =>
    rw [upsert]
    by_cases hkey : key a = key b
    · have hmem : key a ∈ (b :: l).map key := hkey ▸ List.mem_cons_self
      rw [if_pos hkey, if_pos hmem]
      split
      · rfl
      · rw [List.map_cons, hkey, List.map_cons]
    · rw [if_neg hkey, List.map_cons, ih, List.map_cons]
      by_cases hmem : key a ∈ l.map key
      · rw [if_pos hmem, if_pos (List.mem_cons_of_mem _ hmem)]
      · rw [if_neg hmem, if_neg (by simp [hkey, hmem]), List.cons_append]

/-- Entries with other keys stay what they are. -/
theorem mem_upsert_of_ne (h : key b ≠ key a) : b ∈ upsert key content l a ↔ b ∈ l := by
  induction l with
  | nil => simpa [upsert] using fun hba => h (congrArg key hba)
  | cons c l ih =>
    have hne : b ≠ a := fun hba => h (congrArg key hba)
    rw [upsert]
    by_cases hkey : key a = key c
    · have hbc : b ≠ c := by
        rintro rfl
        exact h hkey.symm
      rw [if_pos hkey]
      split <;> simp [hne, hbc]
    · rw [if_neg hkey, List.mem_cons, List.mem_cons, ih]

/-- The entry with the key of `a`: the one before, or `a` itself. -/
theorem mem_upsert_of_eq (hl : (l.map key).Nodup) (hb : b ∈ upsert key content l a)
    (h : key b = key a) :
    (b ∈ l ∧ content a = content b) ∨ b = a ∧ ∀ c ∈ l, key c = key a → content a ≠ content c := by
  induction l with
  | nil => exact .inr ⟨List.mem_singleton.mp hb, by simp⟩
  | cons c l ih =>
    obtain ⟨hnotMem, hl⟩ := List.nodup_cons.mp hl
    -- no other entry has the key of `c`
    have hother : ∀ d ∈ l, key d ≠ key c := fun d hd hdc => hnotMem (hdc ▸ List.mem_map_of_mem hd)
    rw [upsert] at hb
    by_cases hkey : key a = key c
    · rw [if_pos hkey] at hb
      have hlast : b ∉ l := fun hmem => hother b hmem (h.trans hkey)
      by_cases hcontent : content a = content c
      · rw [if_pos hcontent] at hb
        obtain rfl : b = c := (List.mem_cons.mp hb).resolve_right hlast
        exact .inl ⟨List.mem_cons_self, hcontent⟩
      · rw [if_neg hcontent] at hb
        refine .inr ⟨(List.mem_cons.mp hb).resolve_right hlast, fun d hd hda => ?_⟩
        rcases List.mem_cons.mp hd with rfl | hd
        · exact hcontent
        · exact absurd (hda.trans hkey) (hother d hd)
    · rw [if_neg hkey] at hb
      have hbc : b ≠ c := by
        rintro rfl
        exact hkey h.symm
      rcases ih hl ((List.mem_cons.mp hb).resolve_left hbc) with ⟨hmem, hcontent⟩ | ⟨rfl, hnew⟩
      · exact .inl ⟨List.mem_cons_of_mem _ hmem, hcontent⟩
      · refine .inr ⟨rfl, fun d hd hda => ?_⟩
        rcases List.mem_cons.mp hd with rfl | hd
        · exact absurd hda.symm hkey
        · exact hnew d hd hda

end Upsert

/-! ## The short form -/

theorem Latest.nil : Latest key content ([] : List α) [] where
  keys := rfl
  began := by simp

/-- The state of a log has one entry for each key. -/
theorem Latest.nodup (h : Latest key content log l) : (l.map key).Nodup := by
  rw [h.keys]
  exact nodup_firstUses log

/-- The run of an entry goes on. -/
theorem Began.continue (h : Began key content log a) (hkey : key b = key a)
    (hcontent : content b = content a) : Began key content (log ++ [b]) a := by
  obtain ⟨earlier, run, hlog, hrun, hearlier⟩ := h
  refine ⟨earlier, run ++ [b], ?_, fun c hc => ?_, hearlier⟩
  · rw [List.filter_append, hlog, List.filter_singleton, decide_eq_true hkey]
    simp
  · rcases List.mem_append.mp hc with hc | hc
    · exact hrun c hc
    · rw [List.mem_singleton.mp hc, hcontent]

/-- An entry with another key does not matter. -/
theorem Began.other (h : Began key content log a) (hkey : key b ≠ key a) :
    Began key content (log ++ [b]) a := by
  obtain ⟨earlier, run, hlog, hrest⟩ := h
  refine ⟨earlier, run, ?_, hrest⟩
  rw [List.filter_append, hlog, List.filter_singleton, decide_eq_false hkey]
  simp

/-- A new run begins. -/
theorem Began.start (h : Began key content log a) (hkey : key b = key a)
    (hcontent : content b ≠ content a) : Began key content (log ++ [b]) b := by
  obtain ⟨earlier, run, hlog, hrun, -⟩ := h
  refine ⟨earlier ++ a :: run, [], ?_, by simp, fun c hc => ?_⟩
  · rw [List.filter_append, hkey, hlog, List.filter_singleton, decide_eq_true hkey]
    simp
  · -- the last entry of the old run has its content
    have hc : c ∈ a :: run := by
      rw [List.getLast?_append_cons] at hc
      exact List.mem_of_getLast? hc
    rcases List.mem_cons.mp hc with rfl | hc
    · exact Ne.symm hcontent
    · exact fun hsame => hcontent (hsame.symm.trans (hrun c hc))

/-- An entry with a new key begins a run of its own. -/
theorem began_singleton (h : ∀ b ∈ log, key b ≠ key a) : Began key content (log ++ [a]) a := by
  refine ⟨[], [], ?_, by simp, by simp⟩
  rw [List.filter_append, List.filter_eq_nil_iff.mpr fun b hb => by simpa using h b hb]
  simp

/-- **One more entry.** The short form stays the short form. -/
theorem Latest.upsert [DecidableEq γ] (h : Latest key content log l) (a : α) :
    Latest key content (log ++ [a]) (upsert key content l a) where
  keys := by rw [map_key_upsert, firstUses_append_singleton, h.keys]
  began b hb := by
    by_cases hkey : key b = key a
    · rcases mem_upsert_of_eq h.nodup hb hkey with ⟨hmem, hcontent⟩ | ⟨rfl, hnew⟩
      · exact (h.began b hmem).continue hkey.symm hcontent
      · -- `b` is the new entry: it is the first with its key, or begins a new run
        by_cases hmem : key b ∈ l.map key
        · obtain ⟨c, hc, hcb⟩ := List.mem_map.mp hmem
          exact (h.began c hc).start hcb.symm (hnew c hc hcb)
        · rw [h.keys, mem_firstUses] at hmem
          exact began_singleton fun c hc hcb => hmem ⟨c, hc, hcb⟩
    · exact (h.began b ((mem_upsert_of_ne hkey).mp hb)).other (Ne.symm hkey)

end KeyedLog
