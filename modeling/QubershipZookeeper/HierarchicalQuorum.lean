import Mathlib.Algebra.BigOperators.Group.Finset.Basic
import Mathlib.Algebra.Order.BigOperators.Group.Finset
import Mathlib.Data.Finset.Card
import Mathlib.Tactic.Linarith

/-!
# Weighted and hierarchical quorums

A set of servers holds a *majority* of a group when it has more than half of
the group's weight. In a hierarchy of groups a *quorum* holds majorities in more
than half of the groups that weigh anything. Two majorities of one group share a
server (`Majority.inter`), and so do two quorums of one hierarchy
(`Quorum.inter`), whether or not the groups are disjoint. Majorities of a group
before and after it has grown meet only if it has grown by little
(`majorities_inter_iff`).
-/

namespace HierarchicalQuorum

open Finset

section Majority

variable {α : Type*} [DecidableEq α] {weight : α → ℕ} {group s t : Finset α}

/-- More than half of the weight of the group. -/
def Majority (weight : α → ℕ) (group s : Finset α) : Prop :=
  ∑ a ∈ group, weight a < 2 * ∑ a ∈ group ∩ s, weight a

instance : Decidable (Majority weight group s) :=
  inferInstanceAs (Decidable (_ < _))

/-- Two majorities of one group have a server of it in common. -/
theorem Majority.inter (hs : Majority weight group s) (ht : Majority weight group t) :
    (group ∩ s ∩ t).Nonempty := by
  rw [nonempty_iff_ne_empty]
  intro hempty
  -- disjoint parts of the group together weigh no more than the group
  have hdisj : Disjoint (group ∩ s) (group ∩ t) := by
    rw [disjoint_iff_inter_eq_empty, ← hempty]
    ext a
    simp only [mem_inter]
    constructor
    · rintro ⟨⟨hg, hs⟩, -, ht⟩
      exact ⟨⟨hg, hs⟩, ht⟩
    · rintro ⟨⟨hg, hs⟩, ht⟩
      exact ⟨⟨hg, hs⟩, hg, ht⟩
  have hsum : ∑ a ∈ group ∩ s, weight a + ∑ a ∈ group ∩ t, weight a ≤ ∑ a ∈ group, weight a := by
    rw [← sum_union hdisj]
    exact sum_le_sum_of_subset (union_subset inter_subset_left inter_subset_left)
  unfold Majority at hs ht
  omega

/-- Where all weigh one, a majority is one of heads. -/
theorem majority_iff_of_unit (h : ∀ a ∈ group, weight a = 1) :
    Majority weight group s ↔ group.card < 2 * (group ∩ s).card := by
  have hgroup : ∑ a ∈ group, weight a = group.card := by
    rw [sum_congr rfl h, card_eq_sum_ones]
  have hpart : ∑ a ∈ group ∩ s, weight a = (group ∩ s).card := by
    rw [sum_congr rfl fun a ha => h a (mem_of_mem_inter_left ha), card_eq_sum_ones]
  rw [Majority, hgroup, hpart]

/-- Majorities of a group and of a larger one, both of heads. They always meet if the larger group
exceeds the largest even number up to the size of the smaller one by two at most, and only then. -/
theorem majorities_inter_iff {small large : Finset α} (hsub : small ⊆ large)
    (hne : small.Nonempty) :
    (∀ s t, small.card < 2 * (small ∩ s).card → large.card < 2 * (large ∩ t).card →
      (s ∩ t).Nonempty) ↔ large.card ≤ 2 * (small.card / 2) + 2 := by
  constructor
  · intro h
    by_contra hlarge
    -- a smallest majority of the small group, and all the rest of the large one
    obtain ⟨s, hs, hcard⟩ := exists_subset_card_eq (show small.card / 2 + 1 ≤ small.card by
      have := hne.card_pos
      omega)
    have hrest : (large \ s).card = large.card - (small.card / 2 + 1) := by
      rw [card_sdiff_of_subset (hs.trans hsub), hcard]
    have hinter := h s (large \ s)
      (by rw [inter_eq_right.mpr hs, hcard]; omega)
      (by rw [inter_eq_right.mpr sdiff_subset, hrest]; omega)
    rw [inter_sdiff_self] at hinter
    exact not_nonempty_empty hinter
  · intro hlarge s t hs ht
    obtain ⟨a, ha⟩ := inter_nonempty_of_card_lt_card_add_card
      (inter_subset_left.trans hsub : small ∩ s ⊆ large) (inter_subset_left : large ∩ t ⊆ large)
      (by omega)
    obtain ⟨has, hat⟩ := mem_inter.mp ha
    exact ⟨a, mem_inter.mpr ⟨mem_of_mem_inter_right has, mem_of_mem_inter_right hat⟩⟩

end Majority

section Quorum

variable {ι α : Type*} [DecidableEq α]
  {groups : Finset ι} {members : ι → Finset α} {weight : α → ℕ} {s t : Finset α}

/-- The groups that weigh something. -/
def heavy (groups : Finset ι) (members : ι → Finset α) (weight : α → ℕ) : Finset ι :=
  groups.filter fun g => ∑ a ∈ members g, weight a ≠ 0

/-- Majorities in more than half of the groups that weigh something. -/
def Quorum (groups : Finset ι) (members : ι → Finset α) (weight : α → ℕ) (s : Finset α) : Prop :=
  (heavy groups members weight).card
    < 2 * ((heavy groups members weight).filter fun g => Majority weight (members g) s).card

/-- Two majorities of the groups share a group, and two majorities of that group
share a server. -/
theorem Quorum.inter (hs : Quorum groups members weight s) (ht : Quorum groups members weight t) :
    (s ∩ t).Nonempty := by
  classical
  unfold Quorum at hs ht
  obtain ⟨g, hg⟩ := inter_nonempty_of_card_lt_card_add_card
    (filter_subset (fun g => Majority weight (members g) s) (heavy groups members weight))
    (filter_subset (fun g => Majority weight (members g) t) (heavy groups members weight))
    (by omega)
  obtain ⟨hgs, hgt⟩ := mem_inter.mp hg
  obtain ⟨a, ha⟩ := (mem_filter.mp hgs).2.inter (mem_filter.mp hgt).2
  obtain ⟨has, hat⟩ := mem_inter.mp ha
  exact ⟨a, mem_inter.mpr ⟨mem_of_mem_inter_right has, hat⟩⟩

/-- With one group that weighs something, the quorums are its majorities. -/
theorem quorum_iff_of_heavy {g : ι} (h : heavy groups members weight = {g}) :
    Quorum groups members weight s ↔ Majority weight (members g) s := by
  rw [Quorum, h, card_singleton, filter_singleton]
  split <;> simp [*]

end Quorum

end HierarchicalQuorum
