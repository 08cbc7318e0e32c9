import Mathlib.Data.List.Basic

/-!
# A program among others

A program that is called again and again works on a state, and so do others between its calls. A run
is a list of **turns**: somebody else does something, or the program is called. What a run is to be
shown to do, and what it may be assumed to do, are both statements about its calls, each made about
the state in which the call finds things (`EveryCall`).

An invariant leads from the one to the other (`Invariant.everyCall`): others keep it, and so does
every call that is made as assumed.
-/

namespace QubershipZookeeper

/-- A step of a run: others do something, or the program is called. -/
inductive Turn (Deed Call : Type) where
  | others (deed : Deed)
  | call (call : Call)

/-- A program and others that work on the same state. -/
structure Interplay (σ Deed Call : Type) where
  /-- what others do to the state -/
  others : σ → Deed → σ
  /-- what becomes of it in a call, however the call ends -/
  call : σ → Call → σ

namespace Interplay

variable {σ Deed Call : Type} (i : Interplay σ Deed Call) {C P : σ → Call → Prop} {I : σ → Prop}

/-- One step of a run. -/
def step (s : σ) : Turn Deed Call → σ
  | .others deed => i.others s deed
  | .call call => i.call s call

/-- The state after a run. -/
def run (s : σ) (turns : List (Turn Deed Call)) : σ := turns.foldl i.step s

/-- Every call of a run is made in a state in which `P` holds of it. -/
def EveryCall (P : σ → Call → Prop) : σ → List (Turn Deed Call) → Prop
  | _, [] => True
  | s, .others deed :: turns => EveryCall P (i.others s deed) turns
  | s, .call call :: turns => P s call ∧ EveryCall P (i.call s call) turns

/-- What others do is no call: the run goes on from the state they leave. -/
theorem everyCall_others {s : σ} {deed : Deed} {turns : List (Turn Deed Call)} :
    i.EveryCall P s (.others deed :: turns) ↔ i.EveryCall P (i.others s deed) turns :=
  Iff.rfl

/-- Whether it is can be found out by going through the run. -/
instance decidableEveryCall [∀ s call, Decidable (P s call)] :
    (s : σ) → (turns : List (Turn Deed Call)) → Decidable (i.EveryCall P s turns)
  | _, [] => .isTrue trivial
  | s, .others deed :: turns => decidableEveryCall (i.others s deed) turns
  | s, .call call :: turns =>
    have := decidableEveryCall (i.call s call) turns
    inferInstanceAs (Decidable (_ ∧ _))

/-- Others keep `I`, and so do calls that are made under the condition `C`. -/
structure Invariant (C : σ → Call → Prop) (I : σ → Prop) : Prop where
  others : ∀ s deed, I s → I (i.others s deed)
  call : ∀ s call, I s → C s call → I (i.call s call)

variable {i}

/-- **The rule for runs.** If calls under the condition `C` do `P` where the invariant holds, then
all calls of a run do, if all are made under the condition. -/
theorem Invariant.everyCall (h : i.Invariant C I) (hP : ∀ s call, I s → C s call → P s call) {s : σ}
    (hs : I s) {turns : List (Turn Deed Call)} (hC : i.EveryCall C s turns) :
    i.EveryCall P s turns := by
  induction turns generalizing s with
  | nil => trivial
  | cons turn turns ih =>
    cases turn with
    | others deed => exact ih (h.others s deed hs) hC
    | call call => exact ⟨hP s call hs hC.1, ih (h.call s call hs hC.1) hC.2⟩

/-- What every step keeps holds after a run. -/
theorem run_keeps (hothers : ∀ s deed, I s → I (i.others s deed))
    (hcall : ∀ s call, I s → I (i.call s call)) {s : σ} (hs : I s)
    (turns : List (Turn Deed Call)) : I (i.run s turns) := by
  refine turns.foldlRecOn i.step hs fun t ht turn _ => ?_
  cases turn with
  | others deed => exact hothers t deed ht
  | call call => exact hcall t call ht

end Interplay

end QubershipZookeeper
