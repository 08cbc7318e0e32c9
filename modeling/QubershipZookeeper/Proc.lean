import Mathlib.Order.Basic
import Mathlib.Data.List.Basic

/-!
# Procedures: computations that keep their state when they fail

A general layer, with nothing of any particular program in it. A `Proc ε σ α`
runs from a state `σ` and either returns an `α` or raises an `ε`; in **both**
cases it hands back the state it has reached. This is what an imperative
program with errors does — a request that was sent before the failure stays
sent — and it is what a monad transformer that drops the state on an error
would lose.

Five ways of reasoning are provided:

* **inversion** (`Proc.bind_ok_inv` and friends) — from a run that returned,
  recover the runs of its parts;
* **framing** (`Proc.Within`) — every run, returning or not, moves the state
  only along a given preorder;
* **errors** (`Proc.Raises`) and **values** (`Proc.Yields`) — what a procedure can
  raise or return at all;
* **triples** (`Proc.Triple`) — from a state with a precondition, every run ends with
  one postcondition if it returns and with another if it raises;
* **returning** (`Proc.Returns`) — exactly when a run returns, read off its parts.

Loops (`Proc.forEach`, `Proc.foldEach`) return when all their rounds do, and stay
within whatever one round stays within.
-/

/-- How a run ends: it returns a value, or it raises an error. The state it has
reached is kept either way. -/
inductive Outcome (ε σ α : Type) : Type where
  /-- the run returned `val` in the state `next` -/
  | ok (val : α) (next : σ)
  /-- the run raised `err` in the state `next` -/
  | raised (err : ε) (next : σ)
  deriving DecidableEq, Repr

namespace Outcome

variable {ε σ α : Type}

/-- The state a run has reached, however it ended. -/
def next : Outcome ε σ α → σ
  | ok _ t => t
  | raised _ t => t

@[simp] theorem next_ok (a : α) (t : σ) : (ok a t : Outcome ε σ α).next = t := rfl

@[simp] theorem next_raised (e : ε) (t : σ) : (raised e t : Outcome ε σ α).next = t := rfl

/-- Did the run return? -/
def returned : Outcome ε σ α → Bool
  | ok _ _ => true
  | raised _ _ => false

@[simp] theorem returned_ok (a : α) (t : σ) : (ok a t : Outcome ε σ α).returned = true := rfl

@[simp] theorem returned_raised (e : ε) (t : σ) :
    (raised e t : Outcome ε σ α).returned = false := rfl

/-- A procedure has returned exactly if its outcome carries a result. -/
theorem returned_iff {o : Outcome ε σ α} : o.returned = true ↔ ∃ a t, o = ok a t := by
  cases o with
  | ok a t => simp
  | raised e t => simp

end Outcome

/-- A procedure over the state `σ` that may raise an `ε`. -/
def Proc (ε σ α : Type) : Type := σ → Outcome ε σ α

namespace Proc

variable {ε σ α β : Type}

/-- Return a value, leaving the state alone. -/
protected def pure (a : α) : Proc ε σ α := fun s => .ok a s

/-- Sequencing: an error ends the run in the state it was raised in. -/
protected def bind (m : Proc ε σ α) (f : α → Proc ε σ β) : Proc ε σ β := fun s =>
  match m s with
  | .ok a t => f a t
  | .raised e t => .raised e t

instance : Monad (Proc ε σ) where
  pure := Proc.pure
  bind := Proc.bind

/-- Raise an error, leaving the state alone. -/
def raise (e : ε) : Proc ε σ α := fun s => .raised e s

/-- Read off the state. -/
def observe (f : σ → α) : Proc ε σ α := fun s => .ok (f s) s

/-- Change the state. -/
def update (f : σ → σ) : Proc ε σ Unit := fun s => .ok () (f s)

/-- Run `m`; when it raises an error that `h` handles, go on with the handler in
the state the error was raised in. -/
def recover (m : Proc ε σ α) (h : ε → Option (Proc ε σ α)) : Proc ε σ α := fun s =>
  match m s with
  | .ok a t => .ok a t
  | .raised e t =>
    match h e with
    | some k => k t
    | none => .raised e t

/-- Run `m`, and then a last step that does not fail, whether `m` has returned or raised. -/
def withFinally (m : Proc ε σ α) (last : σ → σ) : Proc ε σ α := fun s =>
  match m s with
  | .ok a t => .ok a (last t)
  | .raised e t => .raised e (last t)

/-- Lift a fallible pure value. -/
def lift (x : Except ε α) : Proc ε σ α :=
  match x with
  | .ok a => Proc.pure a
  | .error e => raise e

/-- Run `m` only when the flag is set. -/
def whenever (b : Bool) (m : Proc ε σ Unit) : Proc ε σ Unit :=
  if b then m else Proc.pure ()

/-- A loop over a list; the first error ends it. -/
def forEach : List α → (α → Proc ε σ Unit) → Proc ε σ Unit
  | [], _ => Proc.pure ()
  | x :: xs, f => Proc.bind (f x) fun _ => forEach xs f

/-- A loop over a list that threads a local variable. -/
def foldEach : List α → β → (β → α → Proc ε σ β) → Proc ε σ β
  | [], b, _ => Proc.pure b
  | x :: xs, b, f => Proc.bind (f b x) fun b' => foldEach xs b' f

/-! ### Equations -/

@[simp] theorem pure_apply (a : α) (s : σ) : (pure a : Proc ε σ α) s = .ok a s := rfl

@[simp] theorem raise_apply (e : ε) (s : σ) : (raise e : Proc ε σ α) s = .raised e s := rfl

@[simp] theorem observe_apply (f : σ → α) (s : σ) : (observe f : Proc ε σ α) s = .ok (f s) s := rfl

@[simp] theorem update_apply (f : σ → σ) (s : σ) :
    (update f : Proc ε σ Unit) s = .ok () (f s) := rfl

@[simp] theorem lift_ok (a : α) : (lift (.ok a) : Proc ε σ α) = pure a := rfl

@[simp] theorem lift_error (e : ε) : (lift (.error e) : Proc ε σ α) = raise e := rfl

@[simp] theorem whenever_true (m : Proc ε σ Unit) : whenever true m = m := rfl

@[simp] theorem whenever_false (m : Proc ε σ Unit) : whenever false m = pure () := rfl

@[simp] theorem forEach_nil (f : α → Proc ε σ Unit) : forEach [] f = pure () := rfl

@[simp] theorem forEach_cons (x : α) (xs : List α) (f : α → Proc ε σ Unit) :
    forEach (x :: xs) f = (do f x; forEach xs f) := rfl

@[simp] theorem foldEach_nil (b : β) (f : β → α → Proc ε σ β) : foldEach [] b f = pure b := rfl

@[simp] theorem foldEach_cons (x : α) (xs : List α) (b : β) (f : β → α → Proc ε σ β) :
    foldEach (x :: xs) b f = (do let b' ← f b x; foldEach xs b' f) := rfl

theorem bind_apply (m : Proc ε σ α) (f : α → Proc ε σ β) (s : σ) :
    (m >>= f) s = match m s with
      | .ok a t => f a t
      | .raised e t => .raised e t := rfl

/-- Introduction for `bind`, when the first part returns. -/
theorem bind_ok {m : Proc ε σ α} {f : α → Proc ε σ β} {s t : σ} {a : α}
    (hm : m s = .ok a t) : (m >>= f) s = f a t := by
  rw [bind_apply, hm]

/-- Introduction for `bind`, when the first part raises. -/
theorem bind_raised {m : Proc ε σ α} {f : α → Proc ε σ β} {s t : σ} {e : ε}
    (hm : m s = .raised e t) : (m >>= f) s = .raised e t := by
  rw [bind_apply, hm]

/-- A handler is not asked where nothing is raised. -/
theorem recover_ok {m : Proc ε σ α} {h : ε → Option (Proc ε σ α)} {s t : σ} {a : α}
    (hm : m s = .ok a t) : m.recover h s = .ok a t := by
  simp only [Proc.recover, hm]

/-- An error that is handled is replaced by what the handler does, in the state that the error has
left. -/
theorem recover_handled {m k : Proc ε σ α} {h : ε → Option (Proc ε σ α)} {s t : σ} {e : ε}
    (hm : m s = .raised e t) (he : h e = some k) : m.recover h s = k t := by
  simp only [Proc.recover, hm, he]

/-- An error that is not handled is raised on. -/
theorem recover_unhandled {m : Proc ε σ α} {h : ε → Option (Proc ε σ α)} {s t : σ} {e : ε}
    (hm : m s = .raised e t) (he : h e = none) : m.recover h s = .raised e t := by
  simp only [Proc.recover, hm, he]

@[simp] theorem pure_bind (a : α) (f : α → Proc ε σ β) : (pure a >>= f) = f a := rfl

@[simp] theorem raise_bind (e : ε) (f : α → Proc ε σ β) :
    ((raise e : Proc ε σ α) >>= f) = raise e := rfl

/-- Associativity: an error in the first part ends both groupings alike. -/
theorem bind_assoc {γ : Type} (m : Proc ε σ α) (f : α → Proc ε σ β) (g : β → Proc ε σ γ) :
    (m >>= f) >>= g = m >>= fun a => f a >>= g := by
  funext s
  simp only [bind_apply]
  rcases m s with ⟨a, t⟩ | ⟨e, t⟩ <;> rfl

/-- A result that is mapped first reaches the continuation mapped. -/
theorem map_bind {γ : Type} (f : α → β) (m : Proc ε σ α) (g : β → Proc ε σ γ) :
    (f <$> m) >>= g = m >>= fun a => g (f a) :=
  bind_assoc m (fun a => pure (f a)) g

/-- A fallible pure value may as well be computed by the procedure. -/
theorem lift_bind (x : Except ε α) (f : α → Except ε β) :
    (lift (x >>= f) : Proc ε σ β) = lift x >>= fun a => lift (f a) := by
  cases x <;> rfl

/-! ### Inversion -/

/-- A sequence that returned: its first part returned, and so did the rest from
there. -/
theorem bind_ok_inv {m : Proc ε σ α} {f : α → Proc ε σ β} {s u : σ} {b : β}
    (h : (m >>= f) s = .ok b u) : ∃ a t, m s = .ok a t ∧ f a t = .ok b u := by
  rw [bind_apply] at h
  rcases hm : m s with ⟨a, t⟩ | ⟨e, t⟩ <;> rw [hm] at h
  · exact ⟨a, t, rfl, h⟩
  · cases h

/-- The inversion rules: what a step that returned can have done. -/
theorem pure_ok_inv {a b : α} {s t : σ} (h : (pure a : Proc ε σ α) s = .ok b t) :
    b = a ∧ t = s := by
  cases h
  exact ⟨rfl, rfl⟩

theorem observe_ok_inv {f : σ → α} {a : α} {s t : σ}
    (h : (observe f : Proc ε σ α) s = .ok a t) : a = f s ∧ t = s := by
  cases h
  exact ⟨rfl, rfl⟩

theorem update_ok_inv {f : σ → σ} {u : Unit} {s t : σ}
    (h : (update f : Proc ε σ Unit) s = .ok u t) : t = f s := by
  cases h
  rfl

theorem lift_ok_inv {x : Except ε α} {a : α} {s t : σ}
    (h : (lift x : Proc ε σ α) s = .ok a t) : x = .ok a ∧ t = s := by
  cases x with
  | error e => cases h
  | ok b =>
    cases h
    exact ⟨rfl, rfl⟩

/-! ### Last steps -/

section Finally

variable {m : Proc ε σ α} {last : σ → σ} {s t : σ} {a : α} {e : ε}

theorem withFinally_ok (h : m s = .ok a t) : withFinally m last s = .ok a (last t) := by
  rw [withFinally, h]

/-- Whatever returns has run the last step at the end, and so has whatever raises. -/
theorem withFinally_ok_inv (h : withFinally m last s = .ok a t) :
    ∃ u, m s = .ok a u ∧ t = last u := by
  rw [withFinally] at h
  split at h <;> cases h
  next hm => exact ⟨_, hm, rfl⟩

theorem withFinally_raised_inv (h : withFinally m last s = .raised e t) :
    ∃ u, m s = .raised e u ∧ t = last u := by
  rw [withFinally] at h
  split at h <;> cases h
  next hm => exact ⟨_, hm, rfl⟩

/-- The last step is run however the procedure ends. -/
theorem next_withFinally : (withFinally m last s).next = last (m s).next := by
  rw [withFinally]
  split
  next hm => rw [hm]; rfl
  next hm => rw [hm]; rfl

end Finally

/-! ### Loops -/

/-- A loop over two lists, one after the other. -/
theorem forEach_append (xs ys : List α) (f : α → Proc ε σ Unit) :
    forEach (xs ++ ys) f = (do forEach xs f; forEach ys f) := by
  induction xs with
  | nil => rfl
  | cons x xs ih => rw [List.cons_append, forEach_cons, forEach_cons, ih, bind_assoc]

/-- A loop over a mapped list is a loop over the list. -/
theorem forEach_map (f : β → Proc ε σ Unit) (g : α → β) (xs : List α) :
    forEach (xs.map g) f = forEach xs fun x => f (g x) := by
  induction xs with
  | nil => rfl
  | cons x xs ih => rw [List.map_cons, forEach_cons, forEach_cons, ih]

/-- A loop whose rounds all return, returns. -/
theorem forEach_ok {xs : List α} {f : α → Proc ε σ Unit}
    (hf : ∀ x ∈ xs, ∀ s, ∃ t, f x s = .ok () t) (s : σ) : ∃ t, forEach xs f s = .ok () t := by
  induction xs generalizing s with
  | nil => exact ⟨s, rfl⟩
  | cons x xs ih =>
    obtain ⟨t, ht⟩ := hf x (List.mem_cons_self ..) s
    obtain ⟨u, hu⟩ := ih (fun y hy => hf y (List.mem_cons_of_mem _ hy)) t
    exact ⟨u, by rw [forEach_cons, bind_ok ht, hu]⟩

/-- In a loop that returned, every round returned. -/
theorem forEach_ok_inv {xs : List α} {f : α → Proc ε σ Unit} {s u : σ}
    (h : forEach xs f s = .ok () u) : ∀ x ∈ xs, ∃ t t', f x t = .ok () t' := by
  induction xs generalizing s with
  | nil => simp
  | cons x xs ih =>
    obtain ⟨u, t, hx, hxs⟩ := bind_ok_inv h
    exact List.forall_mem_cons.mpr ⟨⟨s, t, hx⟩, ih hxs⟩

/-- In a loop that returned, what every round that returns does, all of them
together do. -/
theorem forEach_ok_related {R : σ → σ → Prop} [Std.Refl R] [IsTrans σ R] {xs : List α}
    {f : α → Proc ε σ Unit} (hf : ∀ x ∈ xs, ∀ s t, f x s = .ok () t → R s t) {s t : σ}
    (h : forEach xs f s = .ok () t) : R s t := by
  induction xs generalizing s with
  | nil =>
    obtain ⟨-, rfl⟩ := pure_ok_inv h
    exact refl_of R _
  | cons x xs ih =>
    obtain ⟨u, s', hx, hxs⟩ := bind_ok_inv h
    exact trans_of R (hf x (List.mem_cons_self ..) s s' hx)
      (ih (fun y hy => hf y (List.mem_cons_of_mem _ hy)) hxs)

/-! ### The errors a procedure can raise -/

/-- Every error that `m` raises satisfies `E`. -/
def Raises (E : ε → Prop) (m : Proc ε σ α) : Prop := ∀ s e t, m s = .raised e t → E e

section Raises

variable {E : ε → Prop}

/-- A procedure that raises only these errors raises only errors of any larger class. -/
theorem Raises.mono {E' : ε → Prop} {m : Proc ε σ α} (h : Raises E m) (hE : ∀ e, E e → E' e) :
    Raises E' m :=
  fun s e t hm => hE e (h s e t hm)

theorem raises_pure (a : α) : Raises E (pure a : Proc ε σ α) := fun _ _ _ h => by cases h

theorem raises_raise {e : ε} (he : E e) : Raises E (raise e : Proc ε σ α) := fun _ _ _ h => by
  cases h
  exact he

theorem raises_observe (f : σ → α) : Raises E (observe f : Proc ε σ α) := fun _ _ _ h => by cases h

theorem raises_update (f : σ → σ) : Raises E (update f : Proc ε σ Unit) := fun _ _ _ h => by cases h

/-- A lifted value raises its own error. -/
theorem raises_lift {x : Except ε α} (hx : ∀ e, x = .error e → E e) :
    Raises E (lift x : Proc ε σ α) := by
  cases x with
  | ok a => exact raises_pure a
  | error e => exact raises_raise (hx e rfl)

/-- A sequence raises what one of its parts raises. -/
theorem Raises.bind {m : Proc ε σ α} {f : α → Proc ε σ β} (hm : Raises E m)
    (hf : ∀ a, Raises E (f a)) : Raises E (m >>= f) := by
  intro s e u h
  rw [bind_apply] at h
  rcases hs : m s with ⟨a, t⟩ | ⟨e', t⟩ <;> rw [hs] at h
  · exact hf a t e u h
  · cases h
    exact hm s _ _ hs

theorem Raises.map {m : Proc ε σ α} (hm : Raises E m) (f : α → β) : Raises E (f <$> m) :=
  hm.bind fun a => raises_pure (f a)

/-- What is left to be raised: unhandled errors, and those of the handlers. -/
theorem Raises.recover {m : Proc ε σ α} {h : ε → Option (Proc ε σ α)}
    (hm : ∀ s e t, m s = .raised e t → h e = none → E e)
    (hh : ∀ e k, h e = some k → Raises E k) : Raises E (m.recover h) := by
  intro s e u hr
  rcases hs : m s with ⟨a, t⟩ | ⟨e', t⟩
  · rw [recover_ok hs] at hr
    cases hr
  · rcases he : h e' with - | k
    · rw [recover_unhandled hs he] at hr
      cases hr
      exact hm s _ _ hs he
    · rw [recover_handled hs he] at hr
      exact hh e' k he t e u hr

/-- The handler for some errors adds only its own. -/
theorem Raises.recover_if {c : ε → Prop} [DecidablePred c] {m : Proc ε σ α} {k : ε → Proc ε σ α}
    (hm : Raises E m) (hk : ∀ e, Raises E (k e)) :
    Raises E (m.recover fun e => if c e then some (k e) else none) :=
  .recover (fun s e t h _ => hm s e t h) fun e _ he => by
    split at he <;> cases he
    exact hk e

/-- The handler for all errors but some adds only its own. -/
theorem Raises.recover_unless {c : ε → Prop} [DecidablePred c] {m : Proc ε σ α}
    {k : ε → Proc ε σ α} (hm : Raises E m) (hk : ∀ e, Raises E (k e)) :
    Raises E (m.recover fun e => if c e then none else some (k e)) :=
  .recover (fun s e t h _ => hm s e t h) fun e _ he => by
    split at he <;> cases he
    exact hk e

theorem Raises.whenever {b : Bool} {m : Proc ε σ Unit} (hm : Raises E m) :
    Raises E (whenever b m) := by
  cases b with
  | true => exact hm
  | false => exact raises_pure ()

/-- A loop raises what one of its rounds raises. -/
theorem forEach_raises {xs : List α} {f : α → Proc ε σ Unit} (hf : ∀ x ∈ xs, Raises E (f x)) :
    Raises E (forEach xs f) := by
  induction xs with
  | nil => exact raises_pure ()
  | cons x xs ih =>
    rw [forEach_cons]
    exact (hf x (List.mem_cons_self ..)).bind fun _ => ih fun y hy =>
      hf y (List.mem_cons_of_mem _ hy)

/-- The same for a loop that carries a value on. -/
theorem foldEach_raises {xs : List α} {f : β → α → Proc ε σ β}
    (hf : ∀ b, ∀ x ∈ xs, Raises E (f b x))
    (b : β) : Raises E (foldEach xs b f) := by
  induction xs generalizing b with
  | nil => exact raises_pure b
  | cons x xs ih =>
    rw [foldEach_cons]
    exact (hf b x (List.mem_cons_self ..)).bind fun b' =>
      ih (fun b y hy => hf b y (List.mem_cons_of_mem _ hy)) b'

end Raises

/-! ### The values a procedure can return -/

/-- Every value that `m` returns satisfies `Q`. -/
def Yields (Q : α → Prop) (m : Proc ε σ α) : Prop := ∀ s a t, m s = .ok a t → Q a

section Yields

variable {Q : α → Prop}

theorem yields_pure {a : α} (ha : Q a) : Yields Q (pure a : Proc ε σ α) := fun _ _ _ h => by
  cases h
  exact ha

theorem yields_raise (e : ε) : Yields Q (raise e : Proc ε σ α) := fun _ _ _ h => by cases h

theorem yields_lift {x : Except ε α} (hx : ∀ a, x = .ok a → Q a) :
    Yields Q (lift x : Proc ε σ α) := fun _ a _ h => hx a (lift_ok_inv h).1

/-- The rule of composition: the first part hands its property on to the second. -/
theorem Yields.bind {Q' : β → Prop} {m : Proc ε σ α} {f : α → Proc ε σ β} (hm : Yields Q m)
    (hf : ∀ a, Q a → Yields Q' (f a)) : Yields Q' (m >>= f) := by
  intro s b u h
  obtain ⟨a, t, ha, hb⟩ := bind_ok_inv h
  exact hf a (hm s a t ha) t b u hb

theorem Yields.map {Q' : β → Prop} {m : Proc ε σ α} {f : α → β} (hm : Yields Q m)
    (hf : ∀ a, Q a → Q' (f a)) : Yields Q' (f <$> m) :=
  hm.bind fun a ha => yields_pure (hf a ha)

/-- What the last step of a sequence yields, whatever came before it. -/
theorem yields_of_last {Q' : β → Prop} {m : Proc ε σ α} {f : α → Proc ε σ β}
    (hf : ∀ a, Yields Q' (f a)) : Yields Q' (m >>= f) := by
  intro s b u h
  obtain ⟨a, t, -, hb⟩ := bind_ok_inv h
  exact hf a t b u hb

/-- A result comes from the procedure or from a handler. -/
theorem Yields.recover {m : Proc ε σ α} {h : ε → Option (Proc ε σ α)} (hm : Yields Q m)
    (hh : ∀ e k, h e = some k → Yields Q k) : Yields Q (m.recover h) := by
  intro s a u hr
  rcases hs : m s with ⟨b, t⟩ | ⟨e, t⟩
  · rw [recover_ok hs] at hr
    cases hr
    exact hm s _ _ hs
  · rcases he : h e with - | k
    · rw [recover_unhandled hs he] at hr
      cases hr
    · rw [recover_handled hs he] at hr
      exact hh e k he t a u hr

theorem Yields.recover_if {c : ε → Prop} [DecidablePred c] {m : Proc ε σ α} {k : ε → Proc ε σ α}
    (hm : Yields Q m) (hk : ∀ e, Yields Q (k e)) :
    Yields Q (m.recover fun e => if c e then some (k e) else none) :=
  hm.recover fun e _ he => by
    split at he <;> cases he
    exact hk e

end Yields

/-! ### Framing

`Within R m`: whatever `m` does, it moves the state along `R`. For a preorder
this is closed under every way of building procedures, so the frame of a long
procedure is read off the frames of its parts. -/

/-- Every run of `m`, returning or raising, ends in a state `R`-related to the
one it started in. -/
def Within (R : σ → σ → Prop) (m : Proc ε σ α) : Prop := ∀ s, R s (m s).next

section Framing

variable {R : σ → σ → Prop}

/-- The relation holds between the states before and after, if the procedure returns. -/
theorem Within.ok {m : Proc ε σ α} (h : Within R m) {s t : σ} {a : α}
    (hm : m s = .ok a t) : R s t := by
  have := h s
  rwa [hm] at this

/-- It holds as well if the procedure raises. -/
theorem Within.raised {m : Proc ε σ α} (h : Within R m) {s t : σ} {e : ε}
    (hm : m s = .raised e t) : R s t := by
  have := h s
  rwa [hm] at this

/-- A larger relation holds a fortiori. -/
theorem Within.mono {R' : σ → σ → Prop} {m : Proc ε σ α} (h : Within R m)
    (hR : ∀ s t, R s t → R' s t) : Within R' m :=
  fun s => hR _ _ (h s)

variable [Std.Refl R] [IsTrans σ R]

omit [IsTrans σ R] in
theorem within_pure (a : α) : Within R (pure a : Proc ε σ α) := fun s => refl_of R s

omit [IsTrans σ R] in
theorem within_raise (e : ε) : Within R (raise e : Proc ε σ α) := fun s => refl_of R s

omit [IsTrans σ R] in
theorem within_observe (f : σ → α) : Within R (observe f : Proc ε σ α) := fun s => refl_of R s

omit [IsTrans σ R] in
theorem within_lift (x : Except ε α) : Within R (lift x : Proc ε σ α) := by
  cases x with
  | ok a => exact within_pure a
  | error e => exact within_raise e

omit [Std.Refl R] in
/-- The rule of composition, for a transitive relation. -/
theorem Within.bind {m : Proc ε σ α} {f : α → Proc ε σ β} (hm : Within R m)
    (hf : ∀ a, Within R (f a)) : Within R (m >>= f) := by
  intro s
  rw [bind_apply]
  rcases h : m s with ⟨a, t⟩ | ⟨e, t⟩
  · exact trans_of R (hm.ok h) (hf a t)
  · exact hm.raised h

omit [Std.Refl R] in
/-- The rest only has to stay within `R` for the values that can arrive there. -/
theorem Within.bind_yields {Q : α → Prop} {m : Proc ε σ α} {f : α → Proc ε σ β} (hm : Within R m)
    (hQ : Yields Q m) (hf : ∀ a, Q a → Within R (f a)) : Within R (m >>= f) := by
  intro s
  rw [bind_apply]
  rcases h : m s with ⟨a, t⟩ | ⟨e, t⟩
  · exact trans_of R (hm.ok h) (hf a (hQ s a t h) t)
  · exact hm.raised h

omit [Std.Refl R] in
/-- Handlers go on from the state that the error has left. -/
theorem Within.recover {m : Proc ε σ α} {h : ε → Option (Proc ε σ α)} (hm : Within R m)
    (hh : ∀ e k, h e = some k → Within R k) : Within R (m.recover h) := by
  intro s
  rcases hs : m s with ⟨a, t⟩ | ⟨e, t⟩
  · rw [recover_ok hs]
    exact hm.ok hs
  · rcases he : h e with - | k
    · rw [recover_unhandled hs he]
      exact hm.raised hs
    · rw [recover_handled hs he]
      exact trans_of R (hm.raised hs) (hh e k he t)

omit [Std.Refl R] in
/-- The rule for a handler of some errors. -/
theorem Within.recover_if {c : ε → Prop} [DecidablePred c] {m : Proc ε σ α} {k : ε → Proc ε σ α}
    (hm : Within R m) (hk : ∀ e, Within R (k e)) :
    Within R (m.recover fun e => if c e then some (k e) else none) :=
  hm.recover fun e _ he => by
    split at he <;> cases he
    exact hk e

omit [Std.Refl R] in
/-- The rule for a handler of all errors but some. -/
theorem Within.recover_unless {c : ε → Prop} [DecidablePred c] {m : Proc ε σ α}
    {k : ε → Proc ε σ α} (hm : Within R m) (hk : ∀ e, Within R (k e)) :
    Within R (m.recover fun e => if c e then none else some (k e)) :=
  hm.recover fun e _ he => by
    split at he <;> cases he
    exact hk e

theorem Within.map {m : Proc ε σ α} (hm : Within R m) (f : α → β) : Within R (f <$> m) :=
  hm.bind fun a => within_pure (f a)

theorem Within.discard {m : Proc ε σ α} (hm : Within R m) : Within R (discard m) :=
  hm.map _

omit [IsTrans σ R] in
theorem Within.whenever {b : Bool} {m : Proc ε σ Unit} (hm : Within R m) :
    Within R (whenever b m) := by
  cases b with
  | true => exact hm
  | false => exact within_pure ()

/-- A loop stays within whatever its rounds stay within. -/
theorem forEach_within {xs : List α} {f : α → Proc ε σ Unit}
    (hf : ∀ x ∈ xs, Within R (f x)) : Within R (forEach xs f) := by
  induction xs with
  | nil => exact within_pure ()
  | cons x xs ih =>
    rw [forEach_cons]
    exact (hf x (List.mem_cons_self ..)).bind fun _ =>
      ih fun y hy => hf y (List.mem_cons_of_mem _ hy)

/-- In a loop that returned, each round has a place between the start and the
end. -/
theorem forEach_reaches {xs : List α} {f : α → Proc ε σ Unit} (hf : ∀ x ∈ xs, Within R (f x))
    {s u : σ} (h : forEach xs f s = .ok () u) {x : α} (hx : x ∈ xs) :
    ∃ t t', f x t = .ok () t' ∧ R s t ∧ R t' u := by
  induction xs generalizing s with
  | nil => cases hx
  | cons y ys ih =>
    obtain ⟨v, t, hy, hys⟩ := bind_ok_inv h
    have hrest : ∀ x ∈ ys, Within R (f x) := fun x hx => hf x (List.mem_cons_of_mem _ hx)
    rcases List.mem_cons.mp hx with rfl | hx
    · exact ⟨s, t, hy, refl_of R s, (forEach_within hrest).ok hys⟩
    · obtain ⟨t₁, t₂, hround, hbefore, hafter⟩ := ih hrest hys hx
      have hfirst := (hf y (List.mem_cons_self ..)).ok hy
      exact ⟨t₁, t₂, hround, trans_of R hfirst hbefore, hafter⟩

/-- The variable that a loop threads keeps what every round keeps of it. -/
theorem foldEach_yields {Q : β → Prop} {xs : List α} {f : β → α → Proc ε σ β}
    (hf : ∀ b, Q b → ∀ x ∈ xs, Yields Q (f b x)) {b : β} (hb : Q b) :
    Yields Q (foldEach xs b f) := by
  induction xs generalizing b with
  | nil => exact yields_pure hb
  | cons x xs ih =>
    rw [foldEach_cons]
    exact (hf b hb x (List.mem_cons_self ..)).bind fun b' hb' =>
      ih (fun b hb y hy => hf b hb y (List.mem_cons_of_mem _ hy)) hb'

/-- A loop with a variable stays within whatever its rounds stay within, as long as the
variable keeps what they need of it. -/
theorem foldEach_within_of {Q : β → Prop} {xs : List α} {f : β → α → Proc ε σ β}
    (hQ : ∀ b, Q b → ∀ x ∈ xs, Yields Q (f b x)) (hf : ∀ b, Q b → ∀ x ∈ xs, Within R (f b x))
    {b : β} (hb : Q b) : Within R (foldEach xs b f) := by
  induction xs generalizing b with
  | nil => exact within_pure b
  | cons x xs ih =>
    rw [foldEach_cons]
    exact (hf b hb x (List.mem_cons_self ..)).bind_yields (hQ b hb x (List.mem_cons_self ..))
      fun b' hb' => ih (fun b hb y hy => hQ b hb y (List.mem_cons_of_mem _ hy))
        (fun b hb y hy => hf b hb y (List.mem_cons_of_mem _ hy)) hb'

/-- A loop stays within the relation if its rounds do. -/
theorem foldEach_within {xs : List α} {f : β → α → Proc ε σ β}
    (hf : ∀ b, ∀ x ∈ xs, Within R (f b x)) (b : β) : Within R (foldEach xs b f) :=
  foldEach_within_of (Q := fun _ => True) (fun _ _ _ _ _ _ _ _ => trivial) (fun b _ => hf b) trivial

end Framing

/-! ### Triples -/

/-- From a state with `P`, a run of `m` that returns ends with `Q`, and one that raises
ends with `E`. -/
def Triple (P : σ → Prop) (m : Proc ε σ α) (Q : α → σ → Prop) (E : ε → σ → Prop) : Prop :=
  ∀ s, P s → match m s with
    | .ok a t => Q a t
    | .raised e t => E e t

section Triples

variable {P : σ → Prop} {Q : α → σ → Prop} {E : ε → σ → Prop}

/-- What holds if the procedure returns. -/
theorem Triple.ok {m : Proc ε σ α} (h : Triple P m Q E) {s t : σ} {a : α} (hs : P s)
    (hm : m s = .ok a t) : Q a t := by
  have := h s hs
  rwa [hm] at this

/-- What holds if the procedure raises. -/
theorem Triple.raised {m : Proc ε σ α} (h : Triple P m Q E) {s t : σ} {e : ε} (hs : P s)
    (hm : m s = .raised e t) : E e t := by
  have := h s hs
  rwa [hm] at this

/-- A procedure that cannot raise from here returns. -/
theorem Triple.returns {m : Proc ε σ α} (h : Triple P m Q fun _ _ => False) {s : σ} (hs : P s) :
    ∃ a t, m s = .ok a t ∧ Q a t := by
  rcases hm : m s with ⟨a, t⟩ | ⟨e, t⟩
  · exact ⟨a, t, rfl, h.ok hs hm⟩
  · exact (h.raised hs hm).elim

/-- The rules for the primitive steps: the precondition gives the postcondition of the state that
the step makes. -/
theorem triple_pure {a : α} (h : ∀ s, P s → Q a s) : Triple P (pure a : Proc ε σ α) Q E :=
  fun s hs => h s hs

theorem triple_raise {e : ε} (h : ∀ s, P s → E e s) : Triple P (raise e : Proc ε σ α) Q E :=
  fun s hs => h s hs

theorem triple_observe {f : σ → α} (h : ∀ s, P s → Q (f s) s) :
    Triple P (observe f : Proc ε σ α) Q E :=
  fun s hs => h s hs

theorem triple_update {f : σ → σ} {Q : Unit → σ → Prop} (h : ∀ s, P s → Q () (f s)) :
    Triple P (update f : Proc ε σ Unit) Q E :=
  fun s hs => h s hs

/-- A lifted value either is the result or is raised. -/
theorem triple_lift {x : Except ε α} (hok : ∀ a s, x = .ok a → P s → Q a s)
    (herror : ∀ e s, x = .error e → P s → E e s) : Triple P (lift x : Proc ε σ α) Q E := by
  cases x with
  | ok a => exact triple_pure fun s hs => hok a s rfl hs
  | error e => exact triple_raise fun s hs => herror e s rfl hs

/-- The rule of composition: the postcondition of the first part is the precondition of the second.
-/
theorem Triple.bind {m : Proc ε σ α} {f : α → Proc ε σ β} {R : β → σ → Prop}
    (hm : Triple P m Q E) (hf : ∀ a, Triple (Q a) (f a) R E) : Triple P (m >>= f) R E := by
  intro s hs
  rw [bind_apply]
  rcases h : m s with ⟨a, t⟩ | ⟨e, t⟩
  · exact hf a t (hm.ok hs h)
  · exact hm.raised hs h

/-- What the precondition says without reference to a state can be taken out of it. -/
theorem Triple.of_fact {m : Proc ε σ α} {c : Prop} (hc : ∀ s, P s → c) (h : c → Triple P m Q E) :
    Triple P m Q E :=
  fun s hs => h (hc s hs) s hs

/-- The rule of consequence. -/
theorem Triple.conseq {m : Proc ε σ α} {P' : σ → Prop} {Q' : α → σ → Prop} {E' : ε → σ → Prop}
    (h : Triple P m Q E) (hP : ∀ s, P' s → P s) (hQ : ∀ a s, Q a s → Q' a s)
    (hE : ∀ e s, E e s → E' e s) : Triple P' m Q' E' := by
  intro s hs
  rcases hm : m s with ⟨a, t⟩ | ⟨e, t⟩
  · exact hQ a t (h.ok (hP s hs) hm)
  · exact hE e t (h.raised (hP s hs) hm)

/-- Two triples about one procedure, as one. -/
theorem Triple.and {m : Proc ε σ α} {P' : σ → Prop} {Q' : α → σ → Prop} {E' : ε → σ → Prop}
    (h : Triple P m Q E) (h' : Triple P' m Q' E') :
    Triple (fun s => P s ∧ P' s) m (fun a s => Q a s ∧ Q' a s) (fun e s => E e s ∧ E' e s) := by
  intro s hs
  rcases hm : m s with ⟨a, t⟩ | ⟨e, t⟩
  · exact ⟨h.ok hs.1 hm, h'.ok hs.2 hm⟩
  · exact ⟨h.raised hs.1 hm, h'.raised hs.2 hm⟩

/-- A fact that has nothing to do with the state is carried along. -/
theorem Triple.carry {m : Proc ε σ α} {c : Prop} (h : Triple P m Q E) :
    Triple (fun s => P s ∧ c) m (fun a s => Q a s ∧ c) E :=
  Triple.of_fact (fun _ hs => hs.2) fun hc =>
    h.conseq (fun _ hs => hs.1) (fun _ _ hs => ⟨hs, hc⟩) fun _ _ he => he

/-- A fact about the results joins the postcondition. -/
theorem Triple.and_yields {m : Proc ε σ α} {Y : α → Prop} (h : Triple P m Q E)
    (hy : Yields Y m) : Triple P m (fun a s => Q a s ∧ Y a) E := by
  intro s hs
  rcases hm : m s with ⟨a, t⟩ | ⟨e, t⟩
  · exact ⟨h.ok hs hm, hy s a t hm⟩
  · exact h.raised hs hm

/-- What is known about the errors that a procedure raises in any case. -/
theorem Triple.raises {m : Proc ε σ α} {F : ε → Prop} (h : Triple P m Q E) (hr : Raises F m) :
    Triple P m Q fun e _ => F e := by
  intro s hs
  rcases hm : m s with ⟨a, t⟩ | ⟨e, t⟩
  · exact h.ok hs hm
  · exact hr s e t hm

/-- A fact about the errors, as a triple. -/
theorem Raises.triple {m : Proc ε σ α} {F : ε → Prop} (hr : Raises F m) :
    Triple P m (fun _ _ => True) fun e _ => F e := by
  intro s _
  rcases hm : m s with ⟨a, t⟩ | ⟨e, t⟩
  · trivial
  · exact hr s e t hm

/-- What the last part of a procedure brings about does not depend on what was before. -/
theorem triple_of_last {m : Proc ε σ α} {f : α → Proc ε σ β} {R : β → σ → Prop}
    (hf : ∀ a, Triple (fun _ => True) (f a) R fun _ _ => True) :
    Triple P (m >>= f) R fun _ _ => True := by
  intro s _
  rw [bind_apply]
  rcases m s with ⟨a, t⟩ | ⟨e, t⟩
  · exact hf a t trivial
  · trivial

/-- A precondition that the frame of a procedure cannot break still holds afterwards. -/
theorem Within.triple {R : σ → σ → Prop} {m : Proc ε σ α} (h : Within R m)
    (hP : ∀ s t, P s → R s t → P t) : Triple P m (fun _ => P) (fun _ => P) := by
  intro s hs
  rcases hm : m s with ⟨a, t⟩ | ⟨e, t⟩
  · exact hP s t hs (h.ok hm)
  · exact hP s t hs (h.raised hm)

/-- A handler starts where the error has left the state. -/
theorem Triple.recover {m : Proc ε σ α} {h : ε → Option (Proc ε σ α)} {E' : ε → σ → Prop}
    (hm : Triple P m Q E) (hhandled : ∀ e k, h e = some k → Triple (E e) k Q E')
    (hunhandled : ∀ e s, h e = none → E e s → E' e s) : Triple P (m.recover h) Q E' := by
  intro s hs
  rcases hr : m s with ⟨a, t⟩ | ⟨e, t⟩
  · rw [recover_ok hr]
    exact hm.ok hs hr
  · rcases he : h e with - | k
    · rw [recover_unhandled hr he]
      exact hunhandled e t he (hm.raised hs hr)
    · rw [recover_handled hr he]
      exact hhandled e k he t (hm.raised hs hr)

/-- The rule for a step that is taken under a condition. -/
theorem Triple.whenever {b : Bool} {m : Proc ε σ Unit} {Q : Unit → σ → Prop}
    (htrue : b = true → Triple P m Q E) (hfalse : b = false → ∀ s, P s → Q () s) :
    Triple P (whenever b m) Q E := by
  cases b with
  | true => exact htrue rfl
  | false => exact triple_pure (hfalse rfl)

/-- **The loop rule.** The invariant speaks of the part of the list that is done. -/
theorem forEach_triple {I : List α → σ → Prop} {xs : List α} {f : α → Proc ε σ Unit}
    (hf : ∀ done x rest, xs = done ++ x :: rest →
      Triple (I done) (f x) (fun _ => I (done ++ [x])) E) :
    Triple (I []) (forEach xs f) (fun _ => I xs) E := by
  suffices h : ∀ done rest, xs = done ++ rest →
      Triple (I done) (forEach rest f) (fun _ => I xs) E from h [] xs rfl
  intro done rest
  induction rest generalizing done with
  | nil =>
    intro hxs
    rw [List.append_nil] at hxs
    exact triple_pure fun s hs => hxs ▸ hs
  | cons x rest ih =>
    intro hxs
    rw [forEach_cons]
    refine (hf done x rest hxs).bind fun _ => ih (done ++ [x]) ?_
    rw [hxs, List.append_assoc, List.singleton_append]

/-- The loop rule, for a loop that threads a local variable. -/
theorem foldEach_triple {I : List α → β → σ → Prop} {xs : List α} {f : β → α → Proc ε σ β}
    (hf : ∀ done x rest b, xs = done ++ x :: rest →
      Triple (I done b) (f b x) (fun b' => I (done ++ [x]) b') E) (b : β) :
    Triple (I [] b) (foldEach xs b f) (fun b' => I xs b') E := by
  suffices h : ∀ done rest b, xs = done ++ rest →
      Triple (I done b) (foldEach rest b f) (fun b' => I xs b') E from h [] xs b rfl
  intro done rest
  induction rest generalizing done with
  | nil =>
    intro b hxs
    rw [List.append_nil] at hxs
    exact triple_pure fun s hs => hxs ▸ hs
  | cons x rest ih =>
    intro b hxs
    rw [foldEach_cons]
    refine (hf done x rest b hxs).bind fun b' => ih (done ++ [x]) b' ?_
    rw [hxs, List.append_assoc, List.singleton_append]

/-- A run of `m` gets by `R` to a state from which it goes on as `k`, unless it ends there with
an error. -/
def LeadsTo (R : σ → σ → Prop) (m k : Proc ε σ α) : Prop :=
  ∀ s, ∃ t, R s t ∧ (m s = k t ∨ ∃ e, m s = .raised e t)

theorem leadsTo_refl {R : σ → σ → Prop} [Std.Refl R] (m : Proc ε σ α) : LeadsTo R m m :=
  fun s => ⟨s, refl_of R s, .inl rfl⟩

/-- A step within the relation may come first. -/
theorem Within.leadsTo {R : σ → σ → Prop} [IsTrans σ R] {m : Proc ε σ α} {f : α → Proc ε σ β}
    {k : Proc ε σ β} (hm : Within R m) (hf : ∀ a, LeadsTo R (f a) k) : LeadsTo R (m >>= f) k := by
  intro s
  rcases h : m s with ⟨a, t⟩ | ⟨e, t⟩
  · obtain ⟨u, htu, hu⟩ := hf a t
    refine ⟨u, trans_of R (hm.ok h) htu, ?_⟩
    rw [bind_ok h]
    exact hu
  · exact ⟨t, hm.raised h, .inr ⟨e, bind_raised h⟩⟩

/-- A triple for the later part is one for the whole, if the precondition survives the way there. -/
theorem LeadsTo.triple {R : σ → σ → Prop} {m k : Proc ε σ α} (h : LeadsTo R m k)
    (hP : ∀ s t, P s → R s t → P t) (hE : ∀ e s, P s → E e s) (hk : Triple P k Q E) :
    Triple P m Q E := by
  intro s hs
  obtain ⟨t, hst, hrun | ⟨e, hrun⟩⟩ := h s <;> rw [hrun]
  · exact hk t (hP s t hs hst)
  · exact hE e t (hP s t hs hst)

end Triples

/-! ### Returning -/

/-- The run from `s` returns. -/
def Returns (m : Proc ε σ α) (s : σ) : Prop := ∃ a t, m s = .ok a t

section Returning

variable {s : σ}

theorem returns_pure (a : α) : Returns (pure a : Proc ε σ α) s := ⟨a, s, rfl⟩

theorem returns_observe (f : σ → α) : Returns (observe f : Proc ε σ α) s := ⟨f s, s, rfl⟩

theorem returns_update (f : σ → σ) : Returns (update f : Proc ε σ Unit) s := ⟨(), f s, rfl⟩

theorem not_returns_raise (e : ε) : ¬ Returns (raise e : Proc ε σ α) s := by
  rintro ⟨a, t, h⟩
  cases h

/-- A lifted value returns exactly if it is no error. -/
theorem returns_lift_iff {x : Except ε α} :
    Returns (lift x : Proc ε σ α) s ↔ ∃ a, x = .ok a := by
  cases x with
  | ok a => exact iff_of_true (returns_pure a) ⟨a, rfl⟩
  | error e => exact iff_of_false (not_returns_raise e) (by rintro ⟨a, ⟨⟩⟩)

/-- A sequence returns when its first part does, and the rest does from where that ends. -/
theorem returns_bind_iff {m : Proc ε σ α} {f : α → Proc ε σ β} {A B : Prop} (hm : Returns m s ↔ A)
    (hf : ∀ a t, m s = .ok a t → (Returns (f a) t ↔ B)) : Returns (m >>= f) s ↔ A ∧ B := by
  constructor
  · rintro ⟨b, u, h⟩
    obtain ⟨a, t, ha, hb⟩ := bind_ok_inv h
    exact ⟨hm.mp ⟨a, t, ha⟩, (hf a t ha).mp ⟨b, u, hb⟩⟩
  · rintro ⟨hA, hB⟩
    obtain ⟨a, t, ha⟩ := hm.mpr hA
    obtain ⟨b, u, hb⟩ := (hf a t ha).mpr hB
    exact ⟨b, u, (bind_ok ha).trans hb⟩

/-- A sequence whose first part always returns. -/
theorem returns_bind_iff_of_returns {m : Proc ε σ α} {f : α → Proc ε σ β} {B : Prop}
    (hm : Returns m s) (hf : ∀ a t, m s = .ok a t → (Returns (f a) t ↔ B)) :
    Returns (m >>= f) s ↔ B :=
  (returns_bind_iff (iff_true_intro hm) hf).trans (Iff.of_eq (true_and B))

/-- A sequence whose rest always returns. -/
theorem returns_bind_iff_of_last {m : Proc ε σ α} {f : α → Proc ε σ β} {A : Prop}
    (hm : Returns m s ↔ A) (hf : ∀ a t, m s = .ok a t → Returns (f a) t) :
    Returns (m >>= f) s ↔ A :=
  (returns_bind_iff hm fun a t ha => iff_true_intro (hf a t ha)).trans (Iff.of_eq (and_true A))

/-- A sequence returns if its first part does, and the second does from there. -/
theorem Returns.bind {m : Proc ε σ α} {f : α → Proc ε σ β} (hm : Returns m s)
    (hf : ∀ a t, m s = .ok a t → Returns (f a) t) : Returns (m >>= f) s :=
  (returns_bind_iff_of_last (iff_true_intro hm) hf).mpr trivial

theorem returns_map_iff {m : Proc ε σ α} (f : α → β) : Returns (f <$> m) s ↔ Returns m s :=
  returns_bind_iff_of_last Iff.rfl fun a _ _ => returns_pure (f a)

/-- A procedure that returns needs no handler. -/
theorem Returns.recover {m : Proc ε σ α} (hm : Returns m s) (h : ε → Option (Proc ε σ α)) :
    Returns (m.recover h) s := by
  obtain ⟨a, t, ha⟩ := hm
  exact ⟨a, t, recover_ok ha⟩

/-- A step under a condition returns exactly if it does where it is taken. -/
theorem returns_whenever_iff {b : Bool} {m : Proc ε σ Unit} {A : Prop}
    (hm : b = true → (Returns m s ↔ A)) : Returns (whenever b m) s ↔ (b = true → A) := by
  cases b with
  | true => exact (hm rfl).trans ⟨fun h _ => h, fun h => h rfl⟩
  | false => exact iff_of_true (returns_pure ()) (by rintro ⟨⟩)

/-- A loop returns when all its rounds do; an invariant says in which states they start. -/
theorem returns_foldEach_iff {I : β → σ → Prop} {C : α → Prop} {f : β → α → Proc ε σ β}
    {xs : List α} (hround : ∀ b t, ∀ x ∈ xs, I b t → (Returns (f b x) t ↔ C x))
    (hkeep : ∀ b t, ∀ x ∈ xs, I b t → ∀ b' t', f b x t = .ok b' t' → I b' t') {b : β} (hb : I b s) :
    Returns (foldEach xs b f) s ↔ ∀ x ∈ xs, C x := by
  induction xs generalizing b s with
  | nil => exact iff_of_true (returns_pure b) (by simp)
  | cons x xs ih =>
    rw [foldEach_cons, List.forall_mem_cons]
    refine returns_bind_iff (hround b s x (List.mem_cons_self ..) hb) fun b' t hx => ?_
    exact ih (fun b t y hy => hround b t y (List.mem_cons_of_mem _ hy))
      (fun b t y hy => hkeep b t y (List.mem_cons_of_mem _ hy))
      (hkeep b s x (List.mem_cons_self ..) hb b' t hx)

/-- A loop returns exactly if all its rounds do, where an invariant makes each round independent of
the others. -/
theorem returns_forEach_iff {I : σ → Prop} {C : α → Prop} {f : α → Proc ε σ Unit} {xs : List α}
    (hround : ∀ t, ∀ x ∈ xs, I t → (Returns (f x) t ↔ C x))
    (hkeep : ∀ t, ∀ x ∈ xs, I t → ∀ t', f x t = .ok () t' → I t') (hs : I s) :
    Returns (forEach xs f) s ↔ ∀ x ∈ xs, C x := by
  induction xs generalizing s with
  | nil => exact iff_of_true (returns_pure ()) (by simp)
  | cons x xs ih =>
    rw [forEach_cons, List.forall_mem_cons]
    refine returns_bind_iff (hround s x (List.mem_cons_self ..) hs) fun _ t hx => ?_
    exact ih (fun t y hy => hround t y (List.mem_cons_of_mem _ hy))
      (fun t y hy => hkeep t y (List.mem_cons_of_mem _ hy))
        (hkeep s x (List.mem_cons_self ..) hs t hx)

end Returning

end Proc
