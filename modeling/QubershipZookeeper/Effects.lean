import Mathlib.Data.List.Infix
import QubershipZookeeper.Controller

/-!
# What the procedures of the operator touch

Every procedure is given a **frame**: `Within (Touches T) m` says that whatever becomes of a
run of `m` — and whichever of its requests fail — only the fields in `T` of the world may
differ afterwards. The fields are those that the results of this development speak about:
stored objects, and what the controller remembers. The same relation also records what
no procedure of the operator ever does (`Evolves`): edit the specification, delete an
object, take back a version.
-/

namespace QubershipZookeeper.Operator

open Proc

/-! ## Frames -/

/-- The parts of the world that a frame can protect. -/
inductive Field where
  /-- the stored object of a kind with a name -/
  | object (k : Kind) (name : String)
  /-- the version that is remembered for a Secret -/
  | recordedVersion (secretName : String)
  /-- the hash that is remembered under a name -/
  | recordedHash (name : String)
  /-- the hash of the global section at hand -/
  | globalHash
  /-- the Secrets that the running call has tested -/
  | tested
  /-- the claim annotations in the status of the instance -/
  | pvcAnnotations
  /-- whether there is a map of Secret versions in the status of the instance -/
  | secretVersions
  /-- the claim annotations in the stored status -/
  | storedAnnotations
  /-- the conditions, in memory and stored -/
  | conditions
  /-- the contents of Vault -/
  | vault
  /-- the claims that were created or found -/
  | claimed
  /-- the Deployments that were stored -/
  | rollouts
  deriving DecidableEq

/-- Two worlds have the same value in a field. A stored status may also have become that of
the instance in memory, which is what storing it does. -/
def Field.Same : Field → World → World → Prop
  | object k name, w, w' => w'.get? k name = w.get? k name
  | recordedVersion secretName, w, w' =>
    w'.resourceVersions.lookup secretName = w.resourceVersions.lookup secretName
  | recordedHash name, w, w' => w'.resourceHashes.lookup name = w.resourceHashes.lookup name
  | globalHash, w, w' => w'.globalSpecHash = w.globalSpecHash
  | tested, w, w' => w'.tested = w.tested
  | pvcAnnotations, w, w' => w'.status.pvcAnnotations = w.status.pvcAnnotations
  | secretVersions, w, w' =>
    w'.status.secretVersions.isSome = w.status.secretVersions.isSome
  | storedAnnotations, w, w' => w'.status.pvcAnnotations = w.status.pvcAnnotations ∧
    (w'.storedStatus.pvcAnnotations = w.storedStatus.pvcAnnotations ∨
      w'.storedStatus.pvcAnnotations = w.status.pvcAnnotations)
  | conditions, w, w' => (w'.status.conditions = w.status.conditions ∧
    (w'.storedStatus.conditions = w.storedStatus.conditions ∨
      w'.storedStatus.conditions = w.status.conditions)) ∧ w'.timedOut = w.timedOut
  | vault, w, w' => w'.vault = w.vault
  | claimed, w, w' => w'.claimed = w.claimed
  | rollouts, w, w' => w'.rollouts = w.rollouts

/-- The fields of the status, in memory and stored. -/
def statusFields : Set Field := {.pvcAnnotations, .secretVersions, .storedAnnotations, .conditions}

theorem Field.same_refl (f : Field) (w : World) : f.Same w w := by
  cases f with
  | storedAnnotations => exact ⟨rfl, .inl rfl⟩
  | conditions => exact ⟨⟨rfl, .inl rfl⟩, rfl⟩
  | _ => rfl

/-- Storing a part of the status again and again. -/
theorem stored_trans {α : Type} {s₁ s₂ s₃ m₁ m₂ m₃ : α} (h : m₂ = m₁ ∧ (s₂ = s₁ ∨ s₂ = m₁))
    (h' : m₃ = m₂ ∧ (s₃ = s₂ ∨ s₃ = m₂)) : m₃ = m₁ ∧ (s₃ = s₁ ∨ s₃ = m₁) := by
  obtain ⟨rfl, h⟩ := h
  refine ⟨h'.1, ?_⟩
  rcases h'.2 with rfl | rfl
  · exact h
  · exact .inr rfl

/-- What stays the same in each of two steps stays the same in both together. -/
theorem Field.Same.trans {f : Field} {w₁ w₂ w₃ : World} (h : f.Same w₁ w₂) (h' : f.Same w₂ w₃) :
    f.Same w₁ w₃ := by
  cases f with
  | storedAnnotations => exact stored_trans h h'
  | conditions => exact ⟨stored_trans h.1 h'.1, h'.2.trans h.2⟩
  | _ => exact Eq.trans h' h

/-- The version of a secret in Vault; 0 if there is none. -/
def World.credentialsVersion (w : World) (secretPath : String) : ℕ :=
  ((w.vault.secrets.lookup secretPath).map Prod.snd).getD 0

/-- Every stored Secret has a version that the API server has assigned. -/
def World.Versioned (w : World) : Prop :=
  ∀ n s, w.get? .secret n = some s →
    0 < s.metadata.resourceVersion ∧ s.metadata.resourceVersion ≤ w.version

/-- How any procedure of the operator moves the world. -/
structure Evolves (w w' : World) : Prop where
  cr : w'.cr = w.cr
  environment : w'.environment = w.environment
  faults : w'.faults <:+ w.faults
  version : w.version ≤ w'.version
  present : ∀ k n, (w.get? k n).isSome → (w'.get? k n).isSome
  versioned : w.Versioned → w'.Versioned
  applied : w.applied ⊆ w'.applied
  vaulted : w.vaulted ⊆ w'.vaulted
  credentials : ∀ path, w.credentialsVersion path ≤ w'.credentialsVersion path
  passwordPolicies : ∀ n, (w.vault.passwordPolicies.lookup n).isSome →
    (w'.vault.passwordPolicies.lookup n).isSome

theorem Evolves.refl (w : World) : Evolves w w where
  cr := rfl
  environment := rfl
  faults := List.suffix_rfl
  version := le_rfl
  present _ _ h := h
  versioned h := h
  applied := List.Subset.refl _
  vaulted := List.Subset.refl _
  credentials _ := le_rfl
  passwordPolicies _ h := h

/-- The world evolves over two steps as it does over one. -/
theorem Evolves.trans {w₁ w₂ w₃ : World} (h : Evolves w₁ w₂) (h' : Evolves w₂ w₃) :
    Evolves w₁ w₃ where
  cr := h'.cr.trans h.cr
  environment := h'.environment.trans h.environment
  faults := h'.faults.trans h.faults
  version := h.version.trans h'.version
  present k n hn := h'.present k n (h.present k n hn)
  versioned hw := h'.versioned (h.versioned hw)
  applied := List.Subset.trans h.applied h'.applied
  vaulted := List.Subset.trans h.vaulted h'.vaulted
  credentials path := (h.credentials path).trans (h'.credentials path)
  passwordPolicies n hn := h'.passwordPolicies n (h.passwordPolicies n hn)

/-- Only the fields in `T` may have changed. -/
structure Touches (T : Set Field) (w w' : World) : Prop where
  same : ∀ f ∉ T, f.Same w w'
  evolves : Evolves w w'

variable {T : Set Field}

instance : Std.Refl (Touches T) where
  refl w := ⟨fun f _ => f.same_refl w, Evolves.refl w⟩

instance : IsTrans World (Touches T) where
  trans _ _ _ h h' := ⟨fun f hf => (h.same f hf).trans (h'.same f hf), h.evolves.trans h'.evolves⟩

/-- A step that touches few fields touches no more than a larger set of them. -/
theorem Touches.mono {T' : Set Field} {w w' : World} (h : Touches T w w') (hT : T ⊆ T') :
    Touches T' w w' :=
  ⟨fun f hf => h.same f fun hf' => hf (hT hf'), h.evolves⟩

/-- An object outside of the frame is as it was. -/
theorem Touches.get? {w w' : World} (h : Touches T w w') {k : Kind} {n : String}
    (hn : .object k n ∉ T) : w'.get? k n = w.get? k n :=
  h.same _ hn

/-! ## The ways in which the world is changed -/

/-- Nothing but the status, and the parts that no field speaks about. -/
theorem touches_background (w : World) (storedStatus status : ZooKeeperServiceStatus)
    (pods : List Pod) (statuses : String → DeploymentStatus) (clock generated : ℕ)
    (h : ∀ f ∈ statusFields, f ∉ T →
      f.Same w { w with storedStatus := storedStatus, status := status }) :
    Touches T w { w with storedStatus := storedStatus, status := status, pods := pods,
                         statuses := statuses, clock := clock, generated := generated } where
  same f hf := by
    cases f with
    | pvcAnnotations => exact h .pvcAnnotations (by simp [statusFields]) hf
    | secretVersions => exact h .secretVersions (by simp [statusFields]) hf
    | storedAnnotations => exact h .storedAnnotations (by simp [statusFields]) hf
    | conditions => exact h .conditions (by simp [statusFields]) hf
    | _ => rfl
  evolves := { Evolves.refl w with }

/-- A status that differs in nothing a field speaks about, stored or not. -/
theorem same_status {w : World} {storedStatus status : ZooKeeperServiceStatus}
    (hannotations : status.pvcAnnotations = w.status.pvcAnnotations)
    (hversions : status.secretVersions.isSome = w.status.secretVersions.isSome)
    (hconditions : status.conditions = w.status.conditions)
    (hstored : storedStatus = w.storedStatus ∨ storedStatus = w.status) :
    ∀ f ∈ statusFields, f.Same w { w with storedStatus := storedStatus, status := status } := by
  intro f hf
  rcases hf with rfl | rfl | rfl | rfl
  · exact hannotations
  · exact hversions
  · exact ⟨hannotations, hstored.imp (congrArg _) (congrArg _)⟩
  · exact ⟨⟨hconditions, hstored.imp (congrArg _) (congrArg _)⟩, rfl⟩

/-- The status stays as it is, in memory and stored. -/
theorem touches_quiet (w : World) (pods : List Pod) (statuses : String → DeploymentStatus)
    (clock generated : ℕ) :
    Touches T w { w with pods := pods, statuses := statuses, clock := clock,
                         generated := generated } :=
  touches_background w _ _ _ _ _ _ fun f hf _ => same_status rfl rfl rfl (.inl rfl) f hf

/-- A request uses up a fault, which is no field. -/
theorem touches_faults (w : World) {faults : List Fault} (h : faults <:+ w.faults) :
    Touches T w { w with faults := faults } where
  same f _ := by
    cases f with
    | storedAnnotations => exact ⟨rfl, .inl rfl⟩
    | conditions => exact ⟨⟨rfl, .inl rfl⟩, rfl⟩
    | _ => rfl
  evolves := { Evolves.refl w with faults := h }

/-- A write raises the version of the cluster, and removes nothing. -/
theorem evolves_store (w : World) (k : Kind) (o : k.Object) : Evolves w (w.store k o) where
  cr := rfl
  environment := rfl
  faults := List.suffix_rfl
  version := Nat.le_succ _
  present k' n hn := by
    by_cases h : k' = k ∧ n = k.name o
    · obtain ⟨rfl, rfl⟩ := h
      rw [World.get?_store_self]
      rfl
    · rw [World.get?_store_of_ne w (not_and_or.mp h)]
      exact hn
  versioned hw n s hs := by
    by_cases h : Kind.secret = k ∧ n = k.name o
    · obtain ⟨rfl, rfl⟩ := h
      rw [World.get?_store_self] at hs
      cases hs
      exact ⟨Nat.succ_pos _, le_rfl⟩
    · rw [World.get?_store_of_ne w (not_and_or.mp h)] at hs
      exact ⟨(hw n s hs).1, (hw n s hs).2.trans (Nat.le_succ _)⟩
  applied := List.Subset.refl _
  vaulted := List.Subset.refl _
  credentials _ := le_rfl
  passwordPolicies _ h := h

/-- The frame allows an object to be stored. -/
def Writes (T : Set Field) (k : Kind) (n : String) : Prop :=
  .object k n ∈ T ∧ (k = .deployment → .rollouts ∈ T)

/-- A write of a Deployment is on record as a rollout. -/
theorem writes_deployment (n : String) :
    Writes {.object .deployment n, .rollouts} .deployment n :=
  ⟨.inl rfl, fun _ => .inr rfl⟩

/-- A write touches the object that is written. -/
theorem touches_store (w : World) {k : Kind} {o : k.Object} (h : Writes T k (k.name o)) :
    Touches T w (w.store k o) where
  same f hf := by
    cases f with
    | object k' n =>
      refine World.get?_store_of_ne w (not_and_or.mp ?_)
      rintro ⟨rfl, rfl⟩
      exact hf h.1
    | rollouts =>
      cases k with
      | deployment => exact (hf (h.2 rfl)).elim
      | _ => rfl
    | storedAnnotations => exact ⟨rfl, .inl rfl⟩
    | conditions => exact ⟨⟨rfl, .inl rfl⟩, rfl⟩
    | _ => rfl
  evolves := evolves_store w k o

/-! ## Requests -/

/-- What becomes of a request is decided before it is served. -/
theorem request_within {α : Type} {R : World → World → Prop} [IsTrans World R] {serve : Op α}
    (hR : ∀ w w', Touches ∅ w w' → R w w') (h : Within R serve) : Within R (request serve) := by
  intro w
  unfold request
  rcases hw : w.faults with - | ⟨fault, faults⟩
  · exact h w
  · have hstep : R w { w with faults := faults } :=
      hR _ _ (touches_faults w (hw ▸ List.suffix_cons fault faults))
    rcases fault with - | why | why | -
    · exact trans_of R hstep (h _)
    · exact hstep
    · exact trans_of R hstep (h _)
    · exact trans_of R hstep (h _)

/-- The answer is looked at when the request is over. -/
theorem replied_within {α : Type} {R : World → World → Prop} [Std.Refl R] [IsTrans World R]
    {p : Panic} {m : Op α} (h : Within R m) : Within R (replied p m) :=
  (within_observe _).bind fun hollow => h.bind fun reply => by
    cases hollow with
    | true => exact within_raise _
    | false => exact within_pure reply

/-- A request that fails touches nothing of its own, and one whose answer is lost touches what it
has served. -/
theorem request_touches {α : Type} {serve : Op α} (h : Within (Touches T) serve) :
    Within (Touches T) (request serve) :=
  request_within (fun _ _ hw => hw.mono (Set.empty_subset T)) h

theorem clientGet_touches (k : Kind) (n : String) : Within (Touches T) (clientGet k n) :=
  request_touches fun w => by
    rcases w.get? k n with - | o <;> exact refl_of (Touches T) w

section Writes

variable {R : World → World → Prop} [Std.Refl R] [IsTrans World R] {k : Kind} {o : k.Object}

/-- A creation comes to nothing, or to one write. -/
theorem clientCreate_within (hR : ∀ w w', Touches ∅ w w' → R w w') (h : ∀ w, R w (w.store k o)) :
    Within R (clientCreate k o) := by
  refine request_within hR fun w => ?_
  rcases w.get? k (k.name o) with - | found
  · exact h w
  · exact refl_of R w

/-- An update comes to nothing, or to one write. -/
theorem clientUpdate_within (hR : ∀ w w', Touches ∅ w w' → R w w') (h : ∀ w, R w (w.store k o)) :
    Within R (clientUpdate k o) := by
  refine request_within hR fun w => ?_
  rcases w.get? k (k.name o) with - | found
  · exact refl_of R w
  · dsimp only
    split
    · exact refl_of R w
    · exact h w

end Writes

theorem Touches.of_empty {w w' : World} (h : Touches ∅ w w') : Touches T w w' :=
  h.mono (Set.empty_subset T)

theorem clientCreate_touches {k : Kind} {o : k.Object} {n : String} (hn : k.name o = n)
    (h : Writes T k n) : Within (Touches T) (clientCreate k o) := by
  subst hn
  exact clientCreate_within (fun _ _ hw => hw.of_empty) fun w => touches_store w h

theorem clientUpdate_touches {k : Kind} {o : k.Object} {n : String} (hn : k.name o = n)
    (h : Writes T k n) : Within (Touches T) (clientUpdate k o) := by
  subst hn
  exact clientUpdate_within (fun _ _ hw => hw.of_empty) fun w => touches_store w h

theorem listDeployments_touches (selector : StringMap) :
    Within (Touches T) (listDeployments selector) :=
  request_touches (within_observe _)

theorem listPods_touches (selector : StringMap) : Within (Touches T) (listPods selector) :=
  request_touches (within_observe _)

/-- Fetching the instance replaces the status that the controller works on. -/
theorem getInstance_touches (h : statusFields ⊆ T) : Within (Touches T) getInstance :=
  request_touches fun w => by
    split
    · exact touches_background w _ _ _ _ _ _ fun f hf hne => absurd (h hf) hne
    · exact refl_of (Touches T) w

theorem statusUpdate_touches : Within (Touches T) statusUpdate :=
  request_touches fun w => by
    split
    · exact touches_background w _ _ _ _ _ _ fun f hf _ =>
        same_status rfl rfl rfl (.inr rfl) f hf
    · exact refl_of (Touches T) w

theorem sleep_touches : Within (Touches T) sleep :=
  fun w => touches_quiet w _ _ _ _

theorem now_touches : Within (Touches T) now :=
  fun w => touches_quiet w _ _ _ _

/-- A wait touches what its condition touches: time passes, and the environment is no field. -/
theorem poll_touches {condition : Op Bool} (h : Within (Touches T) condition) (tries : ℕ) :
    Within (Touches T) (poll tries condition) := by
  induction tries with
  | zero => exact within_raise _
  | succ tries ih =>
    refine h.bind fun done => ?_
    by_cases hdone : done = true
    · rw [if_pos hdone]
      exact within_pure ()
    · rw [if_neg hdone]
      exact sleep_touches.bind fun _ => ih

/-- Repeating a procedure stays within a relation that composes. -/
theorem retryOnConflict_within {α : Type} {R : World → World → Prop} [IsTrans World R] {m : Op α}
    (h : Within R m) (retries : ℕ) : Within R (retryOnConflict retries m) := by
  induction retries with
  | zero => exact h
  | succ retries ih =>
    exact h.recover_if fun _ => ih

theorem build_touches {α : Type} (x : Except Panic α) : Within (Touches T) (build x) :=
  within_lift _

/-! ### What requests answer -/

/-- Building an object leaves the world alone. -/
theorem build_ok_inv {α : Type} {x : Except Panic α} {w w' : World} {a : α}
    (h : build x w = .ok a w') : x = .ok a ∧ w' = w := by
  cases x with
  | error e => cases h
  | ok b =>
    cases h
    exact ⟨rfl, rfl⟩

theorem build_yields {α : Type} {Q : α → Prop} {x : Except Panic α} (h : ∀ a, x = .ok a → Q a) :
    Yields Q (build x) :=
  fun _ a _ hrun => h a (build_ok_inv hrun).1

/-- A builder hands over its object, or panics in the same world. -/
theorem triple_build {α : Type} {x : Except Panic α} {P : World → Prop} {Q : α → World → Prop}
    {E : GoError → World → Prop} (hok : ∀ a w, x = .ok a → P w → Q a w)
    (herror : ∀ e w, P w → E e w) : Triple P (build x) Q E := by
  cases x with
  | ok a => exact triple_pure fun w hw => hok a w rfl hw
  | error e => exact triple_raise fun w hw => herror _ w hw

theorem request_yields {α : Type} {Q : α → Prop} {serve : Op α} (h : Yields Q serve) :
    Yields Q (request serve) := by
  intro w a w' hw
  unfold request at hw
  split at hw
  · exact h _ _ _ hw
  · exact h _ _ _ hw
  · exact h _ _ _ hw
  · cases hw
  · cases hw

/-- An answer that was made use of is the answer. -/
theorem replied_ok_inv {α : Type} {p : Panic} {m : Op α} {w w' : World} {a : α}
    (h : replied p m w = .ok a w') : m w = .ok a w' := by
  obtain ⟨hollow, t, hobserve, hrest⟩ := bind_ok_inv h
  cases hobserve
  obtain ⟨reply, t', hm, hlast⟩ := bind_ok_inv hrest
  split at hlast
  · cases hlast
  · cases hlast
    exact hm

/-- A request that returned was served, with some of the faults used up. -/
theorem request_ok_inv {α : Type} {serve : Op α} {w w' : World} {a : α}
    (h : request serve w = .ok a w') : ∃ faults, serve { w with faults := faults } = .ok a w' := by
  unfold request at h
  split at h
  · exact ⟨w.faults, h⟩
  · exact ⟨_, h⟩
  · exact ⟨_, h⟩
  · cases h
  · cases h

/-- A request that raised was served and raised there, or it has failed. -/
theorem request_raised_inv {α : Type} {serve : Op α} {w w' : World} {e : GoError}
    (h : request serve w = .raised e w') :
    (∃ v, serve v = .raised e w') ∨ ∃ why : Failure, e = why.error := by
  unfold request at h
  split at h
  · exact .inl ⟨_, h⟩
  · exact .inl ⟨_, h⟩
  · exact .inl ⟨_, h⟩
  · cases h
    exact .inr ⟨_, rfl⟩
  · cases h
    exact .inr ⟨_, rfl⟩

/-- A request that only reads answers what there is to read. -/
theorem request_observe_ok_inv {α : Type} {f : World → α} {w w' : World} {a : α}
    (hf : ∀ faults, f { w with faults := faults } = f w)
    (h : request (observe f) w = .ok a w') : a = f w := by
  unfold request at h
  split at h <;> cases h
  · rfl
  · exact hf _
  · exact hf _

/-- What is found under a name has that name. -/
theorem clientGet_yields (k : Kind) (n : String) : Yields (fun o => k.name o = n) (clientGet k n) :=
  request_yields fun w o w' h => by
    rcases hn : w.get? k n with - | found <;> rw [hn] at h <;> cases h
    exact Store.name_of_get? hn

/-- An update keeps the name. -/
theorem clientUpdate_yields (k : Kind) (o : k.Object) :
    Yields (fun stored => k.name stored = k.name o) (clientUpdate k o) :=
  request_yields fun w stored w' h => by
    rcases hn : w.get? k (k.name o) with - | found <;> simp only [hn] at h
    · cases h
    · split at h <;> cases h
      · exact Store.name_of_get? hn
      · exact name_accept k _ o

/-! ### Triples for requests -/

section Triples

variable {α : Type} {P : World → Prop} {Q : α → World → Prop} {E : World → Prop}

/-- The predicate speaks about nothing but what frames protect. -/
def Stable (P : World → Prop) : Prop := ∀ w w', Touches ∅ w w' → P w → P w'

/-- If the predicate held before, it holds afterwards. -/
def Keeps (P : World → Prop) (w w' : World) : Prop := P w → P w'

instance : Std.Refl (Keeps P) where
  refl _ h := h

instance : IsTrans World (Keeps P) where
  trans _ _ _ h h' hw := h' (h hw)

/-- An invariant as a triple, and as a relation between the worlds before and after. -/
theorem keeps_of_triple {m : Op α} (h : Triple P m (fun _ => P) fun _ => P) :
    Within (Keeps P) m := by
  intro w hw
  rcases hm : m w with ⟨a, w'⟩ | ⟨e, w'⟩
  · exact h.ok hw hm
  · exact h.raised hw hm

theorem triple_of_keeps {m : Op α} (h : Within (Keeps P) m) :
    Triple P m (fun _ => P) fun _ => P :=
  h.triple fun _ _ hw hkeeps => hkeeps hw

/-- Whether the answer of a request arrives or not, the request has been served or not. -/
theorem request_triple_of_faults {serve : Op α}
    (hP : ∀ w faults, faults <:+ w.faults → P w → P { w with faults := faults })
    (h : Triple P serve Q fun _ => E) (hPE : ∀ w, P w → E w) (hQE : ∀ a w, Q a w → E w) :
    Triple P (request serve) Q fun _ => E := by
  intro w hw
  unfold request
  rcases hf : w.faults with - | ⟨fault, faults⟩
  · exact h w hw
  · have hstep : P { w with faults := faults } := hP w _ (hf ▸ List.suffix_cons fault faults) hw
    rcases fault with - | why | why | -
    · exact h _ hstep
    · exact hPE _ hstep
    · show E (serve { w with faults := faults }).next
      rcases hs : serve { w with faults := faults } with ⟨a, t⟩ | ⟨e, t⟩
      · exact hQE a t (h.ok hstep hs)
      · exact h.raised hstep hs
    · exact h _ hstep

/-- An answer that lacks something ends a request that was served. -/
theorem replied_triple {p : Panic} {m : Op α} (h : Triple P m Q fun _ => E)
    (hQE : ∀ a w, Q a w → E w) : Triple P (replied p m) Q fun _ => E := by
  refine Triple.bind (triple_observe (Q := fun _ => P) fun w hw => hw) fun hollow =>
    h.bind fun reply => ?_
  cases hollow with
  | true => exact triple_raise fun w hw => hQE reply w hw
  | false => exact triple_pure fun w hw => hw

/-- The rule for a request: a refused one changes nothing that a stable condition speaks about, and
a lost answer comes after the request was served. -/
theorem request_triple {serve : Op α} (hP : Stable P) (h : Triple P serve Q fun _ => E)
    (hPE : ∀ w, P w → E w) (hQE : ∀ a w, Q a w → E w) :
    Triple P (request serve) Q fun _ => E :=
  request_triple_of_faults (fun w _ hfaults => hP _ _ (touches_faults w hfaults)) h hPE hQE

/-- What is got is what is stored. -/
theorem clientGet_triple (hP : Stable P) (k : Kind) (n : String) :
    Triple P (clientGet k n) (fun o w => P w ∧ w.get? k n = some o) (fun _ => P) := by
  refine request_triple hP (fun w hw => ?_) (fun _ hw => hw) fun _ _ hw => hw.1
  rcases hn : w.get? k n with - | o
  · exact hw
  · exact ⟨hw, hn⟩

/-- A request that fails does not look like an object that is missing. -/
theorem Failure.isNotFound_error (why : Failure) : why.error.isNotFound = false := by
  cases why <;> rfl

/-- An answer that there is no such object is true. -/
theorem clientGet_notFound {k : Kind} {n : String} {w w' : World} {e : GoError}
    (h : clientGet k n w = .raised e w') (he : e.isNotFound = true) : w'.get? k n = none := by
  rcases request_raised_inv h with ⟨v, hv⟩ | ⟨why, rfl⟩
  · rcases hn : v.get? k n with - | o <;> rw [hn] at hv <;> cases hv
    exact hn
  · rw [Failure.isNotFound_error] at he
    cases he

/-- A creation that returns has stored the object where there was none. -/
theorem clientCreate_triple {k : Kind} {o : k.Object} {Q : k.Object → World → Prop} (hP : Stable P)
    (hstore : ∀ w, P w → w.get? k (k.name o) = none → Q (k.accept (w.version + 1) o) (w.store k o))
    (hPE : ∀ w, P w → E w) (hQE : ∀ a w, Q a w → E w) :
    Triple P (clientCreate k o) Q fun _ => E := by
  refine request_triple hP (fun w hw => ?_) hPE hQE
  rcases hn : w.get? k (k.name o) with - | found
  · exact hstore w hw hn
  · exact hPE w hw

/-- An update that returns has found the same content, and stored nothing, or it has stored the
object. -/
theorem clientUpdate_triple {k : Kind} {o : k.Object} {Q : k.Object → World → Prop} (hP : Stable P)
    (hsame : ∀ w found, P w → w.get? k (k.name o) = some found →
      k.accept (k.metadata found).resourceVersion o = found → Q found w)
    (hstore : ∀ w found, P w → w.get? k (k.name o) = some found →
      Q (k.accept (w.version + 1) o) (w.store k o))
    (hPE : ∀ w, P w → E w) (hQE : ∀ a w, Q a w → E w) :
    Triple P (clientUpdate k o) Q fun _ => E := by
  refine request_triple hP (fun w hw => ?_) hPE hQE
  rcases hn : w.get? k (k.name o) with - | found
  · exact hPE w hw
  · by_cases hsame' : k.accept (k.metadata found).resourceVersion o = found
    · simp only [hsame', if_true]
      exact hsame w found hw hn hsame'
    · simp only [hsame', if_false]
      exact hstore w found hw hn

/-- What an update that returned has stored. -/
theorem clientUpdate_stores (k : Kind) (o : k.Object) :
    Triple (fun _ => True) (clientUpdate k o)
      (fun stored w => w.get? k (k.name o) = some stored ∧ ∃ v, stored = k.accept v o)
      fun _ _ => True :=
  clientUpdate_triple (fun _ _ _ _ => trivial) (fun _ _ _ hn hsame => ⟨hn, _, hsame.symm⟩)
    (fun w _ _ _ => ⟨w.get?_store_self k o, _, rfl⟩) (fun _ _ => trivial) fun _ _ _ => trivial

/-- What a creation that returned has stored. -/
theorem clientCreate_stores (k : Kind) (o : k.Object) :
    Triple (fun _ => True) (clientCreate k o)
      (fun stored w => w.get? k (k.name o) = some stored ∧ ∃ v, stored = k.accept v o)
      fun _ _ => True :=
  clientCreate_triple (fun _ _ _ _ => trivial) (fun w _ _ => ⟨w.get?_store_self k o, _, rfl⟩)
    (fun _ _ => trivial) fun _ _ _ => trivial

/-- Retries start again from the precondition. -/
theorem retryOnConflict_triple {m : Op α} (h : Triple P m Q fun _ => P) (retries : ℕ) :
    Triple P (retryOnConflict retries m) Q fun _ => P := by
  induction retries with
  | zero => exact h
  | succ retries ih =>
    refine h.recover (fun e k hk => ?_) fun _ _ _ hw => hw
    split at hk <;> cases hk
    exact ih

end Triples

/-! ## The shared procedures -/

/-- Look an object up, with nil for one that is missing. -/
theorem findObject_touches (k : Kind) (n : String) :
    Within (Touches T) ((some <$> clientGet k n).recover fun e =>
      if e.isNotFound then some (pure none) else none) :=
  ((clientGet_touches k n).map some).recover_if fun _ => within_pure none

/-- A look-up that may fail to find: what is found has the name. -/
theorem findObject_yields (k : Kind) (n : String) :
    Yields (fun found => ∀ o ∈ found, k.name o = n) ((some <$> clientGet k n).recover fun e =>
      if e.isNotFound then some (pure none) else none) :=
  ((clientGet_yields k n).map (by rintro o rfl _ ⟨⟩; rfl)).recover_if fun _ =>
    yields_pure (by rintro _ ⟨⟩)

/-- It finds what is stored, and nothing where nothing is. -/
theorem findObject_triple {P : World → Prop} (hP : Stable P) (k : Kind) (n : String) :
    Triple P ((some <$> clientGet k n).recover fun e =>
      if e.isNotFound then some (pure none) else none)
      (fun found w => P w ∧ w.get? k n = found) fun _ => P := by
  intro w hw
  have hget := clientGet_triple hP k n
  rcases h : clientGet k n w with ⟨o, w'⟩ | ⟨e, w'⟩
  · have hmap : (some <$> clientGet k n) w = .ok (some o) w' := bind_ok h
    rw [recover_ok hmap]
    exact hget.ok hw h
  · have hmap : (some <$> clientGet k n) w = .raised e w' := bind_raised h
    by_cases he : e.isNotFound = true
    · rw [recover_handled hmap (if_pos he)]
      exact ⟨hget.raised hw h, clientGet_notFound h he⟩
    · rw [recover_unhandled hmap (if_neg he)]
      exact hget.raised hw h

/-- The writing procedures, each with the one object it writes. -/
theorem createOrUpdateService_touches {service : Service}
    (h : Writes T .service service.metadata.name) :
    Within (Touches T) (createOrUpdateService service) := by
  refine (findObject_touches .service _).bind fun found => ?_
  rcases found with - | found
  · exact (clientCreate_touches rfl h).discard
  · refine (clientUpdate_touches ?_ h).discard
    split <;> rfl

theorem createServiceAccount_touches {account : ServiceAccount}
    (h : Writes T .serviceAccount account.metadata.name) :
    Within (Touches T) (createServiceAccount account) :=
  (clientGet_touches _ _).discard.recover_if fun _ => (clientCreate_touches rfl h).discard

/-- A claim is updated under the name of the claim that was found. -/
theorem updatePersistentVolumeClaim_touches {found : PersistentVolumeClaim}
    (claim : PersistentVolumeClaim) (h : Writes T .persistentVolumeClaim found.metadata.name) :
    Within (Touches T) (updatePersistentVolumeClaim found claim) := by
  refine (within_observe _).bind fun previous => ?_
  refine Within.whenever ((build_touches _).bind fun annotations => ?_)
  exact Within.discard (clientUpdate_touches rfl h)

theorem noteClaim_touches (name : String) (h : .claimed ∈ T) :
    Within (Touches T) (noteClaim name) := by
  refine fun w => ⟨fun f hf => ?_, { Evolves.refl w with }⟩
  cases f with
  | claimed => exact (hf h).elim
  | storedAnnotations => exact ⟨rfl, .inl rfl⟩
  | conditions => exact ⟨⟨rfl, .inl rfl⟩, rfl⟩
  | _ => rfl

/-- The claim is on record as visited, whether or not it is written. -/
theorem createPersistentVolumeClaim_touches {claim : PersistentVolumeClaim}
    (h : Writes T .persistentVolumeClaim claim.metadata.name) (hclaimed : .claimed ∈ T) :
    Within (Touches T) (createPersistentVolumeClaim claim) := by
  refine (findObject_touches .persistentVolumeClaim _).bind_yields
    (findObject_yields .persistentVolumeClaim _) fun found hfound => ?_
  rcases found with - | found
  · exact Within.bind (clientCreate_touches rfl h) fun _ => noteClaim_touches _ hclaimed
  · have hname : found.metadata.name = claim.metadata.name := hfound found rfl
    exact (noteClaim_touches _ hclaimed).bind fun _ =>
      updatePersistentVolumeClaim_touches claim (hname ▸ h)

/-- Making the claim of the snapshots is reading only. -/
theorem processSnapshotsPersistentVolumeClaim_touches (storage : SnapshotStorage)
    (cr : ZooKeeperService) :
    Within (Touches T) (processSnapshotsPersistentVolumeClaim storage cr) := by
  unfold processSnapshotsPersistentVolumeClaim
  generalize (if storage.persistentVolumeClaimName = "" then _ else _) = name
  refine (build_touches _).bind fun global => ?_
  dsimp only
  repeat' split
  · exact build_touches _
  · exact (clientGet_touches _ _).map _
  · exact within_raise _
  · exact (build_touches _).map _
  · exact (build_touches _).map _
  · exact within_pure _

/-- A Deployment is created or updated by a single write, if at all. -/
theorem createOrUpdateDeployment_within {R : World → World → Prop} [Std.Refl R] [IsTrans World R]
    {deployment : Deployment} (hR : ∀ w w', Touches ∅ w w' → R w w')
    (h : ∀ w, R w (w.store .deployment deployment)) :
    Within R (createOrUpdateDeployment deployment) := by
  refine ((findObject_touches .deployment _).mono hR).bind fun found => ?_
  rcases found with - | found
  · exact (clientCreate_within hR h).discard
  · exact retryOnConflict_within (((clientGet_touches _ _).mono hR).bind fun _ =>
      (clientUpdate_within hR h).discard) _

theorem createOrUpdateDeployment_touches {deployment : Deployment}
    (h : Writes T .deployment deployment.metadata.name) :
    Within (Touches T) (createOrUpdateDeployment deployment) :=
  createOrUpdateDeployment_within (fun _ _ hw => hw.of_empty) fun w => touches_store w h

/-- Scaling writes the Deployment that was found, with other replicas. -/
theorem scaleDeployment_touches {name : String} (replicas : ℤ) (h : Writes T .deployment name) :
    Within (Touches T) (scaleDeployment name replicas) := by
  refine retryOnConflict_within ((clientGet_touches _ _).bind_yields (clientGet_yields _ _)
    fun found hfound => ?_) _
  exact Within.discard (clientUpdate_touches hfound h)

theorem isDeploymentReady_touches (name : String) : Within (Touches T) (isDeploymentReady name) :=
  ((clientGet_touches _ _).bind fun _ => (within_observe _).bind fun _ =>
    within_pure _).recover_unless
    fun _ => within_pure _

theorem updateSecret_touches {secret : Secret} (h : Writes T .secret secret.metadata.name) :
    Within (Touches T) (updateSecret secret) :=
  (clientGet_touches _ _).bind fun _ => clientUpdate_touches rfl h

/-- An owner does not change the name of its object. -/
theorem name_setControllerReference {cr : ZooKeeperService} {m m' : ObjectMeta}
    (h : setControllerReference cr m = .ok m') : m'.name = m.name := by
  unfold setControllerReference at h
  split at h
  · split at h <;> cases h
    rfl
  · cases h
    rfl

/-- Watching a Secret writes it when its owner changes. -/
theorem watchSecret_touches {secretName : String} (cr : ZooKeeperService)
    (h : Writes T .secret secretName) : Within (Touches T) (watchSecret secretName cr) := by
  refine (clientGet_touches _ _).bind_yields (clientGet_yields _ _) fun secret hsecret => ?_
  refine (within_lift _).bind_yields (yields_lift fun m hm => name_setControllerReference hm)
    fun m hm => updateSecret_touches ?_
  have hname : m.name = secretName := hm.trans hsecret
  exact hname ▸ h

/-- The Secret has the name that was asked for. -/
theorem watchSecret_yields (secretName : String) (cr : ZooKeeperService) :
    Yields (fun secret => secret.metadata.name = secretName) (watchSecret secretName cr) := by
  refine (clientGet_yields .secret secretName).bind fun secret hsecret => ?_
  refine (yields_lift fun m hm => name_setControllerReference hm).bind fun m hm => ?_
  refine yields_of_last fun _ => ?_
  intro w stored w' hw
  exact (clientUpdate_yields .secret _ w stored w' hw).trans (hm.trans hsecret)

/-- Marks are written to the one Deployment. -/
theorem updateDeploymentSecretRestartAnnotations_touches {name : String}
    (secrets : List (Option Secret)) (h : Writes T .deployment name) :
    Within (Touches T) (updateDeploymentSecretRestartAnnotations name secrets) := by
  refine retryOnConflict_within ?_ _
  refine (findObject_touches .deployment _).bind_yields (findObject_yields .deployment _)
    fun found hfound => ?_
  rcases found with - | found
  · exact within_pure ()
  · exact Within.whenever (Within.discard (clientUpdate_touches (hfound found rfl) h))

/-- Marking a Deployment for restarts is an update of what was found. -/
theorem updateDeploymentSecretRestartAnnotations_keeps {P : World → Prop} (hP : Stable P)
    {name : String} {secrets : List (Option Secret)}
    (h : ∀ w d, P w → w.get? .deployment name = some d →
      P (w.store .deployment (applyAutoRestartSecretAnnotations d secrets).1)) :
    Within (Keeps P) (updateDeploymentSecretRestartAnnotations name secrets) := by
  refine retryOnConflict_within (keeps_of_triple ?_) _
  refine (findObject_triple hP .deployment name).bind fun found => ?_
  rcases found with - | d
  · exact triple_pure fun _ hw => hw.1
  · refine Triple.whenever (fun _ => ?_) fun _ _ hw => hw.1
    refine Triple.bind (Q := fun _ => P) ?_ fun _ => triple_pure fun _ hw => hw
    refine clientUpdate_triple (fun w w' ht hw => ?_) (fun _ _ hw _ _ => hw.1)
      (fun w _ hw _ => h w d hw.1 hw.2) (fun _ hw => hw.1) fun _ _ hw => hw
    exact ⟨hP w w' ht hw.1, (ht.get? (Set.notMem_empty _)).trans hw.2⟩

/-- Other conditions, and nothing else. -/
theorem touches_conditions (w : World) (conditions : List StatusCondition) (h : .conditions ∈ T) :
    Touches T w { w with status := { w.status with conditions := conditions } } := by
  refine touches_background w _ _ _ _ _ _ fun f hf hne => ?_
  rcases hf with rfl | rfl | rfl | rfl
  · rfl
  · rfl
  · exact ⟨rfl, .inl rfl⟩
  · exact absurd h hne

/-- Conditions are kept in the status of the instance, and stored with it. -/
theorem updateConditions_touches (condition : StatusCondition) (h : .conditions ∈ T) :
    Within (Touches T) (updateConditions condition) :=
  now_touches.bind fun _ => Within.bind (fun w => touches_conditions w _ h) fun _ =>
    statusUpdate_touches

theorem writeFailedStatus_touches (errorMessage : String) (h : .conditions ∈ T) :
    Within (Touches T) (writeFailedStatus errorMessage) :=
  (updateConditions_touches _ h).recover_unless fun _ => within_pure ()

end QubershipZookeeper.Operator
