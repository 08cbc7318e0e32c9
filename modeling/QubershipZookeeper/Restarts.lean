import QubershipZookeeper.Servers

/-!
# Marks for restarts

A Secret with the annotation `auto-restart` asks that pods are restarted when it changes. The
operator writes the version of the Secret into the pod template, as a **mark**; a Deployment that
has the marks of all Secrets at hand is left alone.
-/

namespace QubershipZookeeper.Operator

open Proc

/-! ## Marks -/

/-- The Secret asks for restarts. -/
def AsksRestart (s : Secret) : Prop :=
  s.metadata.name ≠ "" ∧ (s.metadata.annotations.getD ∅).get autoRestartAnnotation = "true"

instance (s : Secret) : Decidable (AsksRestart s) := inferInstanceAs (Decidable (_ ∧ _))

/-- A pod template has the mark of a Secret, if the Secret asks for it. -/
def Marked (annotations : Option StringMap) (s : Secret) : Prop :=
  AsksRestart s → (annotations.getD ∅).get (resourceVersionAnnotationTemplate s.metadata.name) =
    toString s.metadata.resourceVersion

/-- A Secret that asks for no restarts leaves no mark. -/
theorem applyAutoRestart_of_not_asks {s : Secret} (h : ¬ AsksRestart s)
    (state : Option StringMap × Bool) : applyAutoRestart state (some s) = state := by
  unfold applyAutoRestart
  dsimp only
  split
  next => rfl
  next hname =>
    split
    next => rfl
    next hasks => exact absurd ⟨hname, not_not.mp hasks⟩ h

/-- One that does leaves its version, unless it is there already. -/
theorem applyAutoRestart_of_asks {s : Secret} (h : AsksRestart s)
    (state : Option StringMap × Bool) :
    applyAutoRestart state (some s) =
      if (state.1.getD ∅).get (resourceVersionAnnotationTemplate s.metadata.name) =
          toString s.metadata.resourceVersion then (some (state.1.getD ∅), state.2)
      else (some ((state.1.getD ∅).insert (resourceVersionAnnotationTemplate s.metadata.name)
        (toString s.metadata.resourceVersion)), true) := by
  unfold applyAutoRestart
  dsimp only
  rw [if_neg h.1, if_neg (not_not.mpr h.2)]

/-- A round that finds the mark changes nothing. -/
theorem applyAutoRestart_of_marked {s : Secret} {state : Option StringMap × Bool}
    (h : Marked state.1 s) : ((applyAutoRestart state (some s)).1.getD ∅ = state.1.getD ∅) ∧
      (applyAutoRestart state (some s)).2 = state.2 := by
  by_cases hasks : AsksRestart s
  · rw [applyAutoRestart_of_asks hasks, if_pos (h hasks)]
    exact ⟨rfl, rfl⟩
  · rw [applyAutoRestart_of_not_asks hasks]
    exact ⟨rfl, rfl⟩

/-- After a round the mark is there. -/
theorem marked_applyAutoRestart (s : Secret) (state : Option StringMap × Bool) :
    Marked (applyAutoRestart state (some s)).1 s := by
  intro hasks
  rw [applyAutoRestart_of_asks hasks]
  split
  next hmark => exact hmark
  next => simp [StringMap.get, Finmap.lookup_insert]

/-- Different Secrets have different marks. -/
theorem resourceVersionAnnotationTemplate_injective :
    Function.Injective resourceVersionAnnotationTemplate :=
  fun _ _ h => (String.append_left_inj _).mp h

/-- A round leaves the marks of Secrets with other names alone. -/
theorem Marked.applyAutoRestart {s s' : Secret} {state : Option StringMap × Bool}
    (h : Marked state.1 s') (hname : s'.metadata.name ≠ s.metadata.name) :
    Marked (applyAutoRestart state (some s)).1 s' := by
  by_cases hasks : AsksRestart s
  · rw [applyAutoRestart_of_asks hasks]
    split
    · exact h
    · intro hasks'
      have hother : resourceVersionAnnotationTemplate s'.metadata.name ≠
          resourceVersionAnnotationTemplate s.metadata.name :=
        fun heq => hname (resourceVersionAnnotationTemplate_injective heq)
      rw [Option.getD_some, StringMap.get, Finmap.lookup_insert_of_ne _ hother]
      exact h hasks'
  · rw [applyAutoRestart_of_not_asks hasks]
    exact h

/-- A round that reports no change has made none. -/
theorem applyAutoRestart_not_modified {secret : Option Secret} {state : Option StringMap × Bool}
    (h : (applyAutoRestart state secret).2 = false) :
    (applyAutoRestart state secret).1.getD ∅ = state.1.getD ∅ ∧ state.2 = false := by
  cases secret with
  | none => exact ⟨rfl, h⟩
  | some s =>
    by_cases hasks : AsksRestart s
    · rw [applyAutoRestart_of_asks hasks] at h ⊢
      split at h
      next hmark =>
        rw [if_pos hmark]
        exact ⟨rfl, h⟩
      next => cases h
    · rw [applyAutoRestart_of_not_asks hasks] at h ⊢
      exact ⟨rfl, h⟩

/-! ## All rounds -/

section Rounds

variable {secrets : List (Option Secret)} {state : Option StringMap × Bool}

/-- If nothing was modified, all annotations are as before. -/
theorem foldl_applyAutoRestart_not_modified
    (h : (secrets.foldl applyAutoRestart state).2 = false) :
    (secrets.foldl applyAutoRestart state).1.getD ∅ = state.1.getD ∅ ∧ state.2 = false := by
  induction secrets generalizing state with
  | nil => exact ⟨rfl, h⟩
  | cons secret secrets ih =>
    obtain ⟨hrest, hflag⟩ := ih h
    obtain ⟨hfirst, hflag'⟩ := applyAutoRestart_not_modified hflag
    exact ⟨hrest.trans hfirst, hflag'⟩

/-- Where all marks are there, nothing is modified. -/
theorem foldl_applyAutoRestart_of_marked
    (h : ∀ s, some s ∈ secrets → Marked state.1 s) :
    (secrets.foldl applyAutoRestart state).2 = state.2 := by
  induction secrets generalizing state with
  | nil => rfl
  | cons secret secrets ih =>
    cases secret with
    | none => exact ih fun s hs => h s (List.mem_cons_of_mem _ hs)
    | some s =>
      obtain ⟨hsame, hflag⟩ := applyAutoRestart_of_marked (h s (List.mem_cons_self ..))
      refine (ih fun s' hs' => ?_).trans hflag
      unfold Marked
      rw [hsame]
      exact h s' (List.mem_cons_of_mem _ hs')

/-- No two of the Secrets have the same name. -/
def DistinctNames (secrets : List (Option Secret)) : Prop :=
  secrets.Pairwise fun a b => ∀ s ∈ a, ∀ s' ∈ b, AsksRestart s' → s.metadata.name ≠ s'.metadata.name

/-- A mark survives the rounds of Secrets with other names. -/
theorem Marked.foldl {s : Secret} (h : Marked state.1 s)
    (hnames : ∀ s', some s' ∈ secrets → AsksRestart s' → s.metadata.name ≠ s'.metadata.name) :
    Marked (secrets.foldl Operator.applyAutoRestart state).1 s := by
  induction secrets generalizing state with
  | nil => exact h
  | cons secret secrets ih =>
    refine ih ?_ fun s' hs' => hnames s' (List.mem_cons_of_mem _ hs')
    cases secret with
    | none => exact h
    | some s' =>
      by_cases hasks : AsksRestart s'
      · exact h.applyAutoRestart (hnames s' (List.mem_cons_self ..) hasks)
      · rw [applyAutoRestart_of_not_asks hasks]
        exact h

/-- After all rounds all marks are there. -/
theorem marked_foldl (hdistinct : DistinctNames secrets) {s : Secret} (hs : some s ∈ secrets) :
    Marked (secrets.foldl applyAutoRestart state).1 s := by
  induction secrets generalizing state with
  | nil => cases hs
  | cons secret secrets ih =>
    obtain ⟨hfirst, hrest⟩ := List.pairwise_cons.mp hdistinct
    rcases List.mem_cons.mp hs with rfl | hs
    · exact (marked_applyAutoRestart s state).foldl fun s' hs' => hfirst _ hs' s rfl s' rfl
    · exact ih hrest hs

end Rounds

/-! ## The step that marks a Deployment -/

/-- The stored Deployment, if there is one, has the marks of the Secrets. -/
def MarkedAt (name : String) (secrets : List (Option Secret)) (w : World) : Prop :=
  ∀ d, w.get? .deployment name = some d → ∀ s, some s ∈ secrets → Marked d.templateAnnotations s

theorem MarkedAt.of_touches {T : Set Field} {name : String} {secrets : List (Option Secret)}
    {w w' : World} (h : MarkedAt name secrets w) (ht : Touches T w w')
    (hT : .object .deployment name ∉ T) : MarkedAt name secrets w' := by
  intro d hd
  rw [ht.get? hT] at hd
  exact h d hd

/-- After the update the Deployment has the marks of all Secrets. -/
theorem updateDeploymentSecretRestartAnnotations_marks (name : String)
    {secrets : List (Option Secret)} (hdistinct : DistinctNames secrets) :
    Triple (fun _ => True) (updateDeploymentSecretRestartAnnotations name secrets)
      (fun _ => MarkedAt name secrets) fun _ _ => True := by
  refine (retryOnConflict_triple (P := fun _ => True) ?_ _).conseq (fun _ h => h) (fun _ _ h => h)
    fun _ _ h => h
  refine (findObject_triple (fun _ _ _ _ => trivial) .deployment name).bind fun found => ?_
  rcases found with - | d
  · refine triple_pure fun w hw d hd => ?_
    cases hw.2.symm.trans hd
  · have hmarked : ∀ s, some s ∈ secrets →
        Marked (applyAutoRestartSecretAnnotations d secrets).1.templateAnnotations s :=
      fun s hs => marked_foldl hdistinct hs
    refine Triple.whenever (fun _ => ?_) fun hsame w hw d' hd' s hs => ?_
    · refine Triple.bind (Q := fun _ => MarkedAt name secrets) (fun w hw => ?_)
        fun _ => triple_pure fun _ h => h
      have hname : d.metadata.name = name := Store.name_of_get? hw.2
      have hstores :=
        clientUpdate_stores .deployment (applyAutoRestartSecretAnnotations d secrets).1
        w trivial
      rcases hrun : clientUpdate .deployment (applyAutoRestartSecretAnnotations d secrets).1 w with
        ⟨stored, t⟩ | ⟨e, t⟩
      · rw [hrun] at hstores
        obtain ⟨hget, v, rfl⟩ := hstores
        intro d' hd' s hs
        have hsame : t.get? .deployment name = some (Kind.accept .deployment v
            (applyAutoRestartSecretAnnotations d secrets).1) := by
          rw [← hname]
          exact hget
        obtain rfl := Option.some.inj (hsame.symm.trans hd')
        exact hmarked s hs
      · trivial
    · -- nothing was to be written, so the marks were there
      obtain rfl := Option.some.inj (hw.2.symm.trans hd')
      have hkept := (foldl_applyAutoRestart_not_modified hsame).1
      have hmark := hmarked s hs
      unfold Marked at hmark ⊢
      rw [show (applyAutoRestartSecretAnnotations d secrets).1.templateAnnotations.getD ∅ =
        d.templateAnnotations.getD ∅ from hkept] at hmark
      exact hmark

/-- A Deployment that has the marks is left alone. -/
theorem updateDeploymentSecretRestartAnnotations_idle {P : World → Prop} (hP : Stable P)
    {name : String} {secrets : List (Option Secret)} (h : ∀ w, P w → MarkedAt name secrets w) :
    Triple P (updateDeploymentSecretRestartAnnotations name secrets) (fun _ => P) fun _ => P := by
  refine retryOnConflict_triple ?_ _
  refine (findObject_triple hP .deployment name).bind fun found => ?_
  rcases found with - | d
  · exact triple_pure fun _ hw => hw.1
  · intro w hw
    have hsame : (applyAutoRestartSecretAnnotations d secrets).2 = false :=
      foldl_applyAutoRestart_of_marked fun s hs => h w hw.1 d hw.2 s hs
    dsimp only
    rw [hsame]
    exact hw.1

namespace ZooKeeperResourceProvider

variable (p : ZooKeeperResourceProvider)

theorem distinctNames_singleton (s : Secret) : DistinctNames [some s] := List.pairwise_singleton _ _

/-- After the marking all servers have the mark. -/
theorem markRestarts_marks (secret : Secret) :
    Triple (fun _ => True) (p.markRestarts secret)
      (fun _ w => ∀ i ∈ p.serverIds, MarkedAt (serverName p.cr.name i) [some secret] w)
      fun _ _ => True := by
  refine (forEach_triple (I := fun done w =>
    ∀ i ∈ done, MarkedAt (serverName p.cr.name i) [some secret] w) fun done i rest _ => ?_).conseq
    (fun _ _ i hi => absurd hi List.not_mem_nil) (fun _ _ h => h) fun _ _ h => h
  have htouch := updateDeploymentSecretRestartAnnotations_touches [some secret]
    (writes_deployment (serverName p.cr.name i))
  intro w hw
  have hmarks := updateDeploymentSecretRestartAnnotations_marks (serverName p.cr.name i)
    (distinctNames_singleton secret) w trivial
  rcases hrun : updateDeploymentSecretRestartAnnotations (serverName p.cr.name i)
    [some secret] w with
    ⟨u, t⟩ | ⟨e, t⟩
  · rw [hrun] at hmarks
    intro j hj
    by_cases hij : j = i
    · subst hij
      exact hmarks
    · have hdone : j ∈ done := (List.mem_append.mp hj).resolve_right fun h =>
        hij (List.mem_singleton.mp h)
      refine (hw j hdone).of_touches (htouch.ok hrun) ?_
      simpa using fun h => hij (serverName_injective _ h)
  · trivial

/-- Where the marks are there, the marking writes nothing. -/
theorem markRestarts_idle {P : World → Prop} (hP : Stable P) {secret : Secret}
    (h : ∀ w, P w → ∀ i ∈ p.serverIds, MarkedAt (serverName p.cr.name i) [some secret] w) :
    Triple P (p.markRestarts secret) (fun _ => P) fun _ => P := by
  refine forEach_triple (I := fun _ => P) fun done i rest hlist =>
    updateDeploymentSecretRestartAnnotations_idle hP fun w hw => h w hw i ?_
  rw [hlist]
  exact List.mem_append_right _ (List.mem_cons_self ..)

end ZooKeeperResourceProvider

end QubershipZookeeper.Operator
