import QubershipZookeeper.HashGate

/-!
# Failures in the status

`Reconcile` writes a condition of the type `Failed` into the status of the custom resource when
a step fails, in **every** call. It forgets the conditions only in a call for a specification
whose hash is not the remembered one, and the hash is remembered by calls that return nil.

So a failure that was overcome is forgotten, unless the failed call was one that had nothing
new to process, or the specification was set back afterwards: the call that succeeds
then leaves the conditions as they are. `Conditions.alwaysReports_of_careful` shows that there is
no other way for a failure to stay.
-/

namespace QubershipZookeeper.Operator

open Proc

/-! ## Conditions -/

/-- A condition that is found after an addition is the added one, or was there before. -/
theorem any_addCondition {f : StatusCondition → Bool} {conditions : List StatusCondition}
    {condition : StatusCondition} (h : (addCondition conditions condition).any f = true) :
    f condition = true ∨ conditions.any f = true := by
  induction conditions with
  | nil => exact .inl (by simpa [addCondition] using h)
  | cons current conditions ih =>
    rw [List.any_cons, Bool.or_eq_true]
    rw [addCondition] at h
    split at h
    · split at h
      · rw [List.any_cons, Bool.or_eq_true] at h
        exact h.imp_right .inr
      · rw [List.any_cons, Bool.or_eq_true] at h
        exact .inr h
    · rw [List.any_cons, Bool.or_eq_true] at h
      rcases h with h | h
      · exact .inr (.inl h)
      · exact (ih h).imp_right .inr

/-- A condition of the type `Failed` stands for a check that has timed out. -/
def Justified (w : World) : Prop := hasFailedConditions w.status = true → w.timedOut ≠ []

/-- What the conditions say stays justified while they are not touched. -/
theorem justified_of_touches {T : Set Field} {w w' : World} (h : Justified w)
    (ht : Touches T w w') (hT : .conditions ∉ T) : Justified w' := by
  obtain ⟨⟨hconditions, -⟩, htimedOut⟩ := ht.same .conditions hT
  unfold Justified hasFailedConditions
  rw [hconditions, htimedOut]
  exact h

/-- A step that leaves the conditions alone. -/
theorem justified_triple {α : Type} {T : Set Field} {m : Op α} (hT : .conditions ∉ T)
    (h : Within (Touches T) m) : Triple Justified m (fun _ => Justified) fun _ _ => True :=
  (h.triple fun _ _ hw ht => justified_of_touches hw ht hT).conseq (fun _ h => h) (fun _ _ h => h)
    fun _ _ _ => trivial

/-- An update that returns has stored the status. -/
theorem statusUpdate_stores : Triple (fun _ => True) statusUpdate
    (fun _ w => w.storedStatus = w.status) fun _ _ => True := by
  refine request_triple (fun _ _ _ _ => trivial) (fun w _ => ?_) (fun _ _ => trivial)
    fun _ _ _ => trivial
  rcases w.cr with - | cr
  · trivial
  · rfl

/-- A condition that is reported is justified if it is not about a failure, or if a check has
timed out; and then it is stored. -/
theorem updateConditions_justified {condition : StatusCondition} {P : World → Prop}
    (hP : ∀ w, P w → Justified w ∧ (condition.type = "Failed" → w.timedOut ≠ [])) :
    Triple P (updateConditions condition)
      (fun _ w => Justified w ∧ w.storedStatus = w.status) fun _ _ => True := by
  refine Triple.bind (Q := fun _ w => Justified w ∧ (condition.type = "Failed" → w.timedOut ≠ []))
    (fun w hw => ?_) fun time => ?_
  · exact hP w hw
  refine Triple.bind (Q := fun _ => Justified) (triple_update fun w hw hfailed => ?_) fun _ => ?_
  · rcases any_addCondition hfailed with hnew | hold
    · exact hw.2 (of_decide_eq_true hnew)
    · exact hw.1 hold
  · exact ((justified_triple (Set.notMem_empty _) statusUpdate_touches).and
      statusUpdate_stores).conseq (fun _ h => ⟨h, trivial⟩) (fun _ _ h => h) fun _ _ _ => trivial

/-- A condition that is no failure needs no justification. -/
theorem updateConditions_progress {condition : StatusCondition}
    (htype : condition.type ≠ "Failed") :
    Triple Justified (updateConditions condition) (fun _ => Justified) fun _ _ => True :=
  (updateConditions_justified fun _ hw => ⟨hw, fun h => absurd h htype⟩).conseq (fun _ h => h)
    (fun _ _ h => h.1) fun _ _ h => h

/-- An error that is reported is also returned: what a step brings about when it returns is not
concerned. -/
theorem reporting_triple {P : World → Prop} {Q : Unit → World → Prop} {m : Op Unit}
    (describe : GoError → String) (h : Triple P m Q fun _ _ => True) :
    Triple P (reporting describe m) Q fun _ _ => True := by
  refine h.recover (fun e k hk => ?_) fun _ _ _ h => h
  split at hk <;> cases hk
  exact triple_of_last fun _ => triple_raise fun _ _ => trivial

/-! ## A call for a specification that has changed -/

/-- A check that is reported as failed has timed out. -/
theorem checkStatus_justified (reason inProgress failed ready : String) (timeoutSeconds : ℤ)
    {condition : Op Bool} (hcondition : Within (Touches ∅) condition) :
    Triple Justified (checkStatus reason inProgress failed ready timeoutSeconds condition)
      (fun _ => Justified) fun _ _ => True := by
  have hpoll : Within (Touches ∅) (Proc.recover (do
      poll (tries timeoutSeconds) condition
      pure true) fun e => if e.isPanic then none else some (pure false) : Op Bool) :=
    ((poll_touches hcondition _).bind fun _ => within_pure _).recover_unless fun _ => within_pure _
  refine (updateConditions_progress (show "In progress" ≠ "Failed" by decide)).bind fun _ => ?_
  refine (justified_triple (Set.notMem_empty _) hpoll).bind fun inTime => ?_
  refine Triple.bind (Q := fun _ w => Justified w ∧ (inTime = false → w.timedOut ≠ []))
    (Triple.whenever (fun _ => triple_update fun w hw => ?_) fun htime w hw => ⟨hw, fun h => ?_⟩)
    fun _ => ?_
  · exact ⟨fun _ => List.cons_ne_nil _ _, fun _ => List.cons_ne_nil _ _⟩
  · rw [h] at htime
    cases htime
  · refine (updateConditions_justified fun w hw => ⟨hw.1, fun h => hw.2 ?_⟩).conseq (fun _ h => h)
      (fun _ _ h => h.1) fun _ _ h => h
    cases inTime with
    | true => exact absurd h (show "Ready" ≠ "Failed" by decide)
    | false => rfl

/-- A status check that ends in a failure has had its deadline pass. -/
theorem Reconciler.status_justified (global : Global) (r : Reconciler) :
    Triple Justified (r.status global) (fun _ => Justified) fun _ _ => True := by
  cases r with
  | zooKeeper p => exact checkStatus_justified _ _ _ _ _ (allReady_touches _)
  | monitoring p => exact checkStatus_justified _ _ _ _ _ (isDeploymentReady_touches _)
  | backupDaemon p => exact checkStatus_justified _ _ _ _ _ (isDeploymentReady_touches _)
  | integrationTests tests =>
    exact Triple.whenever
      (fun _ => checkStatus_justified _ _ _ _ _ (isDeploymentReady_touches _)) fun _ _ h => h

/-- The end of a cycle reports a failure only if a check has timed out. -/
theorem finishCycle_justified (cr : ZooKeeperService) :
    Triple Justified (finishCycle cr)
      (fun _ w => Justified w ∧ w.storedStatus = w.status) fun _ _ => True := by
  have hawait (global : Global) : Triple Justified (awaitComponents cr global)
      (fun _ => Justified) fun _ _ => True := by
    refine (updateConditions_progress (show "In progress" ≠ "Failed" by decide)).bind fun _ => ?_
    refine (justified_triple (Set.notMem_empty _) sleep_touches).bind fun _ => ?_
    exact forEach_triple (I := fun _ => Justified) fun _ r _ _ =>
      reporting_triple _ (r.status_justified global)
  refine Triple.bind (Q := fun _ => Justified) ?_ fun _ => ?_
  · rcases cr.spec.global with - | global
    · exact triple_pure fun _ h => h
    · exact Triple.whenever (fun _ => hawait global) fun _ _ h => h
  refine Triple.bind (Q := fun failed w => Justified w ∧ (failed = true → w.timedOut ≠ []))
    (triple_observe fun w hw => ⟨hw, hw⟩) fun failed => ?_
  refine updateConditions_justified fun w hw => ⟨hw.1, fun h => hw.2 ?_⟩
  cases failed with
  | true => rfl
  | false => exact absurd h (show "Successful" ≠ "Failed" by decide)

/-- The specification is not the one whose hash is remembered. -/
def SpecChanged (cr : ZooKeeperService) (w : World) : Prop :=
  w.resourceHashes.lookup "spec" ≠ some (.spec cr.spec)

instance (cr : ZooKeeperService) (w : World) : Decidable (SpecChanged cr w) :=
  inferInstanceAs (Decidable (_ ≠ _))

/-- A changed specification: the conditions are forgotten. -/
theorem prepare_justified (cr : ZooKeeperService) :
    Triple (SpecChanged cr) (prepare cr) (fun isChanged w => isChanged = true ∧ Justified w)
      fun _ _ => True := by
  refine Triple.bind (Q := fun _ => SpecChanged cr) (triple_update fun _ h => h) fun _ => ?_
  refine Triple.bind (Q := fun isChanged _ => isChanged = true)
    (triple_observe fun w hw => decide_eq_true hw) fun isChanged w hchanged => ?_
  subst hchanged
  have hstart : Triple (fun _ => True) startCycle (fun _ => Justified) fun _ _ => True := by
    refine Triple.bind (Q := fun _ => Justified) (triple_update fun w _ h => ?_) fun _ => ?_
    · cases h
    · exact updateConditions_progress (show "In progress" ≠ "Failed" by decide)
  refine Triple.bind (P := fun _ => True) hstart (fun _ => Triple.bind (Q := fun _ => Justified) ?_
    fun _ => triple_pure fun _ h => ⟨rfl, h⟩) w trivial
  rcases cr.vault? with - | vault
  · exact triple_pure fun _ h => h
  · exact reporting_triple _ (justified_triple (Set.notMem_empty _) (initVaultClient_touches vault))

/-- The loop over the components, for conditions that no footprint is about. -/
theorem reconcileComponents_triple {P : World → Prop} (cr : ZooKeeperService)
    (hP : ∀ (F : Footprint) (w w' : World), P w → Touches F.fields w w' → P w') :
    Triple P (reconcileComponents cr) (fun _ => P) fun _ _ => True := by
  refine forEach_triple (I := fun _ => P) fun _ r _ _ => reporting_triple _ ?_
  exact (r.reconcile_touches.triple fun w w' hw ht => hP r.footprint w w' hw ht).conseq
    (fun _ h => h) (fun _ _ h => h) fun _ _ _ => trivial

/-- **A call for a changed specification.** If it returns nil, a stored condition of the type
`Failed` stands for a check that has timed out. -/
theorem reconcileInstance_justified (cr : ZooKeeperService) :
    Triple (SpecChanged cr) (reconcileInstance cr)
      (fun _ w => hasFailedConditions w.storedStatus = true → w.timedOut ≠ []) fun _ _ => True := by
  refine (prepare_justified cr).bind fun isChanged w hw => ?_
  obtain ⟨rfl, hw⟩ := hw
  refine Triple.bind (P := Justified) (reconcileComponents_triple cr fun F w w' hw ht =>
    justified_of_touches hw ht fun h => h) (fun _ => ?_) w hw
  refine (justified_triple (T := {.pvcAnnotations, .storedAnnotations}) (by simp)
    (updateStatus_touches cr (.inl rfl) (.inr rfl))).bind fun _ => ?_
  refine Triple.bind (finishCycle_justified cr) fun _ => triple_update fun w hw hfailed => ?_
  rw [hw.2] at hfailed
  exact hw.1 hfailed

/-! ## A call for the specification that was processed last -/

/-- The conditions are these, in memory and stored. -/
def ConditionsAre (conditions : List StatusCondition) (w : World) : Prop :=
  w.status.conditions = conditions ∧ w.storedStatus.conditions = conditions

theorem conditionsAre_of_touches {T : Set Field} {conditions : List StatusCondition} {w w' : World}
    (h : ConditionsAre conditions w) (ht : Touches T w w') (hT : .conditions ∉ T) :
    ConditionsAre conditions w' := by
  obtain ⟨⟨hstatus, hstored⟩, -⟩ := ht.same .conditions hT
  refine ⟨hstatus.trans h.1, ?_⟩
  rcases hstored with hstored | hstored
  · exact hstored.trans h.2
  · exact hstored.trans h.1

/-- Steps aside of the conditions leave them as they are. -/
theorem conditionsAre_triple {α : Type} {T : Set Field} {m : Op α}
    (conditions : List StatusCondition) (hT : .conditions ∉ T) (h : Within (Touches T) m) :
    Triple (ConditionsAre conditions) m (fun _ => ConditionsAre conditions) fun _ _ => True :=
  (h.triple fun _ _ hw ht => conditionsAre_of_touches hw ht hT).conseq (fun _ h => h)
    (fun _ _ h => h) fun _ _ _ => trivial

/-- **A call for an unchanged specification.** If it returns nil, it leaves the conditions as
they were. -/
theorem reconcileInstance_conditionsAre (cr : ZooKeeperService)
    (conditions : List StatusCondition) :
    Triple (fun w => ¬ SpecChanged cr w ∧ ConditionsAre conditions w) (reconcileInstance cr)
      (fun _ => ConditionsAre conditions) fun _ _ => True := by
  have hprepare : Triple (fun w => ¬ SpecChanged cr w ∧ ConditionsAre conditions w) (prepare cr)
      (fun isChanged w => isChanged = false ∧ ConditionsAre conditions w) fun _ _ => True := by
    refine Triple.bind (Q := fun _ w => ¬ SpecChanged cr w ∧ ConditionsAre conditions w)
      (triple_update fun _ h => h) fun _ => ?_
    refine Triple.bind (Q := fun isChanged w => isChanged = false ∧ ConditionsAre conditions w)
      (triple_observe fun w hw => ⟨decide_eq_false hw.1, hw.2⟩) fun isChanged w hw => ?_
    obtain ⟨rfl, hw⟩ := hw
    refine Triple.bind (P := ConditionsAre conditions) (Q := fun _ => ConditionsAre conditions)
      (triple_pure fun _ h => h) (fun _ => Triple.bind (Q := fun _ => ConditionsAre conditions) ?_
        fun _ => triple_pure fun _ h => ⟨rfl, h⟩) w hw
    rcases cr.vault? with - | vault
    · exact triple_pure fun _ h => h
    · exact reporting_triple _
        (conditionsAre_triple conditions (Set.notMem_empty _) (initVaultClient_touches vault))
  refine hprepare.bind fun isChanged w hw => ?_
  obtain ⟨rfl, hw⟩ := hw
  refine Triple.bind (P := ConditionsAre conditions) (reconcileComponents_triple cr
    fun F w w' hw ht => conditionsAre_of_touches hw ht fun h => h) (fun _ => ?_) w hw
  refine (conditionsAre_triple conditions (T := {.pvcAnnotations, .storedAnnotations}) (by simp)
    (updateStatus_touches cr (.inl rfl) (.inr rfl))).bind fun _ => ?_
  exact Triple.bind (Q := fun _ => ConditionsAre conditions) (triple_pure fun _ h => h) fun _ =>
    triple_update fun _ h => h

/-! ## Runs -/

namespace Conditions

/-- What others do between the calls of `Reconcile`. -/
inductive Deed where
  /-- the specification is edited -/
  | edit (spec : ZooKeeperServiceSpec)
  /-- Secrets, or other objects of the cluster, are changed -/
  | disturb (objects : (k : Kind) → Store k) (version : ℕ)

/-- The cluster and the controller, with what came of the calls so far. -/
structure Session where
  /-- the cluster and the controller -/
  world : World
  /-- has the last call returned nil? -/
  returned : Bool
  /-- the checks that have timed out in the latest call that returned nil and processed a
  changed specification -/
  timedOut : List String := []

namespace Session

variable (s : Session)

/-- Will the next call process a changed specification? -/
def isChanged : Bool := s.world.cr.any fun cr => SpecChanged cr s.world

/-- A controller that has just been started: it remembers nothing. The custom resource is
there, with any status. -/
def Fresh : Prop := s.world.cr.isSome ∧ s.world.resourceHashes = ∅

/-- What should be seen after a call: if it has returned nil, a failure in the status stands
for a check that has timed out. -/
def Reports : Prop :=
  s.returned = true → hasFailedConditions s.world.storedStatus = true → s.timedOut ≠ []

end Session

/-- Edits and other changes, and calls of `Reconcile`. -/
def interplay : Interplay Session Deed Call where
  others s
    | .edit spec => { s with world := { s.world with
        cr := s.world.cr.map fun cr => { cr with spec := spec } } }
    | .disturb objects version => { s with world := { s.world with
        objects := objects, version := version } }
  call s call :=
    let outcome := reconcile (call.start s.world)
    { world := outcome.next
      returned := outcome.returned
      timedOut := if outcome.returned && s.isChanged then outcome.next.timedOut else s.timedOut }

/-- It is seen after all calls of a run. -/
def Session.AlwaysReports : Session → List (Turn Deed Call) → Prop :=
  interplay.EveryCall fun s call => (interplay.call s call).Reports

/-- There is no failure to be forgotten: the last call has returned nil, or the next one will
process a changed specification. -/
def Session.Overcome (s : Session) : Prop := s.isChanged = true ∨ s.returned = true

instance (s : Session) : Decidable s.Overcome := inferInstanceAs (Decidable (_ ∨ _))

/-- After a call that failed, `Reconcile` is only called for a changed specification. -/
def Session.Careful : Session → List (Turn Deed Call) → Prop :=
  interplay.EveryCall fun s _ => s.Overcome

instance (s : Session) (turns : List (Turn Deed Call)) : Decidable (s.Careful turns) :=
  interplay.decidableEveryCall s turns

/-- The invariant: once a hash is remembered, the status is as it should be. -/
structure Session.Sound (s : Session) : Prop where
  present : s.world.cr.isSome
  reports : s.world.resourceHashes.lookup "spec" ≠ none → s.Reports

theorem Session.Fresh.sound {s : Session} (h : s.Fresh) : s.Sound where
  present := h.1
  reports hhash := by
    rw [h.2, Finmap.lookup_empty] at hhash
    exact absurd rfl hhash

/-- The status after a call, if there was nothing left to be forgotten before. -/
theorem Session.Sound.reports_call {s : Session} (h : s.Sound) (hovercome : s.Overcome)
    (call : Call) : (interplay.call s call).Reports := by
  obtain ⟨cr, hcr⟩ := Option.isSome_iff_exists.mp h.present
  have hchanged : s.isChanged = true ↔ SpecChanged cr s.world := by
    rw [isChanged, hcr]
    exact decide_eq_true_iff
  intro hreturned hfailed
  obtain ⟨_, w', hrun⟩ := Outcome.returned_iff.mp hreturned
  simp only [interplay, hrun, Outcome.next_ok, Outcome.returned_ok, Bool.true_and] at hfailed ⊢
  rcases reconcile_cases (w := call.start s.world) hcr with ⟨t, hget, heq⟩ | ⟨e, t, -, heq⟩ <;>
    rw [heq] at hrun
  · obtain ⟨-, rest, ht⟩ := getInstance_ok_inv hget
    have hsame : SpecChanged cr t ↔ SpecChanged cr s.world := by rw [ht]; exact Iff.rfl
    have hloaded : ConditionsAre s.world.storedStatus.conditions t := by rw [ht]; exact ⟨rfl, rfl⟩
    by_cases hspec : s.isChanged = true
    · rw [if_pos hspec]
      exact (reconcileInstance_justified cr).ok (hsame.mpr (hchanged.mp hspec)) hrun hfailed
    · -- the conditions are those from before the call, which were as they should be
      rw [if_neg hspec]
      have hunchanged : ¬ SpecChanged cr s.world := fun h => hspec (hchanged.mpr h)
      have hkept := (reconcileInstance_conditionsAre cr s.world.storedStatus.conditions).ok
        ⟨fun h => hunchanged (hsame.mp h), hloaded⟩ hrun
      refine h.reports ?_ (hovercome.resolve_left hspec) ?_
      · rw [not_not.mp hunchanged]
        exact Option.some_ne_none _
      · rw [hasFailedConditions, hkept.2] at hfailed
        exact hfailed
  · cases hrun

/-- A call keeps the invariant, however it ends. -/
theorem Session.Sound.call {s : Session} (h : s.Sound) (hovercome : s.Overcome) (call : Call) :
    (interplay.call s call).Sound where
  present := by
    have hsame := (reconcile_touches (call.start s.world)).evolves.cr
    have hcr : (interplay.call s call).world.cr = s.world.cr := hsame
    rw [hcr]
    exact h.present
  reports _ := h.reports_call hovercome call

/-- An edit of the specification keeps it as well. -/
theorem Session.Sound.edit {s : Session} (h : s.Sound) (spec : ZooKeeperServiceSpec) :
    (interplay.others s (.edit spec)).Sound where
  present := by
    simpa only [interplay, Option.isSome_map] using h.present
  reports := h.reports

/-- The invariant of the runs: the conditions are justified by what has happened. -/
theorem invariant_sound : interplay.Invariant (fun s _ => s.Overcome) Session.Sound where
  others
    | _, .edit spec, hsound => hsound.edit spec
    | _, .disturb _ _, hsound => ⟨hsound.present, hsound.reports⟩
  call _ call hsound hovercome := hsound.call hovercome call

/-- **Failures that are overcome are forgotten in every careful run.** From a fresh controller
on, and whatever fails on the way: if after a failed call `Reconcile` is only called for a
changed specification, then after every call that returns nil a condition of the type `Failed`
stands for a check that has timed out in the latest call that returned nil and processed a
changed specification. -/
theorem alwaysReports_of_careful {s : Session} (hfresh : s.Fresh) (turns : List (Turn Deed Call))
    (hcareful : s.Careful turns) : s.AlwaysReports turns :=
  invariant_sound.everyCall (fun _ call hsound hovercome => hsound.reports_call hovercome call)
    hfresh.sound hcareful

/-! ### A failure that is forgotten, and one that stays -/

/-- A cluster with the Secret of ZooKeeper and nothing else, and a fresh controller. -/
def sampleSession : Session where
  world := HashGate.sampleSession.world
  returned := true

/-- The second request fails: the one for the Secret of ZooKeeper, right after the instance has
been fetched. -/
def failsAtSecret : List Fault := [.none, .refused .unavailable]

/-- The first call fails once the cycle has begun, and is repeated. -/
def repeatedRun : List (Turn Deed Call) :=
  [.call ⟨.none :: failsAtSecret, HashGate.calm⟩, .call ⟨[], HashGate.calm⟩]

/-- A call with nothing new to process fails, and is repeated. -/
def idleRun : List (Turn Deed Call) :=
  [.call ⟨[], HashGate.calm⟩, .call ⟨failsAtSecret, HashGate.calm⟩, .call ⟨[], HashGate.calm⟩]

theorem fresh_sampleSession : sampleSession.Fresh := ⟨rfl, rfl⟩

theorem alwaysReports_repeatedRun :
    sampleSession.Fresh ∧ sampleSession.Careful repeatedRun ∧
      sampleSession.AlwaysReports repeatedRun := by
  have hcareful : sampleSession.Careful repeatedRun := by decide +kernel
  exact ⟨fresh_sampleSession, hcareful, alwaysReports_of_careful fresh_sampleSession _ hcareful⟩

/-- **A failure that stays.** The last call returns nil and no check has ever timed out, but the
status still has the failure of the call before. -/
theorem not_alwaysReports_idleRun :
    sampleSession.Fresh ∧ ¬ sampleSession.AlwaysReports idleRun := by
  refine ⟨fresh_sampleSession, ?_⟩
  rintro ⟨-, -, hlast, -⟩
  refine hlast ?_ ?_ ?_ <;> decide +kernel

end Conditions

end QubershipZookeeper.Operator
