import QubershipZookeeper.Effects
import QubershipZookeeper.KeyedLog

/-!
# The conditions as a map

`updateConditions` keeps one condition for every reason. This module compares the list in the status
with the **log** of all calls, in which every call stands with its time: reasons are listed in the
order of their first use, and the condition of a reason is the call that began the present run of
calls that say the same about it (`Faithful`). This holds wherever the calls come from and whatever
becomes of the requests that store the status.
-/

namespace QubershipZookeeper.Operator

open Proc

/-- What a condition says about its reason. -/
def StatusCondition.content (condition : StatusCondition) : String × String × String :=
  (condition.type, condition.status, condition.message)

/-- Adding a condition is an update of a list that is keyed by reasons. -/
theorem addCondition_eq_upsert (conditions : List StatusCondition) (condition : StatusCondition) :
    addCondition conditions condition =
      KeyedLog.upsert StatusCondition.reason StatusCondition.content conditions condition := by
  induction conditions with
  | nil => rfl
  | cons current conditions ih =>
    rw [addCondition, KeyedLog.upsert, ih]
    refine if_congr Iff.rfl ?_ rfl
    by_cases hsame : condition.content = current.content
    · rw [if_pos hsame, if_neg]
      simpa [StatusCondition.content] using hsame
    · rw [if_neg hsame, if_pos]
      by_contra hnot
      refine hsame ?_
      simpa [StatusCondition.content, not_or] using hnot

/-- The conditions after a call, whether the status could be stored or not. -/
theorem conditions_updateConditions (condition : StatusCondition) (w : World) :
    (updateConditions condition w).next.status.conditions =
      addCondition w.status.conditions { condition with lastTransitionTime := w.clock } := by
  have hstore (w' : World) : (statusUpdate w').next.status.conditions = w'.status.conditions :=
    ((statusUpdate_touches (T := ∅) w').same .conditions (Set.notMem_empty _)).1.1
  exact hstore _

/-- A run with calls of `updateConditions`, and the log of the calls, each with its time. Between
the calls anything may happen that leaves the conditions in memory alone. -/
inductive ConditionCalls (w : World) : List StatusCondition → World → Prop where
  /-- no call yet -/
  | start : ConditionCalls w [] w
  /-- one more call -/
  | call {log : List StatusCondition} {w' : World} (h : ConditionCalls w log w')
      (condition : StatusCondition) :
      ConditionCalls w (log ++ [{ condition with lastTransitionTime := w'.clock }])
        (updateConditions condition w').next
  /-- anything else -/
  | other {log : List StatusCondition} {w' w'' : World} (h : ConditionCalls w log w')
      (hsame : w''.status.conditions = w'.status.conditions) : ConditionCalls w log w''

/-- The calls of a log that are about a reason. -/
def callsFor (log : List StatusCondition) (reason : String) : List StatusCondition :=
  log.filter fun call => call.reason = reason

/-- The conditions are a map from reasons to what the log says about them. -/
structure Faithful (log conditions : List StatusCondition) : Prop where
  /-- every reason stands once -/
  distinct : (conditions.map StatusCondition.reason).Nodup
  /-- in the order of first use -/
  order : conditions.map StatusCondition.reason = (log.map StatusCondition.reason).eraseDups
  /-- with what the last call said -/
  last : ∀ c ∈ conditions, ∃ call, (callsFor log c.reason).getLast? = some call ∧
    c.type = call.type ∧ c.status = call.status ∧ c.message = call.message
  /-- since the first of the calls in a row that said so -/
  since : ∀ c ∈ conditions, ∃ earlier first run, callsFor log c.reason = earlier ++ first :: run ∧
    c.lastTransitionTime = first.lastTransitionTime ∧
    (∀ call ∈ first :: run, call.content = c.content) ∧
    ∀ call ∈ earlier.getLast?, call.content ≠ c.content

/-- So after many calls the conditions are the state of the log of these calls. -/
theorem latest_of_calls {w w' : World} {log : List StatusCondition}
    (hempty : w.status.conditions = []) (h : ConditionCalls w log w') :
    KeyedLog.Latest StatusCondition.reason StatusCondition.content log w'.status.conditions := by
  induction h with
  | start =>
    rw [hempty]
    exact .nil
  | call h condition ih =>
    rw [conditions_updateConditions, addCondition_eq_upsert]
    exact ih.upsert _
  | other h hsame ih =>
    rw [hsame]
    exact ih

/-- Being the state of the log is what it means that the conditions are faithful to it. -/
theorem faithful_of_latest {log conditions : List StatusCondition}
    (h : KeyedLog.Latest StatusCondition.reason StatusCondition.content log conditions) :
    Faithful log conditions where
  distinct := h.nodup
  order := h.keys
  last c hc := by
    obtain ⟨earlier, run, hlog, hrun, -⟩ := h.began c hc
    have hlast : (callsFor log c.reason).getLast? = (c :: run).getLast? := by
      rw [callsFor, hlog, List.getLast?_append_cons]
    obtain ⟨call, hcall⟩ : ∃ call, (c :: run).getLast? = some call :=
      ⟨_, List.getLast?_eq_some_getLast (List.cons_ne_nil c run)⟩
    have hcontent : call.content = c.content := by
      rcases List.mem_cons.mp (List.mem_of_getLast? hcall) with rfl | hmem
      · rfl
      · exact hrun call hmem
    simp only [StatusCondition.content, Prod.mk.injEq] at hcontent
    exact ⟨call, hlast.trans hcall, hcontent.1.symm, hcontent.2.1.symm, hcontent.2.2.symm⟩
  since c hc := by
    obtain ⟨earlier, run, hlog, hrun, hearlier⟩ := h.began c hc
    refine ⟨earlier, c, run, hlog, rfl, fun call hcall => ?_, hearlier⟩
    rcases List.mem_cons.mp hcall with rfl | hcall
    · rfl
    · exact hrun call hcall

/-- **The conditions are a faithful map.** After any calls of `updateConditions` that began with no
conditions, the list says of every reason what the last call said about it, and since when; and one
more call changes the conditions of no other reason. -/
theorem faithful_of_calls {w w' : World} {log : List StatusCondition}
    (hempty : w.status.conditions = []) (h : ConditionCalls w log w') :
    Faithful log w'.status.conditions ∧
      ∀ condition c : StatusCondition, c.reason ≠ condition.reason →
        (c ∈ (updateConditions condition w').next.status.conditions ↔
          c ∈ w'.status.conditions) := by
  refine ⟨faithful_of_latest (latest_of_calls hempty h), fun condition c hc => ?_⟩
  rw [conditions_updateConditions, addCondition_eq_upsert]
  exact KeyedLog.mem_upsert_of_ne hc

/-- A custom resource without conditions. -/
def conditionlessWorld : World where
  cr := some { name := "zookeeper", namespaceName := "zk", spec := {} }
  environment :=
    { observe := fun _ _ => { pods := [], statuses := fun _ => {} }, password := fun _ => "" }

/-- The same condition twice, and one with another reason between. -/
theorem faithful_conditionlessWorld :
    ∃ log w', ConditionCalls conditionlessWorld log w' ∧
      w'.status.conditions.map StatusCondition.lastTransitionTime = [0, 1] ∧
      Faithful log w'.status.conditions := by
  let ready := newCondition "True" "Ready" "ZooKeeperReadinessStatus" "ZooKeeper pods are ready"
  let failed := newCondition "False" "Failed" zooKeeperServiceConditionReason "not found"
  have hcalls :=
    ((ConditionCalls.start (w := conditionlessWorld)).call ready).call failed |>.call ready
  exact ⟨_, _, hcalls, by decide +kernel, (faithful_of_calls rfl hcalls).1⟩

end QubershipZookeeper.Operator
