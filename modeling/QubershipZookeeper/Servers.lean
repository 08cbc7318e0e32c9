import QubershipZookeeper.Footprints

/-!
# The Deployments of the servers

What the pass of ZooKeeper does to the Deployments of its servers: which name belongs to
which server, what is stored under it when a step returns, and what is left there when a step
breaks off.
-/

namespace QubershipZookeeper.Operator

open Proc

/-! ## Names -/

theorem toList_toString (i : ℕ) : (toString i).toList = Nat.toDigits 10 i := by
  simp [toString, Nat.repr]

/-- Different servers have different numbers in their names. -/
theorem toString_injective {i j : ℕ} (h : toString i = toString j) : i = j := by
  have hdigits : Nat.toDigits 10 i = Nat.toDigits 10 j := by
    rw [← toList_toString, h, toList_toString]
  rw [← Nat.ofDigitChars_toDigits (b := 10) (n := i) (by decide) (by decide), hdigits,
    Nat.ofDigitChars_toDigits (by decide) (by decide)]

/-- Different servers have different names. -/
theorem serverName_injective (name : String) : Function.Injective (serverName name) :=
  fun _ _ h => toString_injective ((String.append_right_inj _).mp h)

/-- A name that goes on with anything but digits is not the name of a server. -/
theorem serverName_ne_append (name : String) (i : ℕ) {suffix : String} {c : Char}
    (hc : c ∈ suffix.toList) (hdash : c ≠ '-') (hdigit : c.isDigit = false) :
    serverName name i ≠ name ++ suffix := by
  intro h
  rw [serverName, String.append_assoc] at h
  have hsuffix : "-" ++ toString i = suffix := (String.append_right_inj _).mp h
  rw [← hsuffix, String.toList_append, List.mem_append, toList_toString] at hc
  rcases hc with hc | hc
  · exact hdash (List.mem_singleton.mp hc)
  · rw [Nat.isDigit_of_mem_toDigits (by decide) (by decide) hc] at hdigit
    cases hdigit

/-- No server has the name of another component's Deployment. -/
theorem serverName_ne_monitoring (p : MonitoringResourceProvider) (i : ℕ) :
    serverName p.cr.name i ≠ p.getServiceName :=
  serverName_ne_append _ _ (show 'm' ∈ "-monitoring".toList by decide) (by decide) (by decide)

theorem serverName_ne_backupDaemon (p : BackupDaemonResourceProvider) (i : ℕ) :
    serverName p.cr.name i ≠ p.getServiceName :=
  serverName_ne_append _ _ (show 'b' ∈ "-backup-daemon".toList by decide) (by decide) (by decide)

/-! ## Restart annotations -/

/-- A Deployment is the submitted one, apart from the version that the API server fills in and
the annotations that mark restarts. -/
structure Deployment.SameUpToRestarts (stored submitted : Deployment) : Prop where
  rest : { stored with
      metadata := { stored.metadata with resourceVersion := 0 }, templateAnnotations := none } =
    { submitted with
      metadata := { submitted.metadata with resourceVersion := 0 }, templateAnnotations := none }
  annotations : ∀ key, (∀ secretName, key ≠ resourceVersionAnnotationTemplate secretName) →
    (stored.templateAnnotations.getD ∅).lookup key =
    (submitted.templateAnnotations.getD ∅).lookup key

theorem Deployment.SameUpToRestarts.trans {d₁ d₂ d₃ : Deployment} (h : d₁.SameUpToRestarts d₂)
    (h' : d₂.SameUpToRestarts d₃) : d₁.SameUpToRestarts d₃ :=
  ⟨h.rest.trans h'.rest, fun key hkey => (h.annotations key hkey).trans (h'.annotations key hkey)⟩

/-- Marks do not change what the pod runs. -/
theorem Deployment.SameUpToRestarts.podSpec_eq {stored submitted : Deployment}
    (h : stored.SameUpToRestarts submitted) : stored.podSpec = submitted.podSpec := by
  have hpod := congrArg Deployment.podSpec h.rest
  exact hpod

/-- Marks do not change how many pods there are. -/
theorem Deployment.SameUpToRestarts.replicas_eq {stored submitted : Deployment}
    (h : stored.SameUpToRestarts submitted) : stored.replicas = submitted.replicas := by
  have hreplicas := congrArg Deployment.replicas h.rest
  exact hreplicas

/-- The API server changes nothing but the version. -/
theorem sameUpToRestarts_accept (v : ℕ) (d : Deployment) :
    Deployment.SameUpToRestarts (Kind.accept .deployment v d) d :=
  ⟨rfl, fun _ _ => rfl⟩

/-- One round of marking leaves every other annotation alone. -/
theorem lookup_applyAutoRestart (state : Option StringMap × Bool) (secret : Option Secret)
    {key : String} (hkey : ∀ secretName, key ≠ resourceVersionAnnotationTemplate secretName) :
    ((applyAutoRestart state secret).1.getD ∅).lookup key = (state.1.getD ∅).lookup key := by
  unfold applyAutoRestart
  cases secret with
  | none => rfl
  | some s =>
    dsimp only
    split
    · rfl
    · split
      · rfl
      · split
        · rfl
        · exact Finmap.lookup_insert_of_ne _ (hkey _)

/-- The marks are annotations of their own. -/
theorem sameUpToRestarts_applyAutoRestart (d : Deployment) (secrets : List (Option Secret)) :
    (applyAutoRestartSecretAnnotations d secrets).1.SameUpToRestarts d := by
  refine ⟨rfl, fun key hkey => ?_⟩
  show ((secrets.foldl applyAutoRestart (d.templateAnnotations, false)).1.getD ∅).lookup key =
    (d.templateAnnotations.getD ∅).lookup key
  generalize hstate : (d.templateAnnotations, false) = state
  have hfirst : d.templateAnnotations = state.1 := by rw [← hstate]
  rw [hfirst]
  clear hstate hfirst
  induction secrets generalizing state with
  | nil => rfl
  | cons secret secrets ih =>
    rw [List.foldl_cons, ih, lookup_applyAutoRestart state secret hkey]

/-! ## What the steps store -/

/-- A Deployment that was created or updated is stored. -/
theorem createOrUpdateDeployment_stores (d : Deployment) :
    Triple (fun _ => True) (createOrUpdateDeployment d)
      (fun _ w => ∃ v, w.get? .deployment d.metadata.name = some (Kind.accept .deployment v d))
      fun _ _ => True := by
  refine (findObject_triple (fun _ _ _ _ => trivial) .deployment _).bind fun found => ?_
  have hdiscard : ∀ {m : Op Deployment}, Triple (fun _ => True) m
      (fun stored w => w.get? .deployment d.metadata.name = some stored ∧
        ∃ v, stored = Kind.accept .deployment v d) (fun _ _ => True) →
      Triple (fun _ => True) (discard m)
        (fun _ w => ∃ v, w.get? .deployment d.metadata.name = some (Kind.accept .deployment v d))
        fun _ _ => True := by
    intro m hm
    refine hm.bind fun stored => triple_pure ?_
    rintro w ⟨hget, v, rfl⟩
    exact ⟨v, hget⟩
  rcases found with - | found
  · exact (hdiscard (clientCreate_stores .deployment d)).conseq (fun _ _ => trivial)
      (fun _ _ h => h) fun _ _ h => h
  · refine (retryOnConflict_triple (P := fun _ => True) ?_ _).conseq (fun _ _ => trivial)
      (fun _ _ h => h) fun _ _ h => h
    refine (clientGet_triple (fun _ _ _ _ => trivial) .deployment _).bind fun _ => ?_
    exact (hdiscard (clientUpdate_stores .deployment d)).conseq (fun _ _ => trivial)
      (fun _ _ h => h) fun _ _ h => h

end QubershipZookeeper.Operator
