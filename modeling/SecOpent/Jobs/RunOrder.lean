import SecOpent.Jobs.Tracking

/-!
# The order of a run

From the dispatch of a plan that the store does not know, whatever the steps do: the runner is called
for a step only when its dependencies have succeeded, at most as often as the step may be attempted,
and never again after a policy failure.

## Main definitions

* `Orderly`: the orchestrator and the store agree, and the log is lawful

## Main results

* `orderly`: every run of a plan that is new to the store is orderly
* `ran_in_order`: dependencies first, no more attempts than allowed, no retry after a policy failure
-/

namespace SecOpent

open Python Transition

/-- The orchestrator and the store agree, and the log is lawful. -/
structure Orderly (plan : ExecutionPlan) (s : PlanRun) : Prop where
  tracks : Tracks plan s
  lawful : (s.course plan).Lawful plan.steps

theorem Orderly.step {plan : ExecutionPlan} {backend : Backend} {ttl : Time} {s s' : PlanRun}
    (hkeys : (plan.steps.map PlanStep.key).Nodup)
    (hdependencies : ∀ step ∈ plan.steps, ∀ d ∈ step.dependencies,
      d ∈ plan.steps.map PlanStep.key) (h : Orderly plan s) {label : RunLabel}
    (hstep : s.step backend ttl label = some s') : Orderly plan s' := by
  obtain ⟨htracks, hcourse⟩ := h.tracks.step hkeys hdependencies hstep
  exact ⟨htracks, h.lawful.step hkeys hcourse⟩

section Start

variable {plan : ExecutionPlan} {store : JobStore} {maxWorkers : ℕ} {now : Time} {maxRounds : ℕ}

/-- No step of a plan that is new to the store has a state. -/
theorem stateOf_new (h : NewPlan plan store) (key : String) : stateOf plan store key = none := by
  by_contra hsome
  obtain ⟨x, hx⟩ := Option.ne_none_iff_exists'.mp hsome
  obtain ⟨step, hstep, rfl, job, hjob, -⟩ := exists_of_stateOf hx
  have hid : job.id = jobIdOf step := JobStore.id_of_get? hjob
  exact h job (JobStore.mem_all.mpr (hid ▸ hjob)) step hstep (.inl hid)

theorem tracks_start (h : NewPlan plan store) :
    Tracks plan (.start plan store maxWorkers now maxRounds) where
  identified := ⟨rfl, fun key step hget => (by cases hget),
    ⟨[], rfl, fun step hstep => (by cases hstep)⟩,
    fun step hstep job hjob => h job hjob step hstep,
    fun job hjob step hstep hclaims => absurd hclaims (h job hjob step hstep)⟩
  waiting target htarget := by cases htarget
  running target htarget := by cases htarget
  once := List.nodup_nil
  leased key n hkey := by
    rw [PlanRun.start, stateOf_new h] at hkey
    cases hkey
  succeeded d hd := by cases hd
  gathered _ _ hphase := by cases hphase
  marked step _ hmarked := by cases hmarked
  markedOnce := List.nodup_nil

theorem lawful_start (h : NewPlan plan store) :
    ((PlanRun.start plan store maxWorkers now maxRounds).course plan).Lawful plan.steps := by
  have hstates : ((PlanRun.start plan store maxWorkers now maxRounds).course plan).states =
      fun _ => none := funext (stateOf_new h)
  refine ⟨fun key => ?_, fun key status n hkey => ?_, fun key hkey => ?_, ?_, ?_, ?_, .nil⟩
  · rw [hstates]
    rfl
  · rw [hstates] at hkey
    cases hkey
  · obtain ⟨n, hn⟩ := hkey
    rw [hstates] at hn
    cases hn
  · intro key attempt failure hmem
    cases hmem
  · intro step hstep status n hkey
    rw [hstates] at hkey
    cases hkey
  · intro earlier key attempt later hlog
    simp [PlanRun.start, PlanRun.course] at hlog

theorem orderly_start (h : NewPlan plan store) :
    Orderly plan (.start plan store maxWorkers now maxRounds) :=
  ⟨tracks_start h, lawful_start h⟩

/-- What holds along every run of a plan that is new to the store. -/
theorem orderly {backend : Backend} {ttl : Time} {cond : PlanRun → RunLabel → Prop}
    {s : PlanRun} (hkeys : (plan.steps.map PlanStep.key).Nodup)
    (hdependencies : ∀ step ∈ plan.steps, ∀ d ∈ step.dependencies,
      d ∈ plan.steps.map PlanStep.key) (hnew : NewPlan plan store)
    (hrun : Reaches (PlanRun.step backend ttl) cond
      (.start plan store maxWorkers now maxRounds) s) :
    Orderly plan s :=
  hrun.invariant (orderly_start hnew) fun _ _ _ hinv _ hstep =>
    hinv.step hkeys hdependencies hstep

end Start

/-! ## The order of a run -/

/-- The state of a step whose runner was called. -/
theorem Course.Lawful.dependencies_of_began {steps : List PlanStep} {c : Course}
    (h : c.Lawful steps) {step : PlanStep} (hstep : step ∈ steps) {attempt : ℕ}
    (hbegan : .began step.key attempt ∈ c.log) : ∀ d ∈ step.dependencies, c.Succeeded d := by
  have hcount : 0 < c.log.countP (RunEvent.begins step.key) :=
    List.countP_pos_iff.mpr ⟨_, hbegan, by simp [RunEvent.begins]⟩
  rw [h.attempts] at hcount
  cases hstate : c.states step.key with
  | none => simp [hstate] at hcount
  | some x =>
    obtain ⟨status, n⟩ := x
    refine h.unblocked step hstep status n hstate ?_
    rintro rfl
    -- A step that is blocked was never called.
    have hzero : n = 0 := (h.limit _ _ _ hstate).2.2 rfl
    simp [hstate, hzero] at hcount

/-- **In every run of one orchestrator from an empty store**: the runner is called for a step only
after the results of its dependencies, which have succeeded and stay so; at most `max_attempts`
times; never again after a policy failure; and never when a dependency has failed or was denied. -/
theorem ran_in_order {planId assessmentId digest : String} {version : ℕ} {steps : List PlanStep}
    {plan : ExecutionPlan}
    (hplan : ExecutionPlan.create planId assessmentId version steps digest = .ok plan)
    {backend : Backend} {ttl now : Time} {maxWorkers maxRounds : ℕ} {s : PlanRun}
    (hrun : Reaches (PlanRun.step backend ttl) (fun _ _ => True)
      (.start plan .empty maxWorkers now maxRounds) s) {step : PlanStep} (hstep : step ∈ plan.steps) :
    (∀ earlier attempt later, s.log = earlier ++ .began step.key attempt :: later →
      ∀ d ∈ step.dependencies,
        (∃ attempt' digest', .ended d attempt' (.result digest') ∈ earlier) ∧
          ∃ job, s.store.get? ("job:" ++ d) = some job ∧ job.status = .succeeded) ∧
    s.log.countP (RunEvent.begins step.key) ≤ (jobOf plan.digest step).maxAttempts ∧
    (∀ earlier attempt failure later,
      s.log = earlier ++ .ended step.key attempt (.failure failure) :: later →
      failure ∈ policyFailures → ∀ attempt', .began step.key attempt' ∉ later) ∧
    ∀ d ∈ step.dependencies, ∀ job, s.store.get? ("job:" ++ d) = some job →
      job.status = .failed ∨ job.status = .policyDenied →
      ∀ attempt, .began step.key attempt ∉ s.log := by
  have hkeys := (ExecutionPlan.create_ok hplan).2
  have hdependencies := ExecutionPlan.create_dependencies hplan
  have hlawful := (orderly hkeys hdependencies (newPlan_empty plan) hrun).lawful
  have hsucceeded : ∀ attempt, .began step.key attempt ∈ s.log → ∀ d ∈ step.dependencies,
      ∃ job, s.store.get? ("job:" ++ d) = some job ∧ job.status = .succeeded := by
    intro attempt hbegan d hd
    obtain ⟨n, hn⟩ := hlawful.dependencies_of_began hstep hbegan d hd
    obtain ⟨other, -, rfl, job, hjob, hstate⟩ := exists_of_stateOf hn
    exact ⟨job, hjob, congrArg Prod.fst hstate⟩
  refine ⟨fun earlier attempt later hlog d hd => ⟨?_, ?_⟩, ?_, ?_, ?_⟩
  · exact hlawful.ordered earlier step.key attempt later hlog step hstep rfl d hd
  · exact hsucceeded attempt (by rw [hlog]; simp) d hd
  · have hcount := hlawful.attempts step.key
    have hlog : (s.course plan).log = s.log := rfl
    rw [← hlog, hcount]
    cases hstate : (s.course plan).states step.key with
    | none => exact Nat.zero_le _
    | some x => exact (hlawful.limit _ _ _ hstate).1
  · intro earlier attempt failure later hlog hpolicy attempt' hbegan
    have hfinal : s.log.Pairwise fun event later => ¬event.Retries later := hlawful.final
    rw [hlog, List.pairwise_append, List.pairwise_cons] at hfinal
    exact hfinal.2.1.1 _ hbegan ⟨rfl, hpolicy⟩
  · intro d hd job hjob hfailed attempt hbegan
    obtain ⟨job', hjob', hstatus⟩ := hsucceeded attempt hbegan d hd
    rw [hjob, Option.some.injEq] at hjob'
    rw [hjob', hstatus] at hfailed
    rcases hfailed with hfailed | hfailed <;> cases hfailed

/-- A plan of two steps, the second after the first. -/
def pairSteps : List PlanStep :=
  [⟨"scan", "nmap", .low, .empty, []⟩, ⟨"probe", "nuclei", .active, .empty, ["scan"]⟩]

/-- The scan is retried after a timeout, and the probe is denied. -/
def pairLabels : List RunLabel :=
  let round (outcome : StepOutcome) : List RunLabel :=
    [.access .scan, .access .submit, .access (.lease 0), .access (.report 0 outcome),
      .access .scanSucceeded, .access .scanBlocked]
  [.access .dispatchStep, .access .dispatchStep] ++ round (.failure .timeout) ++ [.next] ++
    round (.result "ports") ++ [.access .markReady, .next] ++ round (.failure .outOfScope)

theorem ran_in_order_pair :
    ∃ s, runLabels (PlanRun.step .memory 300)
        (.start ⟨"plan-1", "as-1", 1, pairSteps, "digest"⟩ .empty 1 0 100) pairLabels = some s ∧
      s.log = [.began "scan" 1, .ended "scan" 1 (.failure .timeout), .began "scan" 2,
        .ended "scan" 2 (.result "ports"), .began "probe" 1,
        .ended "probe" 1 (.failure .outOfScope)] ∧
      ∃ attempt digest, RunEvent.ended "scan" attempt (.result digest) ∈ s.log.take 4 := by
  have hlog : (runLabels (PlanRun.step .memory 300)
      (.start ⟨"plan-1", "as-1", 1, pairSteps, "digest"⟩ .empty 1 0 100) pairLabels).map
        PlanRun.log = some [.began "scan" 1, .ended "scan" 1 (.failure .timeout), .began "scan" 2,
          .ended "scan" 2 (.result "ports"), .began "probe" 1,
          .ended "probe" 1 (.failure .outOfScope)] := by
    decide +kernel
  obtain ⟨s, hs, heq⟩ := Option.map_eq_some_iff.mp hlog
  have hplan : ExecutionPlan.create "plan-1" "as-1" 1 pairSteps "digest" =
      .ok ⟨"plan-1", "as-1", 1, pairSteps, "digest"⟩ := by
    decide +kernel
  have hrun := Reaches.of_runLabels hs (runMeets_of_forall fun _ _ _ => trivial)
  refine ⟨s, hs, heq, ?_⟩
  have hprobe : (⟨"probe", "nuclei", .active, .empty, ["scan"]⟩ : PlanStep) ∈ pairSteps := by
    simp [pairSteps]
  rw [heq]
  exact ((ran_in_order hplan hrun hprobe).1 _ _ _ heq "scan" (by simp)).1

end SecOpent
