import Mathlib.Logic.Relation
import SecOpent.Jobs.Rounds
import SecOpent.Jobs.RunOrder

/-!
# The budget of rounds

`run_to_completion` answers `completed` when a round was empty, and also when its rounds are used
up. A plan needs a round for each attempt along its longest chain of dependencies, so a plan that is
deep enough, or whose steps are retried often enough, is reported as completed while steps that may
run are left.

## Main definitions

* `RunBy`: the runs in which the outcomes are those of one runner
* `NothingLeft`: no step may still run, and every step has ended or waits for one that did not succeed
* `deepPlan`: a chain of steps that are retried twice

## Main results

* `exists_completed`: every plan has a run that returns
* `nothing_left_iff`: a run that returned `completed` left nothing exactly when every step that runs
  ends within the rounds
-/

namespace SecOpent

open Python Transition

/-! ## Runs by a runner -/

/-- The outcomes that are reported are those of the runner. -/
def RunBy (runner : Runner) (s : PlanRun) : RunLabel → Prop
  | .access (.report index outcome) => ∀ target, s.orchestrator.running[index]? = some target →
      outcome = runner target.2.key target.1.attempt
  | _ => True

/-- The run is orderly, and its course follows the rounds of the runner. -/
structure Paced (plan : ExecutionPlan) (runner : Runner) (maxRounds : ℕ) (s : PlanRun) : Prop where
  orderly : Orderly plan s
  obeys : Obeys runner s.log
  inRound : InRound plan.steps runner maxRounds (s.course plan)

section Paced

variable {plan : ExecutionPlan} {runner : Runner} {maxRounds : ℕ} {backend : Backend}
  {ttl now : Time} {store : JobStore} {maxWorkers : ℕ} {s s' : PlanRun}

theorem Obeys.step (h : Obeys runner s.log) {label : RunLabel} (hlabel : RunBy runner s label)
    (hstep : s.step backend ttl label = some s') : Obeys runner s'.log := by
  cases label with
  | access action =>
    obtain ⟨store', o', phase, -, -, rfl⟩ := step_access hstep
    intro key attempt outcome hmem
    rcases List.mem_append.mp hmem with hmem | hmem
    · exact h key attempt outcome hmem
    · cases action with
      | report index reported =>
        cases hrunning : s.orchestrator.running[index]? with
        | none => simp [Orchestrator.events, hrunning] at hmem
        | some target =>
          simp only [Orchestrator.events, hrunning, List.mem_singleton, RunEvent.ended.injEq] at hmem
          obtain ⟨rfl, rfl, rfl⟩ := hmem
          exact hlabel target hrunning
      | lease index =>
        -- A lease begins a call.
        simp only [Orchestrator.events] at hmem
        split at hmem
        · cases hmem
        · split at hmem <;> simp at hmem
      | _ => cases hmem
  | exhaust | stop | leave | next =>
    have hlog : s'.log = s.log := by
      simp only [PlanRun.step] at hstep
      repeat' split at hstep
      all_goals cases hstep
      all_goals rfl
    rw [hlog]
    exact h

theorem Paced.step (hkeys : (plan.steps.map PlanStep.key).Nodup)
    (hdependencies : ∀ step ∈ plan.steps, ∀ d ∈ step.dependencies,
      d ∈ plan.steps.map PlanStep.key) (h : Paced plan runner maxRounds s) {label : RunLabel}
    (hlabel : RunBy runner s label) (hstep : s.step backend ttl label = some s') :
    Paced plan runner maxRounds s' := by
  have hobeys := h.obeys.step hlabel hstep
  obtain ⟨-, hcourse⟩ := h.orderly.tracks.step hkeys hdependencies hstep
  exact ⟨h.orderly.step hkeys hdependencies hstep, hobeys,
    h.inRound.step hkeys hdependencies hcourse hobeys⟩

theorem paced_start (h : NewPlan plan store) :
    Paced plan runner maxRounds (.start plan store maxWorkers now maxRounds) where
  orderly := orderly_start h
  obeys key attempt outcome hmem := by cases hmem
  inRound := by
    refine ⟨Nat.le_refl _, .inr rfl, fun step hstep x hx => ?_⟩
    rw [course_states, PlanRun.start, stateOf_new h] at hx
    cases hx

theorem paced (hkeys : (plan.steps.map PlanStep.key).Nodup)
    (hdependencies : ∀ step ∈ plan.steps, ∀ d ∈ step.dependencies,
      d ∈ plan.steps.map PlanStep.key) (hnew : NewPlan plan store)
    (hrun : Reaches (PlanRun.step backend ttl) (RunBy runner)
      (.start plan store maxWorkers now maxRounds) s) : Paced plan runner maxRounds s :=
  hrun.invariant (paced_start hnew) fun _ _ _ hinv hlabel hstep =>
    hinv.step hkeys hdependencies hlabel hstep

end Paced

/-! ## What a run leaves -/

/-- A step depends on another one, directly or not. -/
def DependsOn (plan : ExecutionPlan) : String → String → Prop :=
  Relation.TransGen fun key d => ∃ step ∈ plan.steps, step.key = key ∧ d ∈ step.dependencies

/-- The job of a step has succeeded. -/
def StepSucceeded (store : JobStore) (key : String) : Prop :=
  ∃ job, store.get? ("job:" ++ key) = some job ∧ job.status = .succeeded

/-- No job of the plan is ready, or blocked while its dependencies have succeeded; every step has
ended, or depends on one that did not succeed. -/
structure NothingLeft (plan : ExecutionPlan) (store : JobStore) : Prop where
  not_ready : ∀ step ∈ plan.steps, ∀ job, store.get? (jobIdOf step) = some job →
    job.status ≠ .ready
  not_unblockable : ∀ step ∈ plan.steps, ∀ job, store.get? (jobIdOf step) = some job →
    job.status = .blocked → ¬∀ d ∈ job.dependencies, StepSucceeded store d
  settled : ∀ step ∈ plan.steps,
    (∃ job, store.get? (jobIdOf step) = some job ∧
      (job.status = .succeeded ∨ job.status = .failed ∨ job.status = .policyDenied)) ∨
    ∃ d, DependsOn plan step.key d ∧ ¬StepSucceeded store d

section NothingLeft

variable {plan : ExecutionPlan} {runner : Runner} {maxRounds : ℕ} {s : PlanRun}

/-- The job of a step when the run has returned `completed`. -/
theorem Paced.job (h : Paced plan runner maxRounds s) (hcompleted : s.phase = .returned .completed)
    {step : PlanStep} (hstep : step ∈ plan.steps) :
    ∃ job, s.store.get? (jobIdOf step) = some job ∧ job.dependencies = step.dependencies ∧
      job.state = rounds plan.steps runner maxRounds step.key := by
  have hin := h.inRound
  rw [InRound, show (s.course plan).phase = .returned .completed from hcompleted] at hin
  have hstate := hin step hstep
  rw [course_states, stateOf_step hstep] at hstate
  obtain ⟨job, hjob, hstate⟩ := Option.map_eq_some_iff.mp hstate
  have hidentity := h.orderly.tracks.identity hstep hjob
  simp only [Job.identity, Prod.mk.injEq] at hidentity
  exact ⟨job, hjob, hidentity.2.2.2.1, hstate⟩

theorem Paced.stepSucceeded_iff (h : Paced plan runner maxRounds s)
    (hcompleted : s.phase = .returned .completed) {step : PlanStep} (hstep : step ∈ plan.steps) :
    StepSucceeded s.store step.key ↔
      (rounds plan.steps runner maxRounds step.key).1 = .succeeded := by
  obtain ⟨job, hjob, -, hstate⟩ := h.job hcompleted hstep
  rw [← hstate]
  constructor
  · rintro ⟨other, hother, hstatus⟩
    rw [show "job:" ++ step.key = jobIdOf step from rfl, hjob, Option.some.injEq] at hother
    rw [hother]
    exact hstatus
  · exact fun hstatus => ⟨job, hjob, hstatus⟩

/-- A run that returned `completed` left nothing exactly when nothing is ready after its rounds. -/
theorem Paced.nothingLeft_iff (hkeys : (plan.steps.map PlanStep.key).Nodup)
    (hdependencies : ∀ step ∈ plan.steps, ∀ d ∈ step.dependencies,
      d ∈ plan.steps.map PlanStep.key) (h : Paced plan runner maxRounds s)
    (hcompleted : s.phase = .returned .completed) : NothingLeft plan s.store ↔
      ∀ step ∈ plan.steps, (rounds plan.steps runner maxRounds step.key).1 ≠ .ready := by
  constructor
  · intro hleft step hstep hready
    obtain ⟨job, hjob, -, hstate⟩ := h.job hcompleted hstep
    exact hleft.not_ready step hstep job hjob (by rw [← hready, ← hstate]; rfl)
  · intro hnone
    have hwaits : ∀ step ∈ plan.steps,
        (rounds plan.steps runner maxRounds step.key).1 = .blocked →
        ∃ d ∈ step.dependencies, ¬StepSucceeded s.store d := by
      intro step hstep hblocked
      obtain ⟨d, hd, hne⟩ := SecOpent.not_unblockable hkeys hstep hblocked
      obtain ⟨other, hother, rfl⟩ := List.mem_map.mp (hdependencies step hstep d hd)
      exact ⟨other.key, hd, fun hdone => hne ((h.stepSucceeded_iff hcompleted hother).mp hdone)⟩
    refine ⟨fun step hstep job hjob hready => ?_, fun step hstep job hjob hblocked hall => ?_,
      fun step hstep => ?_⟩
    · obtain ⟨job', hjob', -, hstate⟩ := h.job hcompleted hstep
      rw [hjob, Option.some.injEq] at hjob'
      exact hnone step hstep (by rw [← hstate, ← hjob']; exact hready)
    · obtain ⟨job', hjob', hjobDependencies, hstate⟩ := h.job hcompleted hstep
      rw [hjob, Option.some.injEq] at hjob'
      obtain ⟨d, hd, hnot⟩ := hwaits step hstep (by rw [← hstate, ← hjob']; exact hblocked)
      rw [← hjobDependencies, ← hjob'] at hd
      exact hnot (hall d hd)
    · obtain ⟨job, hjob, -, hstate⟩ := h.job hcompleted hstep
      have hstatus := rounds_status plan.steps runner maxRounds step.key
      rw [← hstate] at hstatus
      simp only [List.mem_cons, List.not_mem_nil, or_false] at hstatus
      rcases hstatus with hblocked | hready | hended
      · obtain ⟨d, hd, hnot⟩ := hwaits step hstep (by rw [← hstate]; exact hblocked)
        exact .inr ⟨d, .single ⟨step, hstep, rfl, hd⟩, hnot⟩
      · exact absurd hready (by rw [hstate]; exact hnone step hstep)
      · exact .inl ⟨job, hjob, hended⟩

end NothingLeft

/-! ## Every plan has a run that returns -/

/-- The run is at the head of the loop, with everything dispatched. -/
structure AtHead (s : PlanRun) (left : ℕ) : Prop where
  phase : s.phase = .scanning left
  undispatched : s.orchestrator.undispatched = []
  idle : s.orchestrator.idle = true
  toMark : s.orchestrator.toMark = []

/-- The run is in a round. -/
structure InExecution (s : PlanRun) (left : ℕ) (executed : Bool) : Prop where
  phase : s.phase = .executing left executed
  undispatched : s.orchestrator.undispatched = []
  toMark : s.orchestrator.toMark = []

/-- What is left to do in a round. -/
def PlanRun.work (s : PlanRun) : ℕ :=
  3 * s.orchestrator.targets.length + 2 * s.orchestrator.submitted.length +
    s.orchestrator.running.length

section Progress

variable {backend : Backend} {ttl : Time} {runner : Runner} {left : ℕ} {executed : Bool}

/-- An access that is possible is a run of one step. -/
theorem exists_access {s : PlanRun} {action : OrchestratorAction} {store' : JobStore}
    {o' : Orchestrator} {phase : RunPhase}
    (hact : s.orchestrator.act backend ttl s.store action = some (store', o'))
    (hafter : s.phase.after o' action = some phase) (hrunner : RunBy runner s (.access action)) :
    ∃ u, Reaches (PlanRun.step backend ttl) (RunBy runner) s u ∧ u.store = store' ∧
      u.orchestrator = o' ∧ u.phase = phase := by
  have hstep : s.step backend ttl (.access action) =
      some ⟨store', o', phase, s.log ++ s.orchestrator.events ttl s.store action⟩ := by
    simp [PlanRun.step, hact, hafter]
  exact ⟨_, Reaches.refl.tail hrunner hstep, rfl, rfl, rfl⟩

theorem exists_atHead (backend : Backend) (ttl : Time) (runner : Runner) (s : PlanRun)
    (hphase : s.phase = .scanning left) (hidle : s.orchestrator.idle = true)
    (htoMark : s.orchestrator.toMark = []) :
    ∃ u, Reaches (PlanRun.step backend ttl) (RunBy runner) s u ∧ AtHead u left := by
  induction hundispatched : s.orchestrator.undispatched generalizing s with
  | nil => exact ⟨s, .refl, hphase, hundispatched, hidle, htoMark⟩
  | cons step rest ih =>
    have hact : s.orchestrator.act backend ttl s.store .dispatchStep =
        some ((s.store.add (jobOf s.orchestrator.planDigest step)).1,
          { s.orchestrator with
            undispatched := rest, steps := s.orchestrator.steps.set step.key step }) := by
      simp [Orchestrator.act, hundispatched]
    obtain ⟨t, hreach, -, ho, hphase'⟩ :=
      exists_access hact (by rw [hphase, RunPhase.after]) trivial
    obtain ⟨u, hreach', hhead⟩ := ih t hphase' (by rw [ho]; exact hidle) (by rw [ho]; exact htoMark)
      (by rw [ho])
    exact ⟨u, hreach.trans hreach', hhead⟩

/-- One step of a round that has work left. -/
theorem InExecution.exists_step (backend : Backend) (ttl : Time) (runner : Runner) {s : PlanRun}
    (h : InExecution s left executed) (hwork : s.orchestrator.idle = false) :
    ∃ u, Reaches (PlanRun.step backend ttl) (RunBy runner) s u ∧ InExecution u left executed ∧
      u.work < s.work := by
  cases hrunning : s.orchestrator.running with
  | cons target rest =>
    obtain ⟨leased, step⟩ := target
    have hget : s.orchestrator.running[0]? = some (leased, step) := by simp [hrunning]
    have hact : s.orchestrator.act backend ttl s.store
        (.report 0 (runner step.key leased.attempt)) =
        some (orElseStore s.store (Orchestrator.reportOutcome s.store leased
            (runner step.key leased.attempt)),
          { s.orchestrator with running := rest }) := by
      simp [Orchestrator.act, hrunning]
    obtain ⟨u, hreach, -, ho, hphase⟩ :=
      exists_access hact (by rw [h.phase, RunPhase.after]) (fun target htarget => by
        rw [hget] at htarget
        rw [← Option.some.inj htarget])
    refine ⟨u, hreach, ⟨hphase, by rw [ho]; exact h.undispatched, by rw [ho]; exact h.toMark⟩, ?_⟩
    simp only [PlanRun.work, ho, hrunning, List.length_cons]
    omega
  | nil =>
    cases hsubmitted : s.orchestrator.submitted with
    | cons target rest =>
      obtain ⟨job, step⟩ := target
      -- A lease that is refused also takes the target away.
      obtain ⟨store', running, hact, hrunning'⟩ : ∃ store' running,
          s.orchestrator.act backend ttl s.store (.lease 0) =
            some (store', { s.orchestrator with submitted := rest, running := running }) ∧
          running.length ≤ 1 := by
        cases hlease : s.store.lease ttl job.id leaseOwnerName s.orchestrator.now with
        | ok result => exact ⟨result.1, [(result.2, step)], by
            simp [Orchestrator.act, hsubmitted, hlease, hrunning], Nat.le_refl _⟩
        | error e => exact ⟨s.store, [], by
            simp [Orchestrator.act, hsubmitted, hlease, hrunning], Nat.zero_le _⟩
      obtain ⟨u, hreach, -, ho, hphase⟩ :=
        exists_access hact (by rw [h.phase, RunPhase.after]) trivial
      refine ⟨u, hreach, ⟨hphase, by rw [ho]; exact h.undispatched, by rw [ho]; exact h.toMark⟩, ?_⟩
      simp only [PlanRun.work, ho, hsubmitted, List.length_cons]
      omega
    | nil =>
      cases htargets : s.orchestrator.targets with
      | nil => simp [Orchestrator.idle, hrunning, hsubmitted, htargets] at hwork
      | cons target rest =>
        have hact : s.orchestrator.act backend ttl s.store .submit =
            some (s.store, { s.orchestrator with targets := rest, submitted := [target] }) := by
          simp [Orchestrator.act, htargets, hsubmitted, hrunning]
        obtain ⟨u, hreach, -, ho, hphase⟩ :=
          exists_access hact (by rw [h.phase, RunPhase.after]) trivial
        refine ⟨u, hreach, ⟨hphase, by rw [ho]; exact h.undispatched, by rw [ho]; exact h.toMark⟩,
          ?_⟩
        simp only [PlanRun.work, ho, htargets, hsubmitted, List.length_cons, List.length_nil]
        omega

/-- The work of a round gets done. -/
theorem InExecution.exists_idle (backend : Backend) (ttl : Time) (runner : Runner) {s : PlanRun}
    (h : InExecution s left executed) :
    ∃ u, Reaches (PlanRun.step backend ttl) (RunBy runner) s u ∧ InExecution u left executed ∧
      u.orchestrator.idle = true := by
  induction hwork : s.work using Nat.strong_induction_on generalizing s with
  | _ n ih =>
    cases hidle : s.orchestrator.idle with
    | true => exact ⟨s, .refl, h, hidle⟩
    | false =>
      obtain ⟨t, hreach, ht, hlt⟩ := h.exists_step backend ttl runner hidle
      obtain ⟨u, hreach', hend⟩ := ih t.work (hwork ▸ hlt) ht rfl
      exact ⟨u, hreach.trans hreach', hend⟩

theorem exists_marked (backend : Backend) (ttl : Time) (runner : Runner) (s : PlanRun)
    (hphase : s.phase = .marking left executed) :
    ∃ u, Reaches (PlanRun.step backend ttl) (RunBy runner) s u ∧
      u.phase = .marking left executed ∧ u.orchestrator = { s.orchestrator with toMark := [] } := by
  induction htoMark : s.orchestrator.toMark generalizing s with
  | nil => exact ⟨s, .refl, hphase, by rw [← htoMark]⟩
  | cons id rest ih =>
    have hact : s.orchestrator.act backend ttl s.store .markReady =
        some (orElseStore s.store (s.store.markReady backend id),
          { s.orchestrator with toMark := rest }) := by
      simp [Orchestrator.act, htoMark]
    obtain ⟨t, hreach, -, ho, hphase'⟩ :=
      exists_access hact (by rw [hphase, RunPhase.after]) trivial
    obtain ⟨u, hreach', hmarking, hu⟩ := ih t hphase' (by rw [ho])
    exact ⟨u, hreach.trans hreach', hmarking, by rw [hu, ho]⟩

/-- The dependencies are resolved when the pool is idle, and the round is over. -/
theorem InExecution.exists_next (backend : Backend) (ttl : Time) (runner : Runner) {s : PlanRun}
    (h : InExecution s left executed) (hidle : s.orchestrator.idle = true) :
    ∃ u, Reaches (PlanRun.step backend ttl) (RunBy runner) s u ∧
      (AtHead u left ∨ u.phase = .returned .completed) := by
  have hgather : s.orchestrator.act backend ttl s.store .scanSucceeded = some (s.store,
      { s.orchestrator with succeeded := succeededKeys s.store.all }) := by
    rw [Orchestrator.act, if_pos hidle]
    rfl
  obtain ⟨t₁, hreach₁, -, ho₁, hphase₁⟩ :=
    exists_access hgather (by rw [h.phase, RunPhase.after]) trivial
  have hidle₁ : t₁.orchestrator.idle = true := by
    rw [ho₁]
    exact hidle
  have hfind := show t₁.orchestrator.act backend ttl t₁.store .scanBlocked = some _ by
    rw [Orchestrator.act, if_pos hidle₁]
  obtain ⟨t₂, hreach₂, -, ho₂, hphase₂⟩ :=
    exists_access hfind (by rw [hphase₁, RunPhase.after]) trivial
  obtain ⟨t₃, hreach₃, hphase₃, ho₃⟩ := exists_marked backend ttl runner t₂ hphase₂
  have htoMark : t₃.orchestrator.toMark = [] := by rw [ho₃]
  have hnext : t₃.step backend ttl .next =
      some { t₃ with phase := if executed then .scanning left else .returned .completed } := by
    rw [PlanRun.step, hphase₃]
    exact if_pos htoMark
  have hany : RunBy runner t₃ .next := trivial
  refine ⟨_, ((hreach₁.trans hreach₂).trans hreach₃).tail hany hnext, ?_⟩
  cases executed with
  | true =>
    refine .inl ⟨rfl, ?_, ?_, htoMark⟩
    · rw [ho₃, ho₂, ho₁]
      exact h.undispatched
    · rw [ho₃, ho₂]
      exact hidle₁
  | false => exact .inr rfl

/-- A round: the run is at the head of the loop again, or has returned. -/
theorem AtHead.exists_round (backend : Backend) (ttl : Time) (runner : Runner) {s : PlanRun}
    (h : AtHead s (left + 1)) :
    ∃ u, Reaches (PlanRun.step backend ttl) (RunBy runner) s u ∧
      (AtHead u left ∨ u.phase = .returned .completed) := by
  have hscan := show s.orchestrator.act backend ttl s.store .scan = some _ by
    rw [Orchestrator.act, h.undispatched, h.idle, h.toMark]
    exact if_pos rfl
  obtain ⟨t₁, hreach₁, -, ho₁, hphase₁⟩ :=
    exists_access hscan (by rw [h.phase, RunPhase.after]) trivial
  have hexecution : InExecution t₁ left _ :=
    ⟨hphase₁, by rw [ho₁], by rw [ho₁]⟩
  obtain ⟨t₂, hreach₂, hexecution, hidle⟩ := hexecution.exists_idle backend ttl runner
  obtain ⟨u, hreach₃, hu⟩ := hexecution.exists_next backend ttl runner hidle
  exact ⟨u, (hreach₁.trans hreach₂).trans hreach₃, hu⟩

/-- From the head of the loop a run returns. -/
theorem AtHead.exists_completed (backend : Backend) (ttl : Time) (runner : Runner) {s : PlanRun}
    (h : AtHead s left) :
    ∃ u, Reaches (PlanRun.step backend ttl) (RunBy runner) s u ∧
      u.phase = .returned .completed := by
  induction left generalizing s with
  | zero =>
    have hstep : s.step backend ttl .exhaust = some { s with phase := .returned .completed } :=
      if_pos ⟨h.phase, h.undispatched⟩
    have hany : RunBy runner s .exhaust := trivial
    exact ⟨_, Reaches.refl.tail hany hstep, rfl⟩
  | succ left ih =>
    obtain ⟨t, hreach, hhead | hreturned⟩ := h.exists_round backend ttl runner
    · obtain ⟨u, hreach', hu⟩ := ih hhead
      exact ⟨u, hreach.trans hreach', hu⟩
    · exact ⟨t, hreach, hreturned⟩

/-- **Every plan has a run that returns**, whatever the runner does. -/
theorem exists_completed (plan : ExecutionPlan) (store : JobStore) (backend : Backend) (ttl now : Time)
    (maxWorkers maxRounds : ℕ) (runner : Runner) :
    ∃ s, Reaches (PlanRun.step backend ttl) (RunBy runner)
      (.start plan store maxWorkers now maxRounds) s ∧ s.phase = .returned .completed := by
  obtain ⟨t, hreach, hhead⟩ := exists_atHead backend ttl runner
    (.start plan store maxWorkers now maxRounds) rfl rfl rfl
  obtain ⟨s, hreach', hreturned⟩ := hhead.exists_completed backend ttl runner
  exact ⟨s, hreach.trans hreach', hreturned⟩

end Progress

/-! ## What `completed` means -/

/-- **What `completed` means**: a run of a plan that is new to the store, with any runner and any
number of workers, that returned `completed` has left nothing to run exactly when every step that
runs ends within the rounds, where a step needs a round for each of its attempts, after the round in
which the last of its dependencies succeeds. -/
theorem nothing_left_iff {planId assessmentId digest : String} {version : ℕ}
    {steps : List PlanStep} {plan : ExecutionPlan}
    (hplan : ExecutionPlan.create planId assessmentId version steps digest = .ok plan)
    {store : JobStore} (hnew : NewPlan plan store) {backend : Backend} {ttl now : Time}
    {maxWorkers maxRounds : ℕ} {runner : Runner} {s : PlanRun}
    (hrun : Reaches (PlanRun.step backend ttl) (RunBy runner)
      (.start plan store maxWorkers now maxRounds) s)
    (hcompleted : s.phase = .returned .completed) :
    NothingLeft plan s.store ↔ ∀ key n, FinishesIn plan.steps runner key n → n ≤ maxRounds := by
  have hkeys := (ExecutionPlan.create_ok hplan).2
  have hdependencies := ExecutionPlan.create_dependencies hplan
  have hpaced := paced hkeys hdependencies hnew hrun
  rw [hpaced.nothingLeft_iff hkeys hdependencies hcompleted]
  exact none_ready_iff hkeys hdependencies

/-- The rounds of `run_to_completion`, by default. -/
def defaultRounds : ℕ := 100

/-- A plan of one step is done within the rounds, whatever the runner does. -/
theorem nothing_left_one : ∃ s,
    Reaches (PlanRun.step .memory 300) (RunBy fun _ _ => .failure .timeout)
      (.start (JobSystem.onePlan "as-1" "digest") .empty 1 0 defaultRounds) s ∧
    s.phase = .returned .completed ∧ NothingLeft (JobSystem.onePlan "as-1" "digest") s.store := by
  have hplan : ExecutionPlan.create "plan-as-1" "as-1" 1 (JobSystem.onePlan "as-1" "digest").steps
      "digest" = .ok (JobSystem.onePlan "as-1" "digest") := by
    decide +kernel
  obtain ⟨s, hrun, hcompleted⟩ := exists_completed (JobSystem.onePlan "as-1" "digest") .empty .memory
    300 0 1 defaultRounds fun _ _ => .failure .timeout
  refine ⟨s, hrun, hcompleted, ?_⟩
  refine (nothing_left_iff hplan (newPlan_empty _) hrun hcompleted).mpr fun key n hfinishes => ?_
  cases hfinishes with
  | @intro step last hstep _ _ =>
    rw [List.mem_singleton.mp hstep]
    have hle := attemptsOf_le (fun _ _ => .failure .timeout) "scan"
    simp only [maxAttempts, defaultRounds, List.toFinset_nil, Finset.sup_empty, bot_eq_zero'] at hle ⊢
    omega

/-! ### A plan that is too deep -/

/-- The key of a step of the chain. -/
def deepKey (i : ℕ) : String := "s" ++ toString i

/-- A step of the chain, after the one before it. -/
def deepStep (i : ℕ) : PlanStep :=
  ⟨deepKey i, "nmap", .low, .empty, if i = 0 then [] else [deepKey (i - 1)]⟩

/-- A chain of steps. -/
def deepSteps (length : ℕ) : List PlanStep := (List.range length).map deepStep

/-- Every step times out twice and then succeeds. -/
def slowRunner : Runner := fun _ attempt =>
  if attempt < 3 then .failure .timeout else .result "done"

theorem attemptsOf_slowRunner (key : String) : attemptsOf slowRunner key = 3 := by
  rw [attemptsOf, Nat.find_eq_iff]
  refine ⟨⟨by decide, JobStatus.noConfusion⟩, fun n hn => ?_⟩
  rintro ⟨hpos, hfinal⟩
  have hcases : n = 1 ∨ n = 2 := by omega
  rcases hcases with rfl | rfl
  · exact hfinal rfl
  · exact hfinal rfl

/-- The steps of the chain end three rounds apart. -/
theorem finishesIn_deepStep {length i : ℕ} (h : i < length) :
    FinishesIn (deepSteps length) slowRunner (deepKey i) (3 * (i + 1)) := by
  induction i with
  | zero =>
    have hmem : deepStep 0 ∈ deepSteps length :=
      List.mem_map.mpr ⟨0, List.mem_range.mpr h, rfl⟩
    have hfinishes := @FinishesIn.intro _ slowRunner _ (fun _ => 0) hmem (by simp [deepStep])
      (by simp [deepStep])
    rw [attemptsOf_slowRunner] at hfinishes
    exact hfinishes
  | succ i ih =>
    have hmem : deepStep (i + 1) ∈ deepSteps length :=
      List.mem_map.mpr ⟨i + 1, List.mem_range.mpr h, rfl⟩
    have hfinishes := @FinishesIn.intro _ slowRunner _ (fun _ => 3 * (i + 1)) hmem
      (fun d hd => ?_) (fun d _ => ?_)
    · rw [attemptsOf_slowRunner] at hfinishes
      have hsup : (deepStep (i + 1)).dependencies.toFinset.sup (fun _ => 3 * (i + 1)) =
          3 * (i + 1) := by
        simp [deepStep]
      rw [hsup] at hfinishes
      exact hfinishes
    · have hd' : d = deepKey i := by simpa [deepStep] using hd
      rw [hd']
      exact ih (by omega)
    · exact ⟨"done", by rw [attemptsOf_slowRunner]; rfl⟩

/-- A plan of 34 steps in a chain, each of which succeeds at the third attempt, needs 102 rounds: after
the 100 rounds of the default it is reported as completed, with a step that is ready. -/
theorem deep_plan_left_ready :
    ∃ plan s, ExecutionPlan.create "plan-1" "as-1" 1 (deepSteps 34) "digest" = .ok plan ∧
      Reaches (PlanRun.step .memory 300) (RunBy slowRunner)
        (.start plan .empty 1 0 defaultRounds) s ∧
      s.phase = .returned .completed ∧ ¬NothingLeft plan s.store ∧
      ∃ job ∈ s.store.all, job.status = .ready := by
  have hplan : ExecutionPlan.create "plan-1" "as-1" 1 (deepSteps 34) "digest" =
      .ok ⟨"plan-1", "as-1", 1, deepSteps 34, "digest"⟩ := by
    decide +kernel
  set plan : ExecutionPlan := ⟨"plan-1", "as-1", 1, deepSteps 34, "digest"⟩
  have hkeys := (ExecutionPlan.create_ok hplan).2
  have hdependencies := ExecutionPlan.create_dependencies hplan
  obtain ⟨s, hrun, hcompleted⟩ :=
    exists_completed plan .empty .memory 300 0 1 defaultRounds slowRunner
  have hpaced := paced hkeys hdependencies (newPlan_empty plan) hrun
  -- The last step of the chain ends in round 102.
  have hnot : ¬∀ step ∈ plan.steps,
      (rounds plan.steps slowRunner defaultRounds step.key).1 ≠ .ready := by
    rw [none_ready_iff hkeys hdependencies]
    intro hall
    have hlate : 3 * (33 + 1) ≤ defaultRounds :=
      hall (deepKey 33) _ (finishesIn_deepStep (by decide))
    exact absurd hlate (by decide)
  refine ⟨plan, s, hplan, hrun, hcompleted, ?_, ?_⟩
  · rw [hpaced.nothingLeft_iff hkeys hdependencies hcompleted]
    exact hnot
  · push Not at hnot
    obtain ⟨step, hstep, hready⟩ := hnot
    obtain ⟨job, hjob, -, hstate⟩ := hpaced.job hcompleted hstep
    have hid : job.id = jobIdOf step := JobStore.id_of_get? hjob
    exact ⟨job, JobStore.mem_all.mpr (hid ▸ hjob), by rw [← hready, ← hstate]; rfl⟩

end SecOpent
