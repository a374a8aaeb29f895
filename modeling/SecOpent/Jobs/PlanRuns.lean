import Mathlib.Data.List.Perm.Basic
import SecOpent.Jobs.Board
import SecOpent.Jobs.Course

/-!
# Runs of one orchestrator

`Orchestrator.dispatch` and `run_to_completion`, from the dispatch of a plan that the store does not
know: rounds of leasing, running and reporting, on any number of workers, and after each round the
dependencies are resolved. The gate may stop the run before any target, and a step may end in any
way. Every access to the store is one action of the orchestrator; the phase says which actions come
next.

## Main definitions

* `PlanRun`, `PlanRun.step`: the run, with a log of the steps that began and ended
* `PlanRun.course`: the course of a run, without its job store
* `Tracks`: what the orchestrator holds is what the store says about the jobs of the plan

## Main results

* `Tracks.step`: every step keeps the orchestrator and the store together, and is a step of the course
* `ran_in_order`: dependencies first, no more attempts than allowed, no retry after a policy failure
-/

namespace SecOpent

open Python Transition

/-! ## The run -/

/-- A run of one orchestrator. `log` is a record of the model. -/
structure PlanRun where
  store : JobStore
  orchestrator : Orchestrator
  phase : RunPhase
  log : List RunEvent := []

/-- An access to the store, or a move of `run_to_completion` itself. -/
inductive RunLabel
  | access (action : OrchestratorAction)
  /-- No round is left. -/
  | exhaust
  /-- The gate answers something else than to go on. -/
  | stop (answer : RunAnswer)
  /-- The pool is joined after a stop. -/
  | leave
  /-- A round is over. -/
  | next
  deriving DecidableEq

/-- The actions of a phase, and the phase after them; `o` is the orchestrator after the action. -/
def RunPhase.after (o : Orchestrator) : RunPhase → OrchestratorAction → Option RunPhase
  | .scanning rounds, .dispatchStep => some (.scanning rounds)
  | .scanning (rounds + 1), .scan => some (.executing rounds (!o.targets.isEmpty))
  | .executing rounds executed, .submit => some (.executing rounds executed)
  | .executing rounds executed, .lease _ => some (.executing rounds executed)
  | .executing rounds executed, .renew _ _ => some (.executing rounds executed)
  | .executing rounds executed, .report _ _ => some (.executing rounds executed)
  | .executing rounds executed, .scanSucceeded => some (.resolving rounds executed)
  | .resolving rounds executed, .scanBlocked => some (.marking rounds executed)
  | .marking rounds executed, .markReady => some (.marking rounds executed)
  | .stopping answer, .lease _ => some (.stopping answer)
  | .stopping answer, .renew _ _ => some (.stopping answer)
  | .stopping answer, .report _ _ => some (.stopping answer)
  | _, _ => none

section After

variable {o : Orchestrator} {phase phase' : RunPhase}

theorem after_dispatchStep (h : phase.after o .dispatchStep = some phase') :
    phase' = phase ∧ ∃ rounds, phase = .scanning rounds := by
  cases phase with
  | scanning rounds =>
    simp only [RunPhase.after, Option.some.injEq] at h
    exact ⟨h.symm, rounds, rfl⟩
  | _ => cases h

theorem after_scan (h : phase.after o .scan = some phase') :
    ∃ rounds, phase = .scanning (rounds + 1) ∧ phase' = .executing rounds (!o.targets.isEmpty) := by
  cases phase with
  | scanning rounds =>
    cases rounds with
    | zero => cases h
    | succ rounds => exact ⟨rounds, rfl, (Option.some.inj h).symm⟩
  | _ => cases h

theorem after_submit (h : phase.after o .submit = some phase') :
    phase' = phase ∧ ∃ rounds executed, phase = .executing rounds executed := by
  cases phase with
  | executing rounds executed => exact ⟨(Option.some.inj h).symm, rounds, executed, rfl⟩
  | scanning rounds => cases rounds <;> cases h
  | _ => cases h

/-- A step is leased, renewed or reported in a round, or when the pool is joined after a stop. -/
theorem after_worker {action : OrchestratorAction}
    (haction : (∃ index, action = .lease index) ∨ (∃ index time, action = .renew index time) ∨
      ∃ index outcome, action = .report index outcome)
    (h : phase.after o action = some phase') :
    phase' = phase ∧ phase.RunsSteps := by
  rcases haction with ⟨_, rfl⟩ | ⟨_, _, rfl⟩ | ⟨_, _, rfl⟩
  all_goals
    cases phase with
    | executing rounds executed =>
      exact ⟨(Option.some.inj h).symm, .inl ⟨rounds, executed, rfl⟩⟩
    | stopping answer => exact ⟨(Option.some.inj h).symm, .inr ⟨answer, rfl⟩⟩
    | scanning rounds => cases rounds <;> cases h
    | _ => cases h

theorem RunPhase.RunsSteps.ne_resolving (h : phase.RunsSteps) (rounds : ℕ) (executed : Bool) :
    phase ≠ .resolving rounds executed := by
  rcases h with ⟨_, _, rfl⟩ | ⟨_, rfl⟩ <;> exact RunPhase.noConfusion

theorem after_scanSucceeded (h : phase.after o .scanSucceeded = some phase') :
    ∃ rounds executed, phase = .executing rounds executed ∧ phase' = .resolving rounds executed := by
  cases phase with
  | executing rounds executed => exact ⟨rounds, executed, rfl, (Option.some.inj h).symm⟩
  | scanning rounds => cases rounds <;> cases h
  | _ => cases h

theorem after_scanBlocked (h : phase.after o .scanBlocked = some phase') :
    ∃ rounds executed, phase = .resolving rounds executed ∧ phase' = .marking rounds executed := by
  cases phase with
  | resolving rounds executed => exact ⟨rounds, executed, rfl, (Option.some.inj h).symm⟩
  | scanning rounds => cases rounds <;> cases h
  | _ => cases h

theorem after_markReady (h : phase.after o .markReady = some phase') :
    phase' = phase ∧ ∃ rounds executed, phase = .marking rounds executed := by
  cases phase with
  | marking rounds executed => exact ⟨(Option.some.inj h).symm, rounds, executed, rfl⟩
  | scanning rounds => cases rounds <;> cases h
  | _ => cases h

/-- The other actions belong to cancel handling. -/
theorem after_skip {action : OrchestratorAction}
    (haction : action = .abort ∨ action = .scanUnfinished ∨ action = .skipNext) :
    phase.after o action = none := by
  rcases haction with rfl | rfl | rfl
  all_goals
    cases phase with
    | scanning rounds => cases rounds <;> rfl
    | _ => rfl

end After

/-- The calls of the runner that an action begins or ends. -/
def Orchestrator.events (ttl : Time) (store : JobStore) (o : Orchestrator) :
    OrchestratorAction → List RunEvent
  | .lease index =>
    match o.submitted[index]? with
    | none => []
    | some (job, step) =>
      match store.lease ttl job.id leaseOwnerName o.now with
      | .ok (_, leased) => [.began step.key leased.attempt]
      | .error _ => []
  | .report index outcome =>
    match o.running[index]? with
    | none => []
    | some (leased, step) => [.ended step.key leased.attempt outcome]
  | _ => []

namespace PlanRun

/-- `Orchestrator(jobs, runner, max_workers)`, and then `dispatch(plan)` and
`run_to_completion(max_rounds)`. -/
def start (plan : ExecutionPlan) (store : JobStore) (maxWorkers : ℕ) (now : Time)
    (maxRounds : ℕ) : PlanRun where
  store := store
  orchestrator := .start plan maxWorkers now
  phase := .scanning maxRounds

/-- One step of a run. -/
def step (backend : Backend) (ttl : Time) (s : PlanRun) : RunLabel → Option PlanRun
  | .access action => do
    let (store', o') ← s.orchestrator.act backend ttl s.store action
    let phase ← s.phase.after o' action
    some ⟨store', o', phase, s.log ++ s.orchestrator.events ttl s.store action⟩
  | .exhaust =>
    if s.phase = .scanning 0 ∧ s.orchestrator.undispatched = [] then
      some { s with phase := .returned .completed }
    else none
  | .stop answer =>
    match s.phase with
    | .executing _ _ =>
      -- One worker asks the gate when the step before has ended.
      if answer ≠ .completed ∧ s.orchestrator.targets ≠ [] ∧
          (1 < s.orchestrator.maxWorkers ∨
            (s.orchestrator.submitted = [] ∧ s.orchestrator.running = [])) then
        some { s with
          orchestrator := { s.orchestrator with targets := [] }
          phase := .stopping answer }
      else none
    | _ => none
  | .leave =>
    match s.phase with
    | .stopping answer =>
      if s.orchestrator.idle then some { s with phase := .returned answer } else none
    | _ => none
  | .next =>
    match s.phase with
    | .marking rounds executed =>
      if s.orchestrator.toMark = [] then
        some { s with phase := if executed then .scanning rounds else .returned .completed }
      else none
    | _ => none

end PlanRun

/-- An access of a run. -/
theorem step_access {s s' : PlanRun} {backend : Backend} {ttl : Time} {action : OrchestratorAction}
    (h : s.step backend ttl (.access action) = some s') :
    ∃ store' o' phase, s.orchestrator.act backend ttl s.store action = some (store', o') ∧
      s.phase.after o' action = some phase ∧
      s' = ⟨store', o', phase, s.log ++ s.orchestrator.events ttl s.store action⟩ := by
  simp only [PlanRun.step, Option.bind_eq_bind, Option.bind_eq_some_iff, Prod.exists,
    Option.some.injEq] at h
  obtain ⟨store', o', hact, phase, hphase, rfl⟩ := h
  exact ⟨store', o', phase, hact, hphase, rfl⟩

/-! ## The store and the orchestrator -/

/-- What no operation changes in a job. -/
def Job.identity (job : Job) : String × String × String × List String × ℕ :=
  (job.id, job.planStepKey, job.idempotencyKey, job.dependencies, job.maxAttempts)

/-- A job in the store that shares an id, a step key or an idempotency key with a step of the plan. -/
def Job.Claims (plan : ExecutionPlan) (job : Job) (step : PlanStep) : Prop :=
  job.id = jobIdOf step ∨ job.planStepKey = step.key ∨
    job.idempotencyKey = (jobOf plan.digest step).idempotencyKey

/-- The plan is new to the store. -/
def NewPlan (plan : ExecutionPlan) (store : JobStore) : Prop :=
  ∀ job ∈ store.all, ∀ step ∈ plan.steps, ¬job.Claims plan step

theorem newPlan_empty (plan : ExecutionPlan) : NewPlan plan .empty := by
  intro job hjob
  simp [JobStore.all, JobStore.empty, Dict.values, Dict.empty] at hjob

/-- The jobs of the plan are those that were dispatched. -/
structure Identified (plan : ExecutionPlan) (store : JobStore) (o : Orchestrator) : Prop where
  digest : o.planDigest = plan.digest
  known : ∀ key step, o.steps.get? key = some step → step ∈ plan.steps ∧ step.key = key
  dispatched : ∃ done, plan.steps = done ++ o.undispatched ∧
    ∀ step ∈ done, o.steps.get? step.key = some step ∧ ∃ job, store.get? (jobIdOf step) = some job
  fresh : ∀ step ∈ o.undispatched, ∀ job ∈ store.all, ¬job.Claims plan step
  own : ∀ job ∈ store.all, ∀ step ∈ plan.steps, job.Claims plan step →
    job.identity = (jobOf plan.digest step).identity

section Identified

variable {plan : ExecutionPlan} {store : JobStore} {o o' : Orchestrator}

theorem mem_put {job other : Job} (h : other ∈ (store.put job).all) :
    other = job ∨ other ∈ store.all := by
  have hget := JobStore.mem_all.mp h
  rw [JobStore.get?_put] at hget
  split at hget
  · exact .inl (Option.some.inj hget).symm
  · exact .inr (JobStore.mem_all.mpr hget)

theorem Job.Claims.of_identity {job job' : Job} {step : PlanStep} (h : job.Claims plan step)
    (hidentity : job.identity = job'.identity) : job'.Claims plan step := by
  simp only [Job.identity, Prod.mk.injEq] at hidentity
  obtain ⟨hid, hkey, hidempotency, -⟩ := hidentity
  rw [Job.Claims, ← hid, ← hkey, ← hidempotency]
  exact h

/-- A write that leaves the identity of a job alone. -/
theorem Identified.put (h : Identified plan store o) {job old : Job}
    (hold : store.get? job.id = some old) (hidentity : job.identity = old.identity) :
    Identified plan (store.put job) o := by
  have hmem : old ∈ store.all := by
    have hid : old.id = job.id := JobStore.id_of_get? hold
    exact JobStore.mem_all.mpr (hid ▸ hold)
  refine ⟨h.digest, h.known, ?_, ?_, ?_⟩
  · obtain ⟨done, hdone, hsteps⟩ := h.dispatched
    refine ⟨done, hdone, fun step hstep => ⟨(hsteps step hstep).1, ?_⟩⟩
    rw [JobStore.get?_put]
    split
    · exact ⟨job, rfl⟩
    · exact (hsteps step hstep).2
  · intro step hstep other hother hclaims
    rcases mem_put hother with rfl | hother
    · exact h.fresh step hstep old hmem (hclaims.of_identity hidentity)
    · exact h.fresh step hstep other hother hclaims
  · intro other hother step hstep hclaims
    rcases mem_put hother with rfl | hother
    · rw [hidentity]
      exact h.own old hmem step hstep (hclaims.of_identity hidentity)
    · exact h.own other hother step hstep hclaims

theorem Identified.congr (h : Identified plan store o) (hdigest : o'.planDigest = o.planDigest)
    (hsteps : o'.steps = o.steps) (hundispatched : o'.undispatched = o.undispatched) :
    Identified plan store o' := by
  refine ⟨hdigest.trans h.digest, ?_, ?_, ?_, h.own⟩
  · rw [hsteps]
    exact h.known
  · rw [hsteps, hundispatched]
    exact h.dispatched
  · rw [hundispatched]
    exact h.fresh

/-- The next step is dispatched: no job of the store claims it, so its job is added. -/
theorem Identified.dispatch (h : Identified plan store o) (hkeys : (plan.steps.map PlanStep.key).Nodup)
    {step : PlanStep} {rest : List PlanStep} (hundispatched : o.undispatched = step :: rest) :
    (store.add (jobOf o.planDigest step)).1 = store.put (jobOf plan.digest step) ∧
      Identified plan (store.put (jobOf plan.digest step))
        { o with undispatched := rest, steps := o.steps.set step.key step } := by
  have hfresh := h.fresh step (by simp [hundispatched])
  obtain ⟨done, hdone, hsteps⟩ := h.dispatched
  rw [hundispatched] at hdone
  have hmem : step ∈ plan.steps := by simp [hdone]
  have hinj : ∀ other ∈ plan.steps, other.key = step.key → other = step := fun other hother hkey =>
    List.inj_on_of_nodup_map hkeys hother hmem hkey
  -- The job of the step claims no other step.
  have hclaims : ∀ other ∈ plan.steps, (jobOf plan.digest step).Claims plan other → other = step := by
    intro other hother hclaims
    refine hinj other hother ?_
    rcases hclaims with hid | hkey | hkey
    · exact (jobIdOf_inj hid).symm
    · exact hkey.symm
    · have hlist := congrArg String.toList hkey
      exact String.toList_inj.mp (by simpa [jobOf] using hlist.symm)
  constructor
  · rw [h.digest]
    rcases store.add_cases (jobOf plan.digest step) with ⟨existing, hexisting, hkey, -⟩ | ⟨-, hadd⟩
    · exact absurd (.inr (.inr hkey)) (hfresh existing hexisting)
    · rw [hadd]
  refine ⟨h.digest, fun key other hget => ?_, ⟨done ++ [step], by simp [hdone], ?_⟩, ?_, ?_⟩
  · rw [Dict.get?_set] at hget
    split at hget
    next heq =>
      cases hget
      exact ⟨hmem, heq.symm⟩
    next => exact h.known key other hget
  · intro other hother
    rw [hdone, List.map_append, List.map_cons] at hkeys
    rcases List.mem_append.mp hother with hother | hother
    · have hne : other.key ≠ step.key := fun heq =>
        List.disjoint_of_nodup_append hkeys (List.mem_map_of_mem hother)
          (by rw [heq]; exact List.mem_cons_self)
      refine ⟨by rw [Dict.get?_set, if_neg hne]; exact (hsteps other hother).1, ?_⟩
      rw [JobStore.get?_put]
      split
      · exact ⟨_, rfl⟩
      · exact (hsteps other hother).2
    · rw [List.mem_singleton.mp hother]
      exact ⟨by simp, _, by rw [JobStore.get?_put]; exact if_pos rfl⟩
  · intro other hother job hjob hclaim
    have hother' : other ∈ plan.steps := by simp [hdone, hother]
    rcases mem_put hjob with rfl | hjob
    · -- The keys of the steps that are left are other keys.
      rw [hclaims other hother' hclaim] at hother
      rw [hdone, List.map_append, List.map_cons] at hkeys
      exact (List.nodup_cons.mp hkeys.of_append_right).1 (List.mem_map_of_mem hother)
    · exact h.fresh other (by simp [hundispatched, hother]) job hjob hclaim
  · intro job hjob other hother hclaim
    rcases mem_put hjob with rfl | hjob
    · rw [hclaims other hother hclaim]
    · exact h.own job hjob other hother hclaim

end Identified

/-! ## The course of a run -/

/-- The status and the attempts of a job. -/
def Job.state (job : Job) : JobStatus × ℕ := (job.status, job.attempt)

/-- The states of the steps of the plan, by key. -/
def stateOf (plan : ExecutionPlan) (store : JobStore) (key : String) : Option (JobStatus × ℕ) :=
  if key ∈ plan.steps.map PlanStep.key then (store.get? ("job:" ++ key)).map Job.state else none

/-- The keys of some targets. -/
def targetKeys (targets : List (Job × PlanStep)) : List String :=
  targets.map fun target => target.2.key

/-- The course of a run. -/
def PlanRun.course (plan : ExecutionPlan) (s : PlanRun) : Course where
  states := stateOf plan s.store
  waiting := (targetKeys (s.orchestrator.targets ++ s.orchestrator.submitted)).toFinset
  running := (targetKeys s.orchestrator.running).toFinset
  marked := ((plan.steps.filter fun step => jobIdOf step ∈ s.orchestrator.toMark).map
    PlanStep.key).toFinset
  phase := s.phase
  log := s.log

@[simp] theorem course_states (plan : ExecutionPlan) (s : PlanRun) :
    (s.course plan).states = stateOf plan s.store := rfl

section States

variable {plan : ExecutionPlan} {store : JobStore} {step : PlanStep} {job old : Job}

theorem stateOf_step (hstep : step ∈ plan.steps) :
    stateOf plan store step.key = (store.get? (jobIdOf step)).map Job.state :=
  if_pos (List.mem_map_of_mem hstep)

/-- A write of the job of a step. -/
theorem stateOf_put (hstep : step ∈ plan.steps) (hid : job.id = jobIdOf step) :
    stateOf plan (store.put job) =
      Function.update (stateOf plan store) step.key (some job.state) := by
  funext key
  by_cases heq : key = step.key
  · rw [heq, Function.update_self, stateOf_step hstep, JobStore.get?_put, if_pos hid.symm]
    rfl
  · have hne : "job:" ++ key ≠ job.id := fun h => heq (jobId_inj (h.trans hid))
    rw [Function.update_of_ne heq, stateOf, stateOf, JobStore.get?_put, if_neg hne]

/-- A write that keeps the state of the job. -/
theorem stateOf_put_same (hold : store.get? job.id = some old) (hstate : job.state = old.state) :
    stateOf plan (store.put job) = stateOf plan store := by
  funext key
  rw [stateOf, stateOf, JobStore.get?_put]
  split_ifs with hmem hid
  · rw [hid, hold, Option.map_some, Option.map_some, hstate]
  · rfl
  · rfl

/-- A write of a job that is not one of the plan. -/
theorem stateOf_put_other (h : ∀ step ∈ plan.steps, job.id ≠ jobIdOf step) :
    stateOf plan (store.put job) = stateOf plan store := by
  funext key
  rw [stateOf, stateOf, JobStore.get?_put]
  split_ifs with hmem hid
  · obtain ⟨step, hstep, rfl⟩ := List.mem_map.mp hmem
    exact absurd hid.symm (h step hstep)
  · rfl
  · rfl

theorem exists_of_stateOf {key : String} {x : JobStatus × ℕ} (h : stateOf plan store key = some x) :
    ∃ step ∈ plan.steps, step.key = key ∧ ∃ job, store.get? (jobIdOf step) = some job ∧
      job.state = x := by
  rw [stateOf] at h
  split_ifs at h with hmem
  obtain ⟨step, hstep, rfl⟩ := List.mem_map.mp hmem
  obtain ⟨job, hjob, rfl⟩ := Option.map_eq_some_iff.mp h
  exact ⟨step, hstep, rfl, job, hjob, rfl⟩

end States

end SecOpent
