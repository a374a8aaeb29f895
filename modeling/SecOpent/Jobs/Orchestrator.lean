import SecOpent.Jobs.Store
import SecOpent.Transition.Runs

/-!
# Orchestrators on a shared job store

`application/orchestrator.py`, and the cancel handling of `application/execution.py`: a plan is
dispatched as jobs, and rounds of leasing and running follow until nothing is leaseable. Several
orchestrators may work on one store, and every access to the store is one atomic action; what an
orchestrator read in one action it uses in a later one.

## Main definitions

* `Orchestrator`: what one `run_to_completion` holds between its accesses to the store
* `OrchestratorAction`, `Orchestrator.act`: one access
* `Orchestrator.Acts`: the ways in which an access goes
* `JobSystem`, `JobSystem.step`: any number of orchestrators, in any interleaving, with two
  records that the program does not keep: for which assessment a job was dispatched, and which
  worker holds its lease

## Main results

* `act_cases`: every access goes in one of these ways
* `act_frame`: an action writes at most the job it names
* `act_ids`: where the jobs come from that an orchestrator is about to touch
* `act_running`: which steps an orchestrator runs after an action
-/

namespace SecOpent

open Python

/-- What running a step gives: a result digest, or a `StepFailure`. -/
inductive StepOutcome
  | result (digest : String)
  | failure (failureClass : FailureClass)
  deriving DecidableEq

/-- `Orchestrator`, during a run. -/
structure Orchestrator where
  /-- Whether its process is still there. -/
  alive : Bool := true
  assessmentId : String
  planDigest : String
  maxWorkers : ℕ
  /-- `now`, read once when the run starts. -/
  now : Time
  /-- `_steps`. -/
  steps : Dict String PlanStep := .empty
  undispatched : List PlanStep
  /-- The targets of the round that are still before the gate. -/
  targets : List (Job × PlanStep) := []
  /-- The targets past the gate that are not leased yet. -/
  submitted : List (Job × PlanStep) := []
  /-- The leased jobs whose step is running. -/
  running : List (Job × PlanStep) := []
  /-- `succeeded`, in `_resolve_dependencies`. -/
  succeeded : List String := []
  toMark : List String := []
  toSkip : List String := []

/-- One access of an orchestrator to the job store, or a local move between two of them. -/
inductive OrchestratorAction
  | dispatchStep
  | scan
  | submit
  | abort
  | lease (index : ℕ)
  | renew (index : ℕ) (time : Time)
  | report (index : ℕ) (outcome : StepOutcome)
  | scanSucceeded
  | scanBlocked
  | markReady
  | scanUnfinished
  | skipNext
  deriving DecidableEq

/-- `id=f"job:{step.key}"`. -/
def jobIdOf (step : PlanStep) : String := "job:" ++ step.key

/-- The job that `dispatch` creates for a step. -/
def jobOf (planDigest : String) (step : PlanStep) : Job where
  id := jobIdOf step
  planStepKey := step.key
  idempotencyKey := planDigest ++ ":" ++ step.key
  dependencies := step.dependencies
  status := if step.dependencies = [] then .ready else .blocked

/-- The owner that every drain leases under. -/
def leaseOwnerName : String := "system"

/-- The statuses that cancel handling skips. -/
def unfinishedStatuses : List JobStatus := [.ready, .blocked, .pending, .leased]

/-- The store after a result that may have raised. -/
def orElseStore (store : JobStore) : Except JobError JobStore → JobStore
  | .ok store' => store'
  | .error _ => store

namespace Orchestrator

/-- `Orchestrator(jobs, runner, max_workers)` at the start of a drain of `plan`. -/
def start (plan : ExecutionPlan) (maxWorkers : ℕ) (now : Time) : Orchestrator where
  assessmentId := plan.assessmentId
  planDigest := plan.digest
  maxWorkers := maxWorkers
  now := now
  undispatched := plan.steps

/-- The process dies, and with it everything that was not in the store. -/
def crashed (o : Orchestrator) : Orchestrator :=
  { o with
    alive := false
    undispatched := []
    targets := []
    submitted := []
    running := []
    toMark := []
    toSkip := [] }

/-- No target is waiting and no step is running: the pool has been joined. -/
def idle (o : Orchestrator) : Bool := o.targets.isEmpty && o.submitted.isEmpty && o.running.isEmpty

/-- The store operation that reports an outcome: `complete`, or `_handle_failure`. -/
def reportOutcome (store : JobStore) (leased : Job) : StepOutcome → Except JobError JobStore
  | .result digest => store.complete leased.id digest
  | .failure failure =>
    if failure ∈ policyFailures then store.fail leased.id failure
    else if failure ∈ retryableFailures ∧ leased.attempt < leased.maxAttempts then
      store.requeue leased.id
    else store.fail leased.id failure

/-- One action of an orchestrator on the store. -/
def act (backend : Backend) (ttl : Time) (store : JobStore) (o : Orchestrator) :
    OrchestratorAction → Option (JobStore × Orchestrator)
  | .dispatchStep =>
    match o.undispatched with
    | [] => none
    | step :: rest =>
      some ((store.add (jobOf o.planDigest step)).1,
        { o with undispatched := rest, steps := o.steps.set step.key step })
  | .scan =>
    if o.undispatched.isEmpty && o.idle && o.toMark.isEmpty then
      some (store, { o with
        targets := (store.leaseable o.now).filterMap fun job =>
          (o.steps.get? job.planStepKey).map fun step => (job, step) })
    else none
  | .submit =>
    match o.targets with
    | [] => none
    | target :: rest =>
      -- One worker executes a target before it asks the gate about the next one.
      if 1 < o.maxWorkers || (o.submitted.isEmpty && o.running.isEmpty) then
        some (store, { o with targets := rest, submitted := o.submitted ++ [target] })
      else none
  | .abort => some (store, { o with targets := [] })
  | .lease index =>
    match o.submitted[index]? with
    | none => none
    | some (job, step) =>
      match store.lease ttl job.id leaseOwnerName o.now with
      | .ok (store', leased) =>
        some (store', { o with
          submitted := o.submitted.eraseIdx index, running := o.running ++ [(leased, step)] })
      | .error _ => some (store, { o with submitted := o.submitted.eraseIdx index })
  | .renew index time =>
    match o.running[index]? with
    | none => none
    | some (leased, _) => some (orElseStore store (store.renew ttl leased.id leaseOwnerName time), o)
  | .report index outcome =>
    match o.running[index]? with
    | none => none
    | some (leased, _) =>
      some (orElseStore store (reportOutcome store leased outcome),
        { o with running := o.running.eraseIdx index })
  | .scanSucceeded =>
    if o.idle then
      some (store, { o with
        succeeded := (store.all.filter fun job => job.status == .succeeded).map Job.planStepKey })
    else none
  | .scanBlocked =>
    if o.idle then
      some (store, { o with
        toMark := (store.all.filter fun job =>
          job.status == .blocked && job.dependencies.all fun d => d ∈ o.succeeded).map Job.id })
    else none
  | .markReady =>
    match o.toMark with
    | [] => none
    | id :: rest => some (orElseStore store (store.markReady backend id), { o with toMark := rest })
  | .scanUnfinished =>
    if o.idle then
      some (store, { o with
        toSkip := (store.all.filter fun job => job.status ∈ unfinishedStatuses).map Job.id })
    else none
  | .skipNext =>
    match o.toSkip with
    | [] => none
    | id :: rest => some (orElseStore store (store.skip id), { o with toSkip := rest })

/-- The job an action may write. -/
def touched (o : Orchestrator) : OrchestratorAction → Option String
  | .dispatchStep => o.undispatched.head?.map jobIdOf
  | .lease index => o.submitted[index]?.map fun target => target.1.id
  | .renew index _ | .report index _ => o.running[index]?.map fun target => target.1.id
  | .markReady => o.toMark.head?
  | .skipNext => o.toSkip.head?
  | .scan | .submit | .abort | .scanSucceeded | .scanBlocked | .scanUnfinished => none

/-- What an action finds in the store and keeps for later: the leaseable jobs that have one of the
orchestrator's step keys, the blocked jobs whose dependencies succeeded, the unfinished jobs. -/
def Finds (store : JobStore) (o : Orchestrator) (id : String) : OrchestratorAction → Prop
  | .scan => ∃ job, store.get? id = some job ∧ JobStore.isLeaseable o.now job = true ∧
      o.steps.get? job.planStepKey ≠ none
  | .scanBlocked => ∃ job, store.get? id = some job ∧ job.status = .blocked ∧
      ∀ d ∈ job.dependencies, d ∈ o.succeeded
  | .scanUnfinished => ∃ job, store.get? id = some job ∧ job.status ∈ unfinishedStatuses
  | _ => False

/-- The jobs an orchestrator is about to touch. -/
def pendingIds (o : Orchestrator) : List String :=
  (o.targets ++ o.submitted ++ o.running).map (fun target => target.1.id) ++ o.toMark ++ o.toSkip

/-- The ways in which an action goes, each with what it found. -/
inductive Acts (backend : Backend) (ttl : Time) (store : JobStore) (o : Orchestrator) :
    OrchestratorAction → JobStore → Orchestrator → Prop
  | dispatchStep {step : PlanStep} {rest : List PlanStep} (hleft : o.undispatched = step :: rest) :
      Acts backend ttl store o .dispatchStep (store.add (jobOf o.planDigest step)).1
        { o with undispatched := rest, steps := o.steps.set step.key step }
  | scan (hfree : (o.undispatched.isEmpty && o.idle && o.toMark.isEmpty) = true) :
      Acts backend ttl store o .scan store
        { o with targets := (store.leaseable o.now).filterMap fun job =>
            (o.steps.get? job.planStepKey).map fun step => (job, step) }
  | submit {target : Job × PlanStep} {rest : List (Job × PlanStep)}
      (htargets : o.targets = target :: rest)
      (hfree : (1 < o.maxWorkers || (o.submitted.isEmpty && o.running.isEmpty)) = true) :
      Acts backend ttl store o .submit store
        { o with targets := rest, submitted := o.submitted ++ [target] }
  | abort : Acts backend ttl store o .abort store { o with targets := [] }
  | lease {index : ℕ} {job leased : Job} {step : PlanStep} {store' : JobStore}
      (hsubmitted : o.submitted[index]? = some (job, step))
      (hlease : store.lease ttl job.id leaseOwnerName o.now = .ok (store', leased)) :
      Acts backend ttl store o (.lease index) store'
        { o with submitted := o.submitted.eraseIdx index, running := o.running ++ [(leased, step)] }
  | refusedLease {index : ℕ} {job : Job} {step : PlanStep} {error : JobError}
      (hsubmitted : o.submitted[index]? = some (job, step))
      (hlease : store.lease ttl job.id leaseOwnerName o.now = .error error) :
      Acts backend ttl store o (.lease index) store
        { o with submitted := o.submitted.eraseIdx index }
  | renew {index : ℕ} {time : Time} {leased : Job} {step : PlanStep}
      (hrunning : o.running[index]? = some (leased, step)) :
      Acts backend ttl store o (.renew index time)
        (orElseStore store (store.renew ttl leased.id leaseOwnerName time)) o
  | report {index : ℕ} {outcome : StepOutcome} {leased : Job} {step : PlanStep}
      (hrunning : o.running[index]? = some (leased, step)) :
      Acts backend ttl store o (.report index outcome)
        (orElseStore store (reportOutcome store leased outcome))
        { o with running := o.running.eraseIdx index }
  | scanSucceeded (hidle : o.idle = true) :
      Acts backend ttl store o .scanSucceeded store
        { o with
          succeeded := (store.all.filter fun job => job.status == .succeeded).map Job.planStepKey }
  | scanBlocked (hidle : o.idle = true) :
      Acts backend ttl store o .scanBlocked store
        { o with
          toMark := (store.all.filter fun job =>
            job.status == .blocked && job.dependencies.all fun d => d ∈ o.succeeded).map Job.id }
  | markReady {id : String} {rest : List String} (htoMark : o.toMark = id :: rest) :
      Acts backend ttl store o .markReady (orElseStore store (store.markReady backend id))
        { o with toMark := rest }
  | scanUnfinished (hidle : o.idle = true) :
      Acts backend ttl store o .scanUnfinished store
        { o with
          toSkip := (store.all.filter fun job => job.status ∈ unfinishedStatuses).map Job.id }
  | skipNext {id : String} {rest : List String} (htoSkip : o.toSkip = id :: rest) :
      Acts backend ttl store o .skipNext (orElseStore store (store.skip id))
        { o with toSkip := rest }

/-! ## Frames -/

section Frames

variable {backend : Backend} {ttl : Time} {store store' : JobStore} {o o' : Orchestrator}

/-- **An action goes in one of these ways**, whatever is then asked of it. -/
theorem act_cases {action : OrchestratorAction}
    (h : o.act backend ttl store action = some (store', o')) :
    Acts backend ttl store o action store' o' := by
  cases action with
  | dispatchStep =>
    simp only [act] at h
    split at h
    · cases h
    next hleft =>
      cases h
      exact .dispatchStep hleft
  | scan =>
    simp only [act] at h
    split at h
    next hfree =>
      cases h
      exact .scan hfree
    · cases h
  | submit =>
    simp only [act] at h
    split at h
    · cases h
    next htargets =>
      split at h
      next hfree =>
        cases h
        exact .submit htargets hfree
      · cases h
  | abort =>
    cases h
    exact .abort
  | lease index =>
    simp only [act] at h
    split at h
    · cases h
    next hsubmitted =>
      split at h
      next hlease =>
        cases h
        exact .lease hsubmitted hlease
      next hlease =>
        cases h
        exact .refusedLease hsubmitted hlease
  | renew index time =>
    simp only [act] at h
    split at h
    · cases h
    next hrunning =>
      cases h
      exact .renew hrunning
  | report index outcome =>
    simp only [act] at h
    split at h
    · cases h
    next hrunning =>
      cases h
      exact .report hrunning
  | scanSucceeded =>
    simp only [act] at h
    split at h
    next hidle =>
      cases h
      exact .scanSucceeded hidle
    · cases h
  | scanBlocked =>
    simp only [act] at h
    split at h
    next hidle =>
      cases h
      exact .scanBlocked hidle
    · cases h
  | markReady =>
    simp only [act] at h
    split at h
    · cases h
    next htoMark =>
      cases h
      exact .markReady htoMark
  | scanUnfinished =>
    simp only [act] at h
    split at h
    next hidle =>
      cases h
      exact .scanUnfinished hidle
    · cases h
  | skipNext =>
    simp only [act] at h
    split at h
    · cases h
    next htoSkip =>
      cases h
      exact .skipNext htoSkip

theorem get?_add_of_ne {job : Job} {id : String} (h : id ≠ job.id) :
    (store.add job).1.get? id = store.get? id := by
  rcases store.add_cases job with ⟨existing, -, -, heq⟩ | ⟨-, heq⟩
  · rw [heq]
  · rw [heq, JobStore.get?_put, if_neg h]

theorem get?_orElseStore_update {jobId id : String} {change : Job → Job} (h : id ≠ jobId) :
    (orElseStore store (store.update jobId change)).get? id = store.get? id := by
  cases hu : store.update jobId change with
  | error e => rfl
  | ok store' => rw [orElseStore, JobStore.get?_update hu, if_neg h]

/-- A report is one write of the leased job. -/
theorem exists_reportOutcome_eq (store : JobStore) (leased : Job) (outcome : StepOutcome) :
    ∃ change : Job → Job, reportOutcome store leased outcome = store.update leased.id change := by
  cases outcome with
  | result digest => exact ⟨_, rfl⟩
  | failure failure =>
    unfold reportOutcome
    dsimp only
    split
    · exact ⟨_, rfl⟩
    split
    · exact ⟨_, rfl⟩
    · exact ⟨_, rfl⟩

/-- **An action writes at most the job it names.** -/
theorem act_frame {action : OrchestratorAction}
    (h : o.act backend ttl store action = some (store', o')) {id : String}
    (hid : o.touched action ≠ some id) : store'.get? id = store.get? id := by
  cases act_cases h with
  | dispatchStep hleft =>
    refine get?_add_of_ne ?_
    rintro rfl
    exact hid (by simp [touched, hleft, jobOf])
  | lease hsubmitted hlease =>
    obtain ⟨found, hfound, -, rfl, rfl⟩ := JobStore.lease_ok_iff.mp hlease
    rw [JobStore.get?_put, if_neg]
    rintro rfl
    exact hid (by simp [touched, hsubmitted, JobStore.id_of_get? hfound])
  | @renew index time leased step hrunning =>
    cases hrenew : store.renew ttl leased.id leaseOwnerName time with
    | error e => rfl
    | ok store'' =>
      obtain ⟨job, hjob, -, rfl⟩ := JobStore.renew_ok_iff.mp hrenew
      rw [orElseStore, JobStore.get?_put, if_neg]
      rintro rfl
      exact hid (by simp [touched, hrunning, JobStore.id_of_get? hjob])
  | @report index outcome leased step hrunning =>
    obtain ⟨change, hchange⟩ := exists_reportOutcome_eq store leased outcome
    rw [hchange]
    refine get?_orElseStore_update ?_
    rintro rfl
    exact hid (by simp [touched, hrunning])
  | markReady htoMark =>
    refine get?_orElseStore_update ?_
    rintro rfl
    exact hid (by simp [touched, htoMark])
  | skipNext htoSkip =>
    refine get?_orElseStore_update ?_
    rintro rfl
    exact hid (by simp [touched, htoSkip])
  -- The others write nothing.
  | scan | submit | abort | refusedLease | scanSucceeded | scanBlocked | scanUnfinished => rfl

/-- What an action writes is the job of a dispatched step, or a job that was pending. -/
theorem touched_mem {action : OrchestratorAction} {id : String}
    (hid : o.touched action = some id) :
    (action = .dispatchStep ∧ o.undispatched.head?.map jobIdOf = some id) ∨ id ∈ o.pendingIds := by
  cases action with
  | dispatchStep => exact .inl ⟨rfl, hid⟩
  | lease index =>
    right
    simp only [touched, Option.map_eq_some_iff] at hid
    obtain ⟨target, htarget, rfl⟩ := hid
    have hmem := List.mem_of_getElem? htarget
    simp only [pendingIds, List.mem_append, List.mem_map]
    exact .inl (.inl ⟨target, .inl (.inr hmem), rfl⟩)
  | renew index time | report index outcome =>
    right
    simp only [touched, Option.map_eq_some_iff] at hid
    obtain ⟨target, htarget, rfl⟩ := hid
    have hmem := List.mem_of_getElem? htarget
    simp only [pendingIds, List.mem_append, List.mem_map]
    exact .inl (.inl ⟨target, .inr hmem, rfl⟩)
  | markReady =>
    right
    have hmem := List.mem_of_head? hid
    simp [pendingIds, hmem]
  | skipNext =>
    right
    have hmem := List.mem_of_head? hid
    simp [pendingIds, hmem]
  | scan | submit | abort | scanSucceeded | scanBlocked | scanUnfinished => cases hid

theorem mem_pendingIds {id : String} :
    id ∈ o.pendingIds ↔ (∃ target ∈ o.targets, target.1.id = id) ∨
      (∃ target ∈ o.submitted, target.1.id = id) ∨ (∃ target ∈ o.running, target.1.id = id) ∨
      id ∈ o.toMark ∨ id ∈ o.toSkip := by
  simp only [pendingIds, List.map_append, List.mem_append, List.mem_map, or_assoc]

/-- **Where pending jobs come from**: they were pending before, or the action found them. -/
theorem act_ids {action : OrchestratorAction}
    (h : o.act backend ttl store action = some (store', o')) {id : String}
    (hid : id ∈ o'.pendingIds) : id ∈ o.pendingIds ∨ Finds store o id action := by
  rw [mem_pendingIds] at hid ⊢
  cases act_cases h with
  | scan =>
    rcases hid with ⟨target, htarget, rfl⟩ | hid
    · right
      obtain ⟨job, hjob, hstep⟩ := List.mem_filterMap.mp htarget
      obtain ⟨step, hget, rfl⟩ := Option.map_eq_some_iff.mp hstep
      -- A target is a leaseable job whose key is among the dispatched steps.
      obtain ⟨hjob, hleaseable⟩ := JobStore.mem_leaseable.mp hjob
      exact ⟨job, hjob, hleaseable, by simp [hget]⟩
    · exact .inl (.inr hid)
  | submit htargets =>
    left
    rcases hid with ⟨t, htarget, rfl⟩ | ⟨t, htarget, rfl⟩ | hid
    · exact .inl ⟨t, by simp [htargets, htarget], rfl⟩
    · rcases List.mem_append.mp htarget with hmem | hmem
      · exact .inr (.inl ⟨t, hmem, rfl⟩)
      · exact .inl ⟨t, by simp [htargets, List.mem_singleton.mp hmem], rfl⟩
    · exact .inr (.inr hid)
  | abort =>
    left
    rcases hid with ⟨t, htarget, -⟩ | hid
    · simp at htarget
    · exact .inr hid
  | @lease index job leased step _ hsubmitted hlease =>
    left
    -- The target moves from the submitted to the running ones, under its id.
    obtain ⟨found, hfound, -, rfl, rfl⟩ := JobStore.lease_ok_iff.mp hlease
    rcases hid with hid | ⟨t, htarget, rfl⟩ | ⟨t, htarget, rfl⟩ | hid
    · exact .inl hid
    · exact .inr (.inl ⟨t, List.mem_of_mem_eraseIdx htarget, rfl⟩)
    · rcases List.mem_append.mp htarget with hmem | hmem
      · exact .inr (.inr (.inl ⟨t, hmem, rfl⟩))
      · rw [List.mem_singleton.mp hmem]
        exact .inr (.inl ⟨(job, step), List.mem_of_getElem? hsubmitted,
          (JobStore.id_of_get? hfound).symm⟩)
    · exact .inr (.inr (.inr hid))
  | refusedLease =>
    left
    rcases hid with hid | ⟨t, htarget, rfl⟩ | hid
    · exact .inl hid
    · exact .inr (.inl ⟨t, List.mem_of_mem_eraseIdx htarget, rfl⟩)
    · exact .inr (.inr hid)
  | report =>
    left
    rcases hid with hid | hid | ⟨t, htarget, rfl⟩ | hid
    · exact .inl hid
    · exact .inr (.inl hid)
    · exact .inr (.inr (.inl ⟨t, List.mem_of_mem_eraseIdx htarget, rfl⟩))
    · exact .inr (.inr (.inr hid))
  | scanBlocked =>
    rcases hid with hid | hid | hid | hid | hid
    · exact .inl (.inl hid)
    · exact .inl (.inr (.inl hid))
    · exact .inl (.inr (.inr (.inl hid)))
    · right
      obtain ⟨job, hjob, rfl⟩ := List.mem_map.mp hid
      obtain ⟨hmem, hcond⟩ := List.mem_filter.mp hjob
      simp only [Bool.and_eq_true, beq_iff_eq, List.all_eq_true, decide_eq_true_eq] at hcond
      exact ⟨job, JobStore.mem_all.mp hmem, hcond.1, hcond.2⟩
    · exact .inl (.inr (.inr (.inr (.inr hid))))
  | markReady htoMark =>
    left
    rcases hid with hid | hid | hid | hid | hid
    · exact .inl hid
    · exact .inr (.inl hid)
    · exact .inr (.inr (.inl hid))
    · exact .inr (.inr (.inr (.inl (by simp [htoMark, hid]))))
    · exact .inr (.inr (.inr (.inr hid)))
  | scanUnfinished =>
    rcases hid with hid | hid | hid | hid | hid
    · exact .inl (.inl hid)
    · exact .inl (.inr (.inl hid))
    · exact .inl (.inr (.inr (.inl hid)))
    · exact .inl (.inr (.inr (.inr (.inl hid))))
    · right
      obtain ⟨job, hjob, rfl⟩ := List.mem_map.mp hid
      obtain ⟨hmem, hcond⟩ := List.mem_filter.mp hjob
      exact ⟨job, JobStore.mem_all.mp hmem, by simpa using hcond⟩
  | skipNext htoSkip =>
    left
    rcases hid with hid | hid | hid | hid | hid
    · exact .inl hid
    · exact .inr (.inl hid)
    · exact .inr (.inr (.inl hid))
    · exact .inr (.inr (.inr (.inl hid)))
    · exact .inr (.inr (.inr (.inr (by simp [htoSkip, hid]))))
  -- What is pending stays as it is.
  | dispatchStep | renew | scanSucceeded => exact .inl hid

/-- An orchestrator keeps its assessment, its plan and its clock. -/
theorem act_constants {action : OrchestratorAction}
    (h : o.act backend ttl store action = some (store', o')) :
    o'.assessmentId = o.assessmentId ∧ o'.planDigest = o.planDigest := by
  cases act_cases h <;> exact ⟨rfl, rfl⟩

/-- **What an action does to the running steps**: a lease adds one, a report takes one away. -/
theorem act_running {action : OrchestratorAction}
    (h : o.act backend ttl store action = some (store', o')) :
    (o'.running = o.running ∧ ∀ index outcome, action ≠ .report index outcome) ∨
      (∃ index job step leased, action = .lease index ∧ o.submitted[index]? = some (job, step) ∧
        store.lease ttl job.id leaseOwnerName o.now = .ok (store', leased) ∧
        o'.running = o.running ++ [(leased, step)]) ∨
      ∃ index outcome leased step, action = .report index outcome ∧
        o.running[index]? = some (leased, step) ∧
        store' = orElseStore store (reportOutcome store leased outcome) ∧
        o'.running = o.running.eraseIdx index := by
  cases act_cases h with
  | lease hsubmitted hlease =>
    exact .inr (.inl ⟨_, _, _, _, rfl, hsubmitted, hlease, rfl⟩)
  | report hrunning => exact .inr (.inr ⟨_, _, _, _, rfl, hrunning, rfl, rfl⟩)
  -- The other actions leave the running steps alone.
  | _ => exact .inl ⟨rfl, by simp⟩

end Frames

end Orchestrator

/-! ## The system -/

/-- Orchestrators on one store. `dispatchedFor` and `holder` are records of the model: the
assessment for which a job was dispatched, and the orchestrator and attempt that leased it last. -/
structure JobSystem where
  store : JobStore := .empty
  orchestrators : List Orchestrator := []
  dispatchedFor : Dict String String := .empty
  holder : Dict String (ℕ × ℕ) := .empty

/-- A drain starts, an orchestrator makes an access, or its process dies. -/
inductive JobLabel
  | start (plan : ExecutionPlan) (maxWorkers : ℕ) (now : Time)
  | act (index : ℕ) (action : OrchestratorAction)
  | crash (index : ℕ)

namespace JobSystem

/-- The record of dispatched jobs after an action. -/
def recordDispatch (s : JobSystem) (o : Orchestrator) : OrchestratorAction → Dict String String
  | .dispatchStep =>
    match o.undispatched with
    | [] => s.dispatchedFor
    | step :: _ =>
      if s.store.all.any fun job =>
          job.idempotencyKey == (jobOf o.planDigest step).idempotencyKey then s.dispatchedFor
      else s.dispatchedFor.set (jobIdOf step) o.assessmentId
  | _ => s.dispatchedFor

/-- The record of lease holders after an action. -/
def recordHolder (s : JobSystem) (ttl : Time) (index : ℕ) (o : Orchestrator) :
    OrchestratorAction → Dict String (ℕ × ℕ)
  | .lease k =>
    match o.submitted[k]? with
    | none => s.holder
    | some (job, _) =>
      match s.store.lease ttl job.id leaseOwnerName o.now with
      | .ok (_, leased) => s.holder.set job.id (index, leased.attempt)
      | .error _ => s.holder
  | _ => s.holder

/-- One step of the system. -/
def step (backend : Backend) (ttl : Time) (s : JobSystem) : JobLabel → Option JobSystem
  | .start plan maxWorkers now =>
    some { s with orchestrators := s.orchestrators ++ [.start plan maxWorkers now] }
  | .act index action => do
    let o ← (s.orchestrators[index]?).filter Orchestrator.alive
    let (store', o') ← o.act backend ttl s.store action
    some
      { store := store'
        orchestrators := s.orchestrators.set index o'
        dispatchedFor := s.recordDispatch o action
        holder := s.recordHolder ttl index o action }
  | .crash index => do
    let o ← s.orchestrators[index]?
    some { s with orchestrators := s.orchestrators.set index o.crashed }

theorem step_act {backend : Backend} {ttl : Time} {s u : JobSystem} {index : ℕ}
    {action : OrchestratorAction} (h : s.step backend ttl (.act index action) = some u) :
    ∃ o store' o', s.orchestrators[index]? = some o ∧
      o.act backend ttl s.store action = some (store', o') ∧
      u = ⟨store', s.orchestrators.set index o', s.recordDispatch o action,
        s.recordHolder ttl index o action⟩ := by
  simp only [step, Option.bind_eq_bind, Option.bind_eq_some_iff, Option.some.injEq,
    Option.filter_eq_some_iff, Prod.exists] at h
  obtain ⟨o, ⟨ho, -⟩, store', o', hact, rfl⟩ := h
  exact ⟨o, store', o', ho, hact, rfl⟩

theorem step_crash {backend : Backend} {ttl : Time} {s u : JobSystem} {index : ℕ}
    (h : s.step backend ttl (.crash index) = some u) :
    ∃ o, s.orchestrators[index]? = some o ∧
      u = { s with orchestrators := s.orchestrators.set index o.crashed } := by
  simp only [step, Option.bind_eq_bind, Option.bind_eq_some_iff, Option.some.injEq] at h
  obtain ⟨o, ho, rfl⟩ := h
  exact ⟨o, ho, rfl⟩

/-- A plan of one step. -/
def onePlan (assessmentId digest : String) : ExecutionPlan :=
  ⟨"plan-" ++ assessmentId, assessmentId, 1, [⟨"scan", "nmap", .low, .empty, []⟩], digest⟩

end JobSystem

end SecOpent
