import SecOpent.Jobs.Orchestrator

/-!
# Job boards

What the course of a drain depends on in a job store: its jobs in their order, without the times at
which their leases expire. Every call of the orchestrator acts on a board, so two stores with one
board stay so when the same calls are made on both, at whatever time.

## Main definitions

* `JobStore.board`: the jobs of a store without the times of their leases
* `Orchestrator.dispatch`, `roundTargets`, `resolveDependencies`: the calls of one drain as functions
* `unblockedIds`: the blocked jobs of a board whose dependencies have succeeded

## Main results

* `board_lease`, `board_reportOutcome`, `board_resolveDependencies`: the calls on boards
* `unblockedIds_resolved`: nothing is left to unblock after dependencies were resolved
* `dispatch_eq_self`: a plan that was dispatched is not dispatched again
-/

namespace SecOpent

open Python

/-! ## Boards -/

/-- A job without the time at which its lease expires. -/
def Job.untimed (job : Job) : Job := { job with leaseExpiresAt := none }

@[simp] theorem Job.untimed_id (job : Job) : job.untimed.id = job.id := rfl

@[simp] theorem Job.untimed_status (job : Job) : job.untimed.status = job.status := rfl

/-- The jobs of a board, with one of them changed. -/
def changeJob (board : List Job) (id : String) (change : Job → Job) : List Job :=
  board.map fun job => if job.id = id then change job else job

theorem mem_changeJob {board : List Job} {id : String} {change : Job → Job} {job : Job} :
    job ∈ changeJob board id change ↔
      (∃ old ∈ board, old.id = id ∧ job = change old) ∨ (job ∈ board ∧ job.id ≠ id) := by
  rw [changeJob, List.mem_map]
  constructor
  · rintro ⟨old, hold, rfl⟩
    by_cases hid : old.id = id
    · exact .inl ⟨old, hold, hid, by rw [if_pos hid]⟩
    · rw [if_neg hid]
      exact .inr ⟨hold, hid⟩
  · rintro (⟨old, hold, hid, rfl⟩ | ⟨hjob, hid⟩)
    · exact ⟨old, hold, by rw [if_pos hid]⟩
    · exact ⟨job, hjob, by rw [if_neg hid]⟩

namespace JobStore

variable {store store' : JobStore}

/-- The jobs of the store in their order, without the times of their leases. -/
def board (store : JobStore) : List Job := store.all.map Job.untimed

theorem mem_board {job : Job} :
    job ∈ store.board ↔ ∃ timed, store.get? job.id = some timed ∧ timed.untimed = job := by
  rw [board, List.mem_map]
  constructor
  · rintro ⟨timed, hmem, rfl⟩
    exact ⟨timed, mem_all.mp hmem, rfl⟩
  · rintro ⟨timed, hget, rfl⟩
    have hid : timed.id = timed.untimed.id := rfl
    exact ⟨timed, mem_all.mpr (hid ▸ hget), rfl⟩

/-- A store has one job of an id. -/
theorem eq_of_mem_board {job job' : Job} (h : job ∈ store.board) (h' : job' ∈ store.board)
    (hid : job.id = job'.id) : job = job' := by
  obtain ⟨timed, hget, rfl⟩ := mem_board.mp h
  obtain ⟨timed', hget', rfl⟩ := mem_board.mp h'
  rw [hid, hget'] at hget
  rw [Option.some.inj hget]

/-- A write to a job that is there keeps the order of the jobs. -/
theorem board_put {job old : Job} (h : store.get? job.id = some old) :
    (store.put job).board = changeJob store.board job.id fun _ => job.untimed := by
  have hmem : job.id ∈ store.jobs.items.map Prod.fst :=
    List.mem_map.mpr ⟨(job.id, old), Dict.mem_items_iff.mpr h, rfl⟩
  have hitems : (store.put job).jobs.items =
      store.jobs.items.map fun item => if item.1 = job.id then (item.1, job) else item :=
    Dict.assign_of_mem store.jobs.keys_nodup hmem
  simp only [board, all, Dict.values, changeJob, hitems, List.map_map]
  refine List.map_congr_left fun item hitem => ?_
  obtain ⟨id, found⟩ := item
  -- A job is stored under its own id.
  have hid : found.id = id := store.keyed id found (Dict.mem_items_iff.mp hitem)
  by_cases heq : id = job.id
  · simp [heq, hid]
  · simp [heq, hid]

/-- A write that changes a job in the same way whatever the time of its lease. -/
theorem board_update {jobId : String} {change : Job → Job}
    (hid : ∀ job, (change job).id = job.id)
    (hchange : ∀ job, (change job).untimed = change job.untimed)
    (h : store.update jobId change = .ok store') :
    store'.board = changeJob store.board jobId change := by
  obtain ⟨job, hjob, rfl⟩ := update_ok_iff.mp h
  have hjobId : job.id = jobId := id_of_get? hjob
  -- The store writes under the id of the job that was found, which the change keeps.
  have hsame : ({ change job with id := job.id } : Job) = change job := by rw [← hid job]
  rw [hsame]
  have hget : store.get? (change job).id = some job := by rw [hid, hjobId, hjob]
  rw [board_put hget, hid, hjobId]
  -- The only job of that id is the one that was found.
  refine List.map_congr_left fun other hother => ?_
  by_cases heq : other.id = jobId
  · have hfound : job.untimed ∈ store.board :=
      mem_board.mpr ⟨job, by rw [Job.untimed_id, hjobId, hjob], rfl⟩
    have hother' : other = job.untimed :=
      eq_of_mem_board hother hfound (heq.trans (by rw [Job.untimed_id, hjobId]))
    rw [if_pos heq, if_pos heq, hchange, hother']
  · rw [if_neg heq, if_neg heq]

theorem exists_update {jobId : String} {job : Job} (h : job ∈ store.board) (hid : job.id = jobId)
    (change : Job → Job) : ∃ store', store.update jobId change = .ok store' := by
  obtain ⟨timed, hget, -⟩ := mem_board.mp h
  rw [hid] at hget
  exact ⟨_, update_ok_iff.mpr ⟨timed, hget, rfl⟩⟩

end JobStore

/-! ## The calls of a drain -/

/-- `succeeded`, in `_resolve_dependencies`. -/
def succeededKeys (jobs : List Job) : List String :=
  (jobs.filter fun job => job.status == .succeeded).map Job.planStepKey

/-- The jobs that `_resolve_dependencies` marks ready. -/
def unblockedIds (jobs : List Job) : List String :=
  (jobs.filter fun job =>
    job.status == .blocked && job.dependencies.all fun d => d ∈ succeededKeys jobs).map Job.id

theorem unblockedIds_untimed (jobs : List Job) :
    unblockedIds (jobs.map Job.untimed) = unblockedIds jobs := by
  have hkeys : succeededKeys (jobs.map Job.untimed) = succeededKeys jobs := by
    rw [succeededKeys, List.filter_map, List.map_map]
    rfl
  rw [unblockedIds, hkeys, List.filter_map, List.map_map]
  rfl

namespace Orchestrator

/-- `dispatch`. -/
def dispatch (plan : ExecutionPlan) (store : JobStore) : JobStore :=
  plan.steps.foldl (fun store step => (store.add (jobOf plan.digest step)).1) store

/-- `_steps`, once the plan was dispatched. -/
def stepsOf (plan : ExecutionPlan) : Dict String PlanStep :=
  plan.steps.foldl (fun steps step => steps.set step.key step) .empty

/-- A job with the step that it runs, if it is one of the plan. -/
def withStep (plan : ExecutionPlan) (job : Job) : Option (Job × PlanStep) :=
  ((stepsOf plan).get? job.planStepKey).map fun step => (job, step)

/-- `targets`, in `execute_ready`. -/
def roundTargets (plan : ExecutionPlan) (store : JobStore) (now : Time) : List (Job × PlanStep) :=
  (store.leaseable now).filterMap (withStep plan)

/-- `_resolve_dependencies`. -/
def resolveDependencies (backend : Backend) (store : JobStore) : JobStore :=
  (unblockedIds store.all).foldl
    (fun store id => orElseStore store (store.markReady backend id)) store

end Orchestrator

/-! ### Targets -/

/-- The targets that a board has. -/
def readyTargets (plan : ExecutionPlan) (board : List Job) : List (Job × PlanStep) :=
  let found := board.filter fun job => job.status == .ready
  (found.filter JobStore.isLoopJob ++ found.filter fun job => !JobStore.isLoopJob job).filterMap
    (Orchestrator.withStep plan)

/-- A target without the time of its lease. -/
def untimedTarget (target : Job × PlanStep) : Job × PlanStep := (target.1.untimed, target.2)

/-- While no job is leased, the time of a scan makes no difference. -/
theorem roundTargets_untimed {plan : ExecutionPlan} {store : JobStore} {now : Time}
    (h : ∀ job ∈ store.board, job.status ≠ .leased) :
    (Orchestrator.roundTargets plan store now).map untimedTarget =
      readyTargets plan store.board := by
  have hfound : store.all.filter (JobStore.isLeaseable now) =
      store.all.filter fun job => job.status == .ready := by
    refine List.filter_congr fun job hjob => ?_
    have hne : job.status ≠ .leased := h job.untimed (List.mem_map_of_mem hjob)
    -- A lease can only be stale in a job that is leased.
    simp [JobStore.isLeaseable, JobStore.isStale, hne]
  have hstep : ∀ job : Job, (Orchestrator.withStep plan job).map untimedTarget =
      Orchestrator.withStep plan job.untimed := by
    intro job
    simp only [Orchestrator.withStep, Option.map_map]
    rfl
  rw [Orchestrator.roundTargets, JobStore.leaseable, hfound, List.map_filterMap]
  simp only [readyTargets, JobStore.board, List.filter_map, ← List.map_append, List.filterMap_map]
  refine List.filterMap_congr fun job _ => ?_
  exact hstep job

theorem stepsOf_key {plan : ExecutionPlan} {key : String} {step : PlanStep}
    (h : (Orchestrator.stepsOf plan).get? key = some step) : step.key = key := by
  have hfold : ∀ (steps : List PlanStep) (found : Dict String PlanStep),
      (∀ key step, found.get? key = some step → step.key = key) →
      ∀ key step, (steps.foldl (fun found step => found.set step.key step) found).get? key =
        some step → step.key = key := by
    intro steps
    induction steps with
    | nil => exact fun _ hfound => hfound
    | cons first steps ih =>
      intro found hfound
      refine ih _ fun key step hget => ?_
      rw [Dict.get?_set] at hget
      split at hget
      next heq =>
        cases hget
        exact heq.symm
      next => exact hfound key step hget
  exact hfold plan.steps .empty (by simp) key step h

/-- A target is a ready job of the board, with the step of its key. -/
theorem mem_readyTargets {plan : ExecutionPlan} {board : List Job} {target : Job × PlanStep}
    (h : target ∈ readyTargets plan board) :
    target.1 ∈ board ∧ target.1.status = .ready ∧ target.2.key = target.1.planStepKey := by
  obtain ⟨job, hjob, hstep⟩ := List.mem_filterMap.mp h
  obtain ⟨step, hget, rfl⟩ := Option.map_eq_some_iff.mp hstep
  have hmem : job ∈ board.filter fun job => job.status == .ready := by
    rcases List.mem_append.mp hjob with hjob | hjob
    · exact List.mem_of_mem_filter hjob
    · exact List.mem_of_mem_filter hjob
  obtain ⟨hboard, hready⟩ := List.mem_filter.mp hmem
  exact ⟨hboard, by simpa using hready, stepsOf_key hget⟩

/-- Targets are some of the jobs, in their order. -/
theorem filterMap_ids_sublist (find : Job → Option PlanStep) (jobs : List Job) :
    ((jobs.filterMap fun job => (find job).map fun step => (job, step)).map
      fun target => target.1.id).Sublist (jobs.map Job.id) := by
  induction jobs with
  | nil => exact .slnil
  | cons job jobs ih =>
    cases hstep : find job with
    | none =>
      rw [List.filterMap_cons_none (by rw [hstep]; rfl)]
      exact ih.cons _
    | some step =>
      rw [List.filterMap_cons_some (by rw [hstep]; rfl)]
      exact ih.cons_cons _

/-- The jobs of the reasoning loop are only moved to the front. -/
theorem loopJobsFirst_nodup {found jobs : List Job} (hsub : found.Sublist jobs)
    (h : (jobs.map Job.id).Nodup) :
    ((found.filter JobStore.isLoopJob ++ found.filter fun job => !JobStore.isLoopJob job).map
      Job.id).Nodup := by
  have hperm := List.filter_append_perm JobStore.isLoopJob found
  exact (hperm.map Job.id).nodup_iff.mpr ((hsub.map Job.id).nodup h)

theorem readyTargets_nodup {plan : ExecutionPlan} {board : List Job}
    (h : (board.map Job.id).Nodup) :
    ((readyTargets plan board).map fun target => target.1.id).Nodup :=
  (filterMap_ids_sublist _ _).nodup (loopJobsFirst_nodup List.filter_sublist h)

theorem JobStore.ids_nodup (store : JobStore) : (store.all.map Job.id).Nodup := by
  have hids : store.all.map Job.id = store.jobs.items.map Prod.fst := by
    simp only [all, Dict.values, List.map_map]
    refine List.map_congr_left fun item hitem => ?_
    exact store.keyed item.1 item.2 (Dict.mem_items_iff.mp hitem)
  rw [hids]
  exact store.jobs.keys_nodup

theorem JobStore.board_ids_nodup (store : JobStore) : (store.board.map Job.id).Nodup := by
  rw [board, List.map_map]
  exact store.ids_nodup

/-! ### Leases and reports -/

/-- A change of a job that leaves its identity alone. -/
structure KeepsIdentity (change : Job → Job) : Prop where
  id : ∀ job, (change job).id = job.id
  planStepKey : ∀ job, (change job).planStepKey = job.planStepKey
  idempotencyKey : ∀ job, (change job).idempotencyKey = job.idempotencyKey

/-- A job of the board that is leased. -/
def leasedJob (job : Job) : Job :=
  { job with status := .leased, leaseOwner := some leaseOwnerName, attempt := job.attempt + 1 }

theorem keepsIdentity_leasedJob : KeepsIdentity leasedJob where
  id _ := rfl
  planStepKey _ := rfl
  idempotencyKey _ := rfl

theorem board_lease {store store' : JobStore} {ttl now : Time} {jobId : String} {leased : Job}
    (h : store.lease ttl jobId leaseOwnerName now = .ok (store', leased)) :
    store'.board = changeJob store.board jobId leasedJob ∧
      ∃ job ∈ store.board, job.id = jobId ∧ leased.untimed = leasedJob job := by
  obtain ⟨job, hget, -, rfl, rfl⟩ := JobStore.lease_ok_iff.mp h
  have hid : job.id = jobId := JobStore.id_of_get? hget
  have hmem : job.untimed ∈ store.board :=
    JobStore.mem_board.mpr ⟨job, by rw [Job.untimed_id, hid, hget], rfl⟩
  refine ⟨?_, job.untimed, hmem, hid, rfl⟩
  have hput : store.get? (JobStore.leasedTo leaseOwnerName (now + ttl) job).id = some job := by
    rw [JobStore.leasedTo_id, hid, hget]
  rw [JobStore.board_put hput, JobStore.leasedTo_id, hid]
  refine List.map_congr_left fun other hother => ?_
  by_cases heq : other.id = jobId
  · rw [if_pos heq, if_pos heq,
      JobStore.eq_of_mem_board hother hmem (heq.trans hid.symm)]
    rfl
  · rw [if_neg heq, if_neg heq]

theorem exists_lease {store : JobStore} {job : Job} (h : job ∈ store.board)
    (hready : job.status = .ready) (ttl now : Time) :
    ∃ store' leased, store.lease ttl job.id leaseOwnerName now = .ok (store', leased) := by
  obtain ⟨timed, hget, rfl⟩ := JobStore.mem_board.mp h
  have hleaseable : JobStore.isLeaseable now timed = true := by
    simp only [Job.untimed_status] at hready
    simp [JobStore.isLeaseable, hready]
  exact ⟨_, _, JobStore.lease_ok_iff.mpr ⟨timed, hget, hleaseable, rfl, rfl⟩⟩

/-- A job whose outcome was reported; what happens to a failure depends on the attempt. -/
def reported (leased : Job) : StepOutcome → Job → Job
  | .result digest, job => { job with status := .succeeded, resultDigest := digest }
  | .failure failure, job =>
    if failure ∈ policyFailures then
      { job with status := .policyDenied, failureClass := failure.value }
    else if failure ∈ retryableFailures ∧ leased.attempt < leased.maxAttempts then
      { job with status := .ready, leaseOwner := none, leaseExpiresAt := none, failureClass := "" }
    else { job with status := .failed, failureClass := failure.value }

theorem keepsIdentity_reported (leased : Job) (outcome : StepOutcome) :
    KeepsIdentity (reported leased outcome) := by
  cases outcome with
  | result digest => exact ⟨fun _ => rfl, fun _ => rfl, fun _ => rfl⟩
  | failure failure =>
    refine ⟨fun job => ?_, fun job => ?_, fun job => ?_⟩ <;> simp only [reported] <;> split_ifs <;> rfl

theorem reported_status_ne_leased (leased : Job) (outcome : StepOutcome) (job : Job) :
    (reported leased outcome job).status ≠ .leased := by
  cases outcome with
  | result digest => exact JobStatus.noConfusion
  | failure failure =>
    simp only [reported]
    split_ifs <;> exact JobStatus.noConfusion

theorem untimed_reported (leased : Job) (outcome : StepOutcome) (job : Job) :
    (reported leased outcome job).untimed = reported leased outcome job.untimed := by
  cases outcome with
  | result digest => rfl
  | failure failure =>
    simp only [reported]
    split_ifs <;> rfl

theorem reportOutcome_eq_update (store : JobStore) (leased : Job) (outcome : StepOutcome) :
    Orchestrator.reportOutcome store leased outcome =
      store.update leased.id (reported leased outcome) := by
  cases outcome with
  | result digest => rfl
  | failure failure =>
    simp only [Orchestrator.reportOutcome, JobStore.fail, JobStore.requeue]
    by_cases hpolicy : failure ∈ policyFailures
    · rw [if_pos hpolicy]
      congr 1
      funext job
      simp only [reported, if_pos hpolicy]
    · rw [if_neg hpolicy]
      split_ifs with hretry
      · congr 1
        funext job
        simp only [reported, if_neg hpolicy, if_pos hretry]
      · congr 1
        funext job
        simp only [reported, if_neg hpolicy, if_neg hretry]

theorem board_reportOutcome {store store' : JobStore} {leased : Job} {outcome : StepOutcome}
    (h : Orchestrator.reportOutcome store leased outcome = .ok store') :
    store'.board = changeJob store.board leased.id (reported leased outcome) := by
  rw [reportOutcome_eq_update] at h
  exact JobStore.board_update (keepsIdentity_reported leased outcome).id
    (untimed_reported leased outcome) h

/-! ### Dependencies -/

/-- A job that was marked ready. -/
def readied (backend : Backend) (job : Job) : Job :=
  match backend with
  | .memory => { job with status := .ready }
  | .sqlAlchemy => { job with status := .ready, leaseOwner := none, leaseExpiresAt := none }

theorem keepsIdentity_readied (backend : Backend) : KeepsIdentity (readied backend) := by
  cases backend with
  | memory => exact ⟨fun _ => rfl, fun _ => rfl, fun _ => rfl⟩
  | sqlAlchemy => exact ⟨fun _ => rfl, fun _ => rfl, fun _ => rfl⟩

@[simp] theorem readied_status (backend : Backend) (job : Job) :
    (readied backend job).status = .ready := by
  cases backend <;> rfl

theorem readied_readied (backend : Backend) (job : Job) :
    readied backend (readied backend job) = readied backend job := by
  cases backend <;> rfl

/-- The board after dependencies were resolved. -/
def resolved (backend : Backend) (board : List Job) : List Job :=
  board.map fun job => if job.id ∈ unblockedIds board then readied backend job else job

theorem board_markReady (backend : Backend) (store : JobStore) (jobId : String) :
    (orElseStore store (store.markReady backend jobId)).board =
      changeJob store.board jobId (readied backend) := by
  have hchange : store.markReady backend jobId = store.update jobId (readied backend) := by
    cases backend <;> rfl
  have huntimed : ∀ job, (readied backend job).untimed = readied backend job.untimed := by
    cases backend <;> exact fun _ => rfl
  rw [hchange]
  cases hupdate : store.update jobId (readied backend) with
  | ok store' => exact JobStore.board_update (keepsIdentity_readied backend).id huntimed hupdate
  | error error =>
    -- The job is not there: nothing is written.
    have hnone : ∀ job ∈ store.board, job.id ≠ jobId := by
      intro job hjob hid
      obtain ⟨store', hok⟩ := JobStore.exists_update hjob hid (readied backend)
      rw [hok] at hupdate
      cases hupdate
    have hsame : ∀ job ∈ store.board,
        (if job.id = jobId then readied backend job else job) = job := by
      intro job hjob
      rw [if_neg (hnone job hjob)]
    rw [orElseStore, changeJob, List.map_congr_left hsame, List.map_id']

theorem board_foldl_markReady (backend : Backend) (ids : List String) (store : JobStore) :
    (ids.foldl (fun store id => orElseStore store (store.markReady backend id)) store).board =
      store.board.map fun job => if job.id ∈ ids then readied backend job else job := by
  induction ids generalizing store with
  | nil => simp
  | cons id ids ih =>
    rw [List.foldl_cons, ih, board_markReady, changeJob, List.map_map]
    refine List.map_congr_left fun job _ => ?_
    have hid := (keepsIdentity_readied backend).id job
    by_cases heq : job.id = id
    · by_cases hmem : job.id ∈ ids
      · simp [heq, hid, readied_readied]
      · simp [heq, hid, readied_readied]
    · simp [heq]

theorem board_resolveDependencies (backend : Backend) (store : JobStore) :
    (Orchestrator.resolveDependencies backend store).board = resolved backend store.board := by
  rw [Orchestrator.resolveDependencies, board_foldl_markReady, resolved, JobStore.board,
    unblockedIds_untimed]

/-- Resolving dependencies changes no job that has succeeded, and what it readies was blocked: there
is nothing left to unblock. -/
theorem unblockedIds_resolved (backend : Backend) (board : List Job) :
    unblockedIds (resolved backend board) = [] := by
  have hkept : ∀ job ∈ resolved backend board, job.status ≠ .ready → job ∈ board ∧
      job.id ∉ unblockedIds board := by
    intro job hjob hstatus
    obtain ⟨old, hold, rfl⟩ := List.mem_map.mp hjob
    split_ifs at hstatus ⊢ with hmem
    · exact absurd (readied_status backend old) hstatus
    · exact ⟨hold, hmem⟩
  rw [unblockedIds, List.map_eq_nil_iff, List.filter_eq_nil_iff]
  intro job hjob hblocked
  rw [Bool.and_eq_true, beq_iff_eq, List.all_eq_true] at hblocked
  obtain ⟨hstatus, hdeps⟩ := hblocked
  obtain ⟨hboard, hnot⟩ := hkept job hjob (by simp [hstatus])
  refine hnot (List.mem_map.mpr ⟨job, List.mem_filter.mpr ⟨hboard, ?_⟩, rfl⟩)
  rw [Bool.and_eq_true, beq_iff_eq, List.all_eq_true]
  refine ⟨hstatus, fun dependency hdependency => ?_⟩
  -- A step that has succeeded now had succeeded before.
  have hkey := of_decide_eq_true (hdeps dependency hdependency)
  obtain ⟨done, hdone, hdoneKey⟩ := List.mem_map.mp hkey
  obtain ⟨hdoneMem, hsucceeded⟩ := List.mem_filter.mp hdone
  have hdoneBoard := (hkept done hdoneMem (by simp [eq_of_beq hsucceeded])).1
  exact decide_eq_true (List.mem_map.mpr
    ⟨done, List.mem_filter.mpr ⟨hdoneBoard, hsucceeded⟩, hdoneKey⟩)

theorem resolveDependencies_eq_self {backend : Backend} {store : JobStore}
    (h : unblockedIds store.board = []) : Orchestrator.resolveDependencies backend store = store := by
  rw [JobStore.board, unblockedIds_untimed] at h
  rw [Orchestrator.resolveDependencies, h, List.foldl_nil]

/-! ### Dispatch -/

/-- A board on which the plan was dispatched: jobs are named after their steps, and every step of the
plan has its job. -/
structure Dispatched (plan : ExecutionPlan) (board : List Job) : Prop where
  named : ∀ job ∈ board, job.id = "job:" ++ job.planStepKey
  present : ∀ step ∈ plan.steps, ∃ job ∈ board,
    job.idempotencyKey = (jobOf plan.digest step).idempotencyKey

theorem Dispatched.map {plan : ExecutionPlan} {board : List Job} {change : Job → Job}
    (h : Dispatched plan board) (hchange : KeepsIdentity change) :
    Dispatched plan (board.map change) := by
  refine ⟨fun job hjob => ?_, fun step hstep => ?_⟩
  · obtain ⟨old, hold, rfl⟩ := List.mem_map.mp hjob
    rw [hchange.id, hchange.planStepKey]
    exact h.named old hold
  · obtain ⟨job, hjob, hkey⟩ := h.present step hstep
    exact ⟨change job, List.mem_map_of_mem hjob, by rw [hchange.idempotencyKey, hkey]⟩

/-- A change under a condition keeps what the change keeps. -/
theorem KeepsIdentity.ite {change : Job → Job} (h : KeepsIdentity change) (p : Job → Prop)
    [DecidablePred p] : KeepsIdentity fun job => if p job then change job else job := by
  refine ⟨fun job => ?_, fun job => ?_, fun job => ?_⟩
  · split_ifs
    exacts [h.id job, rfl]
  · split_ifs
    exacts [h.planStepKey job, rfl]
  · split_ifs
    exacts [h.idempotencyKey job, rfl]

theorem Dispatched.changeJob {plan : ExecutionPlan} {board : List Job} {change : Job → Job}
    (h : Dispatched plan board) (hchange : KeepsIdentity change) (id : String) :
    Dispatched plan (changeJob board id change) :=
  h.map (hchange.ite fun job => job.id = id)

theorem Dispatched.resolved {plan : ExecutionPlan} {board : List Job} (h : Dispatched plan board)
    (backend : Backend) : Dispatched plan (resolved backend board) :=
  h.map ((keepsIdentity_readied backend).ite fun job => job.id ∈ unblockedIds board)

/-- A plan that was dispatched is not dispatched again. -/
theorem dispatch_eq_self {plan : ExecutionPlan} {store : JobStore}
    (h : Dispatched plan store.board) : Orchestrator.dispatch plan store = store := by
  -- `add` returns the job that has the idempotency key already.
  have hadd : ∀ step ∈ plan.steps, (store.add (jobOf plan.digest step)).1 = store := by
    intro step hstep
    obtain ⟨job, hjob, hkey⟩ := h.present step hstep
    obtain ⟨timed, hget, rfl⟩ := JobStore.mem_board.mp hjob
    rcases JobStore.add_cases store (jobOf plan.digest step) with ⟨_, _, _, hsame⟩ | ⟨hnone, _⟩
    · rw [hsame]
    · exact absurd hkey (hnone timed (JobStore.mem_all.mpr hget))
  have hfold : ∀ steps : List PlanStep, (∀ step ∈ steps, step ∈ plan.steps) →
      steps.foldl (fun store step => (store.add (jobOf plan.digest step)).1) store = store := by
    intro steps
    induction steps with
    | nil => exact fun _ => rfl
    | cons step steps ih =>
      intro hsub
      rw [List.foldl_cons, hadd step (hsub step (by simp))]
      exact ih fun other hother => hsub other (by simp [hother])
  exact hfold plan.steps fun _ hstep => hstep

/-- A store on which the plan is dispatched for the first time: jobs are named after their steps, no
lease is held, none of the jobs is the plan's, and no job waits on steps that have all succeeded. -/
structure FreshStore (plan : ExecutionPlan) (store : JobStore) : Prop where
  named : ∀ job ∈ store.all, job.id = "job:" ++ job.planStepKey
  not_leased : ∀ job ∈ store.all, job.status ≠ .leased
  undispatched : ∀ job ∈ store.all, ∀ step ∈ plan.steps,
    job.idempotencyKey ≠ (jobOf plan.digest step).idempotencyKey
  settled : unblockedIds (Orchestrator.dispatch plan store).all = []

theorem jobId_inj {key key' : String} (h : "job:" ++ key = "job:" ++ key') : key = key' := by
  have hlist := congrArg String.toList h
  exact String.toList_inj.mp (by simpa using hlist)

theorem jobIdOf_inj {step step' : PlanStep} (h : jobIdOf step = jobIdOf step') :
    step.key = step'.key :=
  jobId_inj h

/-- What dispatching some more steps leaves. -/
theorem foldl_add_spec {digest : String} {steps : List PlanStep} {store : JobStore}
    (hkeys : (steps.map PlanStep.key).Nodup)
    (hnamed : ∀ job ∈ store.all, job.id = "job:" ++ job.planStepKey)
    (hleased : ∀ job ∈ store.all, job.status ≠ .leased)
    (hfresh : ∀ job ∈ store.all, ∀ step ∈ steps,
      job.idempotencyKey ≠ (jobOf digest step).idempotencyKey) :
    let after := steps.foldl (fun store step => (store.add (jobOf digest step)).1) store
    (∀ job ∈ after.all, job.id = "job:" ++ job.planStepKey ∧ job.status ≠ .leased) ∧
      (∀ step ∈ steps, after.get? (jobIdOf step) = some (jobOf digest step)) ∧
      ∀ id, (∀ step ∈ steps, jobIdOf step ≠ id) → after.get? id = store.get? id := by
  induction steps generalizing store with
  | nil => exact ⟨fun job hjob => ⟨hnamed job hjob, hleased job hjob⟩, by simp, fun _ _ => rfl⟩
  | cons step steps ih =>
    obtain ⟨hnew, hkeys⟩ := List.nodup_cons.mp hkeys
    have hadd : store.add (jobOf digest step) =
        (store.put (jobOf digest step), jobOf digest step) := by
      -- The job is new: no job of the store has its idempotency key.
      rcases JobStore.add_cases store (jobOf digest step) with ⟨job, hjob, hkey, _⟩ | ⟨_, hadd⟩
      · exact absurd hkey (hfresh job hjob step (by simp))
      · exact hadd
    -- A job after the write is the new one, or was there.
    have hput : ∀ job ∈ (store.put (jobOf digest step)).all,
        job = jobOf digest step ∨ job ∈ store.all := by
      intro job hjob
      have hget := JobStore.mem_all.mp hjob
      rw [JobStore.get?_put] at hget
      split at hget
      · exact .inl (Option.some.inj hget).symm
      · exact .inr (JobStore.mem_all.mpr hget)
    have hstatus : (jobOf digest step).status ≠ .leased := by
      simp only [jobOf]
      split_ifs <;> exact JobStatus.noConfusion
    have hother : ∀ other ∈ steps, other.key ≠ step.key := by
      intro other hmem heq
      exact hnew (heq ▸ List.mem_map_of_mem hmem)
    rw [List.foldl_cons, hadd]
    -- The new job meets what is asked of the store for the steps that are left.
    obtain ⟨hall, hpresent, hframe⟩ := @ih (store.put (jobOf digest step)) hkeys
      (fun job hjob => by
        rcases hput job hjob with rfl | hjob
        · rfl
        · exact hnamed job hjob)
      (fun job hjob => by
        rcases hput job hjob with rfl | hjob
        · exact hstatus
        · exact hleased job hjob)
      (fun job hjob other hmem => by
        rcases hput job hjob with rfl | hjob
        · intro heq
          refine hother other hmem ?_
          have hlist := congrArg String.toList heq
          exact String.toList_inj.mp (by simpa [jobOf] using hlist.symm)
        · exact hfresh job hjob other (by simp [hmem]))
    refine ⟨hall, fun other hmem => ?_, fun id hid => ?_⟩
    -- Later steps have other keys, so the job of this one stays as it was added.
    · rcases List.mem_cons.mp hmem with rfl | hmem
      · rw [hframe _ fun later hlater heq => hother later hlater (jobIdOf_inj heq),
          JobStore.get?_put]
        exact if_pos rfl
      · exact hpresent other hmem
    · rw [hframe id fun later hlater => hid later (by simp [hlater]), JobStore.get?_put,
        if_neg fun heq => hid step (by simp) heq.symm]

/-- Dispatching on such a store. -/
theorem FreshStore.dispatched {plan : ExecutionPlan} {store : JobStore} (h : FreshStore plan store)
    (hkeys : (plan.steps.map PlanStep.key).Nodup) :
    Dispatched plan (Orchestrator.dispatch plan store).board ∧
      ∀ job ∈ (Orchestrator.dispatch plan store).board, job.status ≠ .leased := by
  obtain ⟨hall, hpresent, -⟩ := foldl_add_spec hkeys h.named h.not_leased h.undispatched
  refine ⟨⟨fun job hjob => ?_, fun step hstep => ?_⟩, fun job hjob => ?_⟩
  · obtain ⟨timed, hmem, rfl⟩ := List.mem_map.mp hjob
    exact (hall timed hmem).1
  · refine ⟨(jobOf plan.digest step).untimed, JobStore.mem_board.mpr ⟨_, ?_, rfl⟩, rfl⟩
    exact hpresent step hstep
  · obtain ⟨timed, hmem, rfl⟩ := List.mem_map.mp hjob
    exact (hall timed hmem).2

end SecOpent
