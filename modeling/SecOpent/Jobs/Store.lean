import SecOpent.Adapters.StepRunner

/-!
# Jobs and the job store

`domain/jobs/models.py`, `application/jobs.py` and
`infrastructure/repositories/sqlalchemy_jobs.py`: one job per plan step, leased to a worker and
then completed, failed or put back. The in-memory and the database store differ in one place:
marking a job ready also clears its lease in the database.

## Main definitions

* `Job`, `JobStore`: the jobs by id, where a job is stored under its own id
* `JobStore.add`, `markReady`, `lease`, `renew`, `complete`, `fail`, `requeue`, `skip`
* `JobStore.leaseable`

## Main results

* `update_ok_iff`: every write but `add` changes one existing job
* `lease_ok_iff`: what a successful lease found and left
* `add_cases`: a job is added unless its idempotency key is there already
-/

namespace SecOpent

open Python

/-- `JobStatus`. -/
inductive JobStatus
  | pending | blocked | ready | leased | running | succeeded | failed | skipped | policyDenied
  deriving DecidableEq, Repr

/-- `JobStatus.value`. -/
def JobStatus.value : JobStatus → String
  | .pending => "pending"
  | .blocked => "blocked"
  | .ready => "ready"
  | .leased => "leased"
  | .running => "running"
  | .succeeded => "succeeded"
  | .failed => "failed"
  | .skipped => "skipped"
  | .policyDenied => "policy_denied"

/-- `RETRYABLE_FAILURES`. -/
def retryableFailures : List FailureClass := [.workerUnavailable, .timeout]

/-- `POLICY_FAILURES`. -/
def policyFailures : List FailureClass := [.outOfScope, .notApproved]

/-- `Job`; its free `parameters` are left out, no operation here reads them. -/
structure Job where
  id : String
  planStepKey : String
  idempotencyKey : String
  status : JobStatus := .pending
  attempt : ℕ := 0
  maxAttempts : ℕ := 3
  leaseOwner : Option String := none
  leaseExpiresAt : Option Time := none
  resultDigest : String := ""
  failureClass : String := ""
  dependencies : List String := []
  deriving DecidableEq

/-- `JobNotFoundError` and `JobLeaseError`. -/
inductive JobError
  | notFound (jobId : String)
  | notLeaseable (status : JobStatus)
  | notOwner
  deriving DecidableEq

/-- The two implementations of the `JobStore` protocol. -/
inductive Backend
  | memory | sqlAlchemy
  deriving DecidableEq, Repr

/-- The jobs by id. -/
structure JobStore where
  jobs : Dict String Job
  keyed : ∀ id job, jobs.get? id = some job → job.id = id

namespace JobStore

/-- A store without jobs. -/
def empty : JobStore := ⟨.empty, by simp⟩

/-- `get`. -/
def get? (store : JobStore) (jobId : String) : Option Job := store.jobs.get? jobId

/-- `all`. -/
def all (store : JobStore) : List Job := store.jobs.values

/-- `self._jobs[job.id] = job`. -/
def put (store : JobStore) (job : Job) : JobStore where
  jobs := store.jobs.set job.id job
  keyed id found h := by
    rw [Dict.get?_set] at h
    split at h
    next hid =>
      cases h
      exact hid.symm
    next => exact store.keyed id found h

@[simp] theorem get?_put (store : JobStore) (job : Job) (id : String) :
    (store.put job).get? id = if id = job.id then some job else store.get? id :=
  Dict.get?_set _ _ _ _

theorem id_of_get? {store : JobStore} {id : String} {job : Job} (h : store.get? id = some job) :
    job.id = id :=
  store.keyed id job h

theorem mem_all {store : JobStore} {job : Job} :
    job ∈ store.all ↔ store.get? job.id = some job := by
  rw [all, Dict.mem_values]
  constructor
  · rintro ⟨id, h⟩
    obtain rfl := store.keyed id job h
    exact h
  · exact fun h => ⟨job.id, h⟩

/-! ## Operations -/

/-- `_set` and `_update`: one existing job is changed, under its own id. -/
def update (store : JobStore) (jobId : String) (change : Job → Job) :
    Except JobError JobStore :=
  match store.get? jobId with
  | none => .error (.notFound jobId)
  | some job => .ok (store.put { change job with id := job.id })

/-- `add`: idempotent on the idempotency key; the job that is there is returned. -/
def add (store : JobStore) (job : Job) : JobStore × Job :=
  match store.all.find? fun existing => existing.idempotencyKey == job.idempotencyKey with
  | some existing => (store, existing)
  | none => (store.put job, job)

/-- `mark_ready`: the database store also clears the lease. -/
def markReady (backend : Backend) (store : JobStore) (jobId : String) :
    Except JobError JobStore :=
  store.update jobId fun job =>
    match backend with
    | .memory => { job with status := .ready }
    | .sqlAlchemy => { job with status := .ready, leaseOwner := none, leaseExpiresAt := none }

/-- `LEASED with an expired lease`. -/
def isStale (now : Time) (job : Job) : Bool :=
  job.status == .leased && job.leaseExpiresAt.any fun expires => decide (expires ≤ now)

/-- The job is `READY`, or its lease has expired. -/
def isLeaseable (now : Time) (job : Job) : Bool := job.status == .ready || isStale now job

/-- The lease that is written. -/
def leasedTo (owner : String) (expires : Time) (job : Job) : Job :=
  { job with
    status := .leased
    leaseOwner := some owner
    leaseExpiresAt := some expires
    attempt := job.attempt + 1 }

/-- `lease`, with the leased job returned. -/
def lease (store : JobStore) (ttl : Time) (jobId owner : String) (now : Time) :
    Except JobError (JobStore × Job) :=
  match store.get? jobId with
  | none => .error (.notFound jobId)
  | some job =>
    if isLeaseable now job then
      .ok (store.put (leasedTo owner (now + ttl) job), leasedTo owner (now + ttl) job)
    else .error (.notLeaseable job.status)

/-- `renew`: only the owner may extend the lease. -/
def renew (store : JobStore) (ttl : Time) (jobId owner : String) (now : Time) :
    Except JobError JobStore :=
  match store.get? jobId with
  | none => .error (.notFound jobId)
  | some job =>
    if job.leaseOwner = some owner then
      .ok (store.put { job with leaseExpiresAt := some (now + ttl) })
    else .error .notOwner

/-- `complete`. -/
def complete (store : JobStore) (jobId resultDigest : String) : Except JobError JobStore :=
  store.update jobId fun job => { job with status := .succeeded, resultDigest }

/-- `fail`. -/
def fail (store : JobStore) (jobId : String) (failure : FailureClass) :
    Except JobError JobStore :=
  store.update jobId fun job =>
    { job with
      status := if failure ∈ policyFailures then .policyDenied else .failed
      failureClass := failure.value }

/-- `requeue`. -/
def requeue (store : JobStore) (jobId : String) : Except JobError JobStore :=
  store.update jobId fun job =>
    { job with status := .ready, leaseOwner := none, leaseExpiresAt := none, failureClass := "" }

/-- `skip`. -/
def skip (store : JobStore) (jobId : String) : Except JobError JobStore :=
  store.update jobId fun job =>
    { job with status := .skipped, leaseOwner := none, leaseExpiresAt := none }

/-- `job.plan_step_key.startswith("loop:")`. -/
def isLoopJob (job : Job) : Bool := startsWith job.planStepKey.toList "loop:".toList

/-- `leaseable`: jobs of the reasoning loop first. -/
def leaseable (store : JobStore) (now : Time) : List Job :=
  let found := store.all.filter (isLeaseable now)
  found.filter isLoopJob ++ found.filter fun job => !isLoopJob job

/-! ## What the operations do -/

variable {store store' : JobStore} {jobId : String}

theorem update_ok_iff {change : Job → Job} :
    store.update jobId change = .ok store' ↔
      ∃ job, store.get? jobId = some job ∧ store' = store.put { change job with id := job.id } := by
  unfold update
  cases store.get? jobId with
  | none => simp
  | some job => simp [eq_comm]

/-- A write changes no job but its own. -/
theorem get?_update {change : Job → Job} (h : store.update jobId change = .ok store') (id : String) :
    store'.get? id =
      if id = jobId then (store.get? id).map fun job => { change job with id := job.id }
      else store.get? id := by
  obtain ⟨job, hjob, rfl⟩ := update_ok_iff.mp h
  rw [get?_put]
  have hid := id_of_get? hjob
  by_cases h' : id = jobId
  · subst h'
    simp [hid, hjob]
  · rw [if_neg (by simpa [hid] using h'), if_neg h']

theorem add_cases (store : JobStore) (job : Job) :
    (∃ existing ∈ store.all, existing.idempotencyKey = job.idempotencyKey ∧
        store.add job = (store, existing)) ∨
      ((∀ existing ∈ store.all, existing.idempotencyKey ≠ job.idempotencyKey) ∧
        store.add job = (store.put job, job)) := by
  unfold add
  cases hfind : store.all.find? fun existing => existing.idempotencyKey == job.idempotencyKey with
  | some existing =>
    left
    refine ⟨existing, List.mem_of_find?_eq_some hfind, ?_, rfl⟩
    simpa using List.find?_some hfind
  | none =>
    right
    refine ⟨fun existing hmem => ?_, rfl⟩
    simpa using List.find?_eq_none.mp hfind existing hmem

theorem lease_ok_iff {ttl now : Time} {owner : String} {leased : Job} :
    store.lease ttl jobId owner now = .ok (store', leased) ↔
      ∃ job, store.get? jobId = some job ∧ isLeaseable now job = true ∧
        leased = leasedTo owner (now + ttl) job ∧ store' = store.put leased := by
  unfold lease
  cases store.get? jobId with
  | none => simp
  | some job =>
    by_cases hl : isLeaseable now job = true
    · simp only [if_pos hl, Except.ok.injEq, Prod.mk.injEq, Option.some.injEq]
      constructor
      · rintro ⟨rfl, rfl⟩
        exact ⟨job, rfl, hl, rfl, rfl⟩
      · rintro ⟨job', rfl, -, rfl, rfl⟩
        exact ⟨rfl, rfl⟩
    · simp [hl]

@[simp] theorem leasedTo_id (owner : String) (expires : Time) (job : Job) :
    (leasedTo owner expires job).id = job.id := rfl

theorem renew_ok_iff {ttl now : Time} {owner : String} :
    store.renew ttl jobId owner now = .ok store' ↔
      ∃ job, store.get? jobId = some job ∧ job.leaseOwner = some owner ∧
        store' = store.put { job with leaseExpiresAt := some (now + ttl) } := by
  unfold renew
  cases store.get? jobId with
  | none => simp
  | some job =>
    by_cases howner : job.leaseOwner = some owner
    · simp [howner, eq_comm]
    · simp [howner]

theorem mem_leaseable {now : Time} {job : Job} :
    job ∈ store.leaseable now ↔ store.get? job.id = some job ∧ isLeaseable now job = true := by
  simp only [leaseable, List.mem_append, List.mem_filter, mem_all]
  cases isLoopJob job <;> simp

end JobStore

end SecOpent
