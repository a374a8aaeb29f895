import SecOpent.Jobs.Store

/-!
# The two job stores

`MemoryJobStore` of `application/jobs.py` and `SqlAlchemyJobRepository` of
`infrastructure/repositories/sqlalchemy_jobs.py`, operation by operation, with the results that they
return and the classes of the errors that they raise. A row of `core_jobs` has the status as a text
and no column for the parameters of a job; rows are read in the order in which they were inserted.

## Main definitions

* `ParameterJob`: a job with its parameters
* `MemoryJobStore`, `SqlAlchemyJobRepository`: the stores, and their `perform`
* `observe`: the results of a sequence of operations, and the store after it
* `Comparable`: the operations that the stores treat alike

## Main results

* `perform_agrees`: one operation on a table that mirrors the store in memory
* `stores_agree`: the results of comparable operations are the same, but for the parameters
-/

namespace SecOpent

open Python

/-! ## Jobs and rows -/

/-- A `Job` with its `parameters`, which may be of any type. -/
structure ParameterJob (α : Type) extends Job where
  parameters : α
  deriving DecidableEq

/-- `JobNotFoundError`, `JobLeaseError`, and `ValueError` for a status that is none. -/
inductive StoreError
  | notFound | lease | value
  deriving DecidableEq, Repr

/-- The operations of the `JobStore` protocol. -/
inductive StoreOp (α : Type)
  | add (job : ParameterJob α)
  | get (jobId : String)
  | all
  | leaseable (now : Time)
  | lease (jobId owner : String) (now : Time)
  | renew (jobId owner : String) (now : Time)
  | complete (jobId resultDigest : String)
  | fail (jobId : String) (failure : FailureClass)
  | requeue (jobId : String)
  | markReady (jobId : String)
  | skip (jobId : String)

/-- What an operation returns. -/
inductive StoreAnswer (α : Type)
  | job (job : ParameterJob α)
  | found (job : Option (ParameterJob α))
  | jobs (jobs : List (ParameterJob α))
  deriving DecidableEq

/-- The store after an operation; one that raises has changed nothing. -/
def afterOp {α σ : Type} (store : σ) : Except StoreError (StoreAnswer α × σ) → σ
  | .ok (_, store') => store'
  | .error _ => store

/-- The results of a sequence of operations, each of which returns or raises, and the store after
it. -/
def observe {α σ : Type} (perform : σ → StoreOp α → Except StoreError (StoreAnswer α × σ)) :
    σ → List (StoreOp α) → List (Except StoreError (StoreAnswer α)) × σ
  | store, [] => ([], store)
  | store, op :: ops =>
    let result := perform store op
    let rest := observe perform (afterOp store result) ops
    (result.map Prod.fst :: rest.1, rest.2)

/-- The jobs of the reasoning loop first, as `leaseable` returns them. -/
def leaseableOf {α : Type} (jobs : List (ParameterJob α)) (now : Time) : List (ParameterJob α) :=
  let found := jobs.filter fun job => JobStore.isLeaseable now job.toJob
  found.filter (fun job => JobStore.isLoopJob job.toJob) ++
    found.filter fun job => !JobStore.isLoopJob job.toJob

/-! ## The store in memory -/

/-- `MemoryJobStore`. -/
structure MemoryJobStore (α : Type) where
  jobs : Dict String (ParameterJob α) := .empty

namespace MemoryJobStore

variable {α : Type}

/-- `_require`. -/
def require (store : MemoryJobStore α) (jobId : String) : Except StoreError (ParameterJob α) :=
  match store.jobs.get? jobId with
  | none => .error .notFound
  | some job => .ok job

/-- `_set`. -/
def set (store : MemoryJobStore α) (jobId : String) (changes : Job → Job) :
    Except StoreError (StoreAnswer α × MemoryJobStore α) := do
  let job ← store.require jobId
  let updated := { job with toJob := changes job.toJob }
  .ok (.job updated, ⟨store.jobs.set jobId updated⟩)

/-- An operation of `MemoryJobStore(lease_ttl_seconds=ttl)`. -/
def perform (ttl : Time) (store : MemoryJobStore α) :
    StoreOp α → Except StoreError (StoreAnswer α × MemoryJobStore α)
  | .add job =>
    match store.jobs.values.find? fun existing =>
        existing.idempotencyKey == job.idempotencyKey with
    | some existing => .ok (.job existing, store)
    | none => .ok (.job job, ⟨store.jobs.set job.id job⟩)
  | .get jobId => .ok (.found (store.jobs.get? jobId), store)
  | .all => .ok (.jobs store.jobs.values, store)
  | .leaseable now => .ok (.jobs (leaseableOf store.jobs.values now), store)
  | .lease jobId owner now => do
    let job ← store.require jobId
    if JobStore.isLeaseable now job.toJob then
      store.set jobId (JobStore.leasedTo owner (now + ttl))
    else .error .lease
  | .renew jobId owner now => do
    let job ← store.require jobId
    if job.leaseOwner = some owner then
      store.set jobId fun job => { job with leaseExpiresAt := some (now + ttl) }
    else .error .lease
  | .complete jobId resultDigest =>
    store.set jobId fun job => { job with status := .succeeded, resultDigest }
  | .fail jobId failure =>
    store.set jobId fun job =>
      { job with
        status := if failure ∈ policyFailures then .policyDenied else .failed
        failureClass := failure.value }
  | .requeue jobId =>
    store.set jobId fun job =>
      { job with
        status := .ready, leaseOwner := none, leaseExpiresAt := none, failureClass := "" }
  | .markReady jobId => store.set jobId fun job => { job with status := .ready }
  | .skip jobId =>
    store.set jobId fun job =>
      { job with status := .skipped, leaseOwner := none, leaseExpiresAt := none }

/-- Every job is stored under its own id. -/
def Keyed (store : MemoryJobStore α) : Prop :=
  ∀ id job, store.jobs.get? id = some job → job.id = id

end MemoryJobStore

theorem ok_bind {β γ : Type} (b : β) (f : β → Except StoreError γ) :
    (Except.ok b >>= f) = f b := rfl

/-! ## The table -/

/-- `CoreJob`. The times are instants: what is stored as naive UTC is read as UTC. -/
structure CoreJob where
  id : String
  planStepKey : String
  idempotencyKey : String
  status : String
  attempt : ℕ
  maxAttempts : ℕ
  leaseOwner : Option String
  leaseExpiresAt : Option Time
  resultDigest : String
  failureClass : String
  dependencies : List String
  deriving DecidableEq

/-- `JobStatus(text)`. -/
def JobStatus.ofValue? (text : String) : Option JobStatus :=
  [.pending, .blocked, .ready, .leased, .running, .succeeded, .failed, .skipped,
    JobStatus.policyDenied].find? fun status => status.value == text

/-- `_to_job`. The parameters are those of a job that was given none. -/
def CoreJob.toJob {α : Type} (noParameters : α) (row : CoreJob) :
    Except StoreError (ParameterJob α) :=
  match JobStatus.ofValue? row.status with
  | none => .error .value
  | some status =>
    .ok
      { id := row.id
        planStepKey := row.planStepKey
        idempotencyKey := row.idempotencyKey
        status := status
        attempt := row.attempt
        maxAttempts := row.maxAttempts
        leaseOwner := row.leaseOwner
        leaseExpiresAt := row.leaseExpiresAt
        resultDigest := row.resultDigest
        failureClass := row.failureClass
        dependencies := row.dependencies
        parameters := noParameters }

/-- `_from_job`. -/
def CoreJob.fromJob (job : Job) : CoreJob where
  id := job.id
  planStepKey := job.planStepKey
  idempotencyKey := job.idempotencyKey
  status := job.status.value
  attempt := job.attempt
  maxAttempts := job.maxAttempts
  leaseOwner := job.leaseOwner
  leaseExpiresAt := job.leaseExpiresAt
  resultDigest := job.resultDigest
  failureClass := job.failureClass
  dependencies := job.dependencies

/-- `SqlAlchemyJobRepository`: the rows of `core_jobs` by primary key. -/
structure SqlAlchemyJobRepository where
  rows : Dict String CoreJob := .empty

namespace SqlAlchemyJobRepository

variable {α : Type} (noParameters : α)

/-- `UPDATE core_jobs SET … WHERE …`, with the number of rows that it matched. -/
def executeUpdate (repo : SqlAlchemyJobRepository) (condition : CoreJob → Bool)
    (values : CoreJob → CoreJob) : ℕ × SqlAlchemyJobRepository :=
  ((repo.rows.values.filter condition).length,
    ⟨repo.rows.mapValues fun row => if condition row then values row else row⟩)

/-- The `WHERE` clause of `lease`. -/
def leaseCondition (jobId : String) (now : Time) (row : CoreJob) : Bool :=
  row.id == jobId &&
    (row.status == JobStatus.ready.value ||
      (row.status == JobStatus.leased.value &&
        row.leaseExpiresAt.any fun expires => decide (expires ≤ now)))

/-- The `SET` clause of `lease`. -/
def leaseValues (owner : String) (expires : Time) (row : CoreJob) : CoreJob :=
  { row with
    status := JobStatus.leased.value
    leaseOwner := some owner
    leaseExpiresAt := some expires
    attempt := row.attempt + 1 }

/-- `get`. -/
def get (repo : SqlAlchemyJobRepository) (jobId : String) :
    Except StoreError (Option (ParameterJob α)) :=
  match repo.rows.get? jobId with
  | none => .ok none
  | some row => (row.toJob noParameters).map some

/-- `all`. -/
def all (repo : SqlAlchemyJobRepository) : Except StoreError (List (ParameterJob α)) :=
  repo.rows.values.mapM fun row => row.toJob noParameters

/-- `_require`. -/
def require (repo : SqlAlchemyJobRepository) (jobId : String) :
    Except StoreError (ParameterJob α) := do
  match ← repo.get noParameters jobId with
  | none => .error .notFound
  | some job => .ok job

/-- `_update`, and `_require` after it. -/
def update (repo : SqlAlchemyJobRepository) (jobId : String) (values : CoreJob → CoreJob) :
    Except StoreError (StoreAnswer α × SqlAlchemyJobRepository) := do
  let (rowcount, repo') := repo.executeUpdate (fun row => row.id == jobId) values
  if rowcount ≠ 1 then .error .notFound
  else .ok (.job (← repo'.require noParameters jobId), repo')

/-- An operation of `SqlAlchemyJobRepository(session, lease_ttl_seconds=ttl)`. -/
def perform (ttl : Time) (repo : SqlAlchemyJobRepository) :
    StoreOp α → Except StoreError (StoreAnswer α × SqlAlchemyJobRepository)
  | .add job =>
    match repo.rows.values.find? fun row => row.idempotencyKey == job.idempotencyKey with
    | some existing => do .ok (.job (← existing.toJob noParameters), repo)
    | none => .ok (.job job, ⟨repo.rows.set job.id (.fromJob job.toJob)⟩)
  | .get jobId => do .ok (.found (← repo.get noParameters jobId), repo)
  | .all => do .ok (.jobs (← repo.all noParameters), repo)
  | .leaseable now => do .ok (.jobs (leaseableOf (← repo.all noParameters) now), repo)
  | .lease jobId owner now =>
    let (rowcount, repo') :=
      repo.executeUpdate (leaseCondition jobId now) (leaseValues owner (now + ttl))
    if rowcount = 1 then do .ok (.job (← repo'.require noParameters jobId), repo')
    else do
      match ← repo.get noParameters jobId with
      | none => .error .notFound
      | some _ => .error .lease
  | .renew jobId owner now =>
    let (rowcount, repo') := repo.executeUpdate
      (fun row => row.id == jobId && row.leaseOwner == some owner)
      fun row => { row with leaseExpiresAt := some (now + ttl) }
    if rowcount ≠ 1 then .error .lease
    else do .ok (.job (← repo'.require noParameters jobId), repo')
  | .complete jobId resultDigest =>
    repo.update noParameters jobId fun row =>
      { row with status := JobStatus.succeeded.value, resultDigest }
  | .fail jobId failure =>
    let status : JobStatus := if failure ∈ policyFailures then .policyDenied else .failed
    repo.update noParameters jobId fun row =>
      { row with status := status.value, failureClass := failure.value }
  | .requeue jobId =>
    repo.update noParameters jobId fun row =>
      { row with
        status := JobStatus.ready.value
        leaseOwner := none
        leaseExpiresAt := none
        failureClass := "" }
  | .markReady jobId =>
    repo.update noParameters jobId fun row =>
      { row with status := JobStatus.ready.value, leaseOwner := none, leaseExpiresAt := none }
  | .skip jobId =>
    repo.update noParameters jobId fun row =>
      { row with status := JobStatus.skipped.value, leaseOwner := none, leaseExpiresAt := none }

end SqlAlchemyJobRepository

/-! ## What an `UPDATE` does -/

section Update

variable {repo : SqlAlchemyJobRepository} {condition : CoreJob → Bool} {values : CoreJob → CoreJob}
  {jobId : String} {row : CoreJob}

/-- An `UPDATE` that names a row by its key and finds it. -/
theorem executeUpdate_of_row (hkeyed : ∀ id row, repo.rows.get? id = some row → row.id = id)
    (hcondition : ∀ row, condition row = true → row.id = jobId)
    (hrow : repo.rows.get? jobId = some row) (hmatch : condition row = true) :
    repo.executeUpdate condition values = (1, ⟨repo.rows.set jobId (values row)⟩) := by
  -- The condition holds for the row with the key, and for no other one.
  have hitem : ∀ item ∈ repo.rows.items, condition item.2 = true ↔ item.1 = jobId := by
    rintro ⟨id, found⟩ hmem
    have hget := Dict.mem_items_iff.mp hmem
    constructor
    · intro hfound
      rw [← hcondition found hfound, hkeyed id found hget]
    · rintro rfl
      rw [hrow, Option.some.injEq] at hget
      rw [← hget]
      exact hmatch
  have hmem : (jobId, row) ∈ repo.rows.items := Dict.mem_items_iff.mpr hrow
  have hkey : jobId ∈ repo.rows.items.map Prod.fst := List.mem_map.mpr ⟨_, hmem, rfl⟩
  have hcount : (repo.rows.values.filter condition).length = 1 := by
    rw [← List.countP_eq_length_filter, Dict.values, List.countP_map,
      ← List.count_eq_one_of_mem repo.rows.keys_nodup hkey, List.count, List.countP_map]
    refine List.countP_congr fun item hmem => ?_
    simpa using hitem item hmem
  have hset : repo.rows.mapValues (fun row => if condition row then values row else row) =
      repo.rows.set jobId (values row) := by
    refine Dict.ext_items (Eq.trans ?_ (Dict.assign_of_mem repo.rows.keys_nodup hkey).symm)
    refine List.map_congr_left fun item hmem => ?_
    dsimp only
    by_cases heq : item.1 = jobId
    · have hfound : item.2 = row := by
        have hget := Dict.mem_items_iff.mp hmem
        rw [heq, hrow, Option.some.injEq] at hget
        exact hget.symm
      rw [if_pos ((hitem item hmem).mpr heq), if_pos heq, hfound]
    · rw [if_neg fun h => heq ((hitem item hmem).mp h), if_neg heq]
  rw [SqlAlchemyJobRepository.executeUpdate, hcount, hset]

/-- An `UPDATE` that names a row by its key and does not find it. -/
theorem executeUpdate_of_none (hkeyed : ∀ id row, repo.rows.get? id = some row → row.id = id)
    (hcondition : ∀ row, condition row = true → row.id = jobId)
    (hnone : ∀ row, repo.rows.get? jobId = some row → condition row = false) :
    repo.executeUpdate condition values = (0, repo) := by
  have hitem : ∀ item ∈ repo.rows.items, condition item.2 = false := by
    rintro ⟨id, found⟩ hmem
    have hget := Dict.mem_items_iff.mp hmem
    by_contra hfound
    rw [Bool.not_eq_false] at hfound
    have hid : id = jobId := by rw [← hcondition found hfound, hkeyed id found hget]
    rw [hnone found (hid ▸ hget)] at hfound
    cases hfound
  have hcount : (repo.rows.values.filter condition).length = 0 := by
    rw [List.length_eq_zero_iff, List.filter_eq_nil_iff]
    intro found hfound
    obtain ⟨item, hmem, rfl⟩ := List.mem_map.mp hfound
    simp [hitem item hmem]
  have hsame : repo.rows.mapValues (fun row => if condition row then values row else row) =
      repo.rows := by
    refine Dict.ext_items (Eq.trans (List.map_congr_left fun item hmem => ?_) (List.map_id _))
    simp [hitem item hmem]
  rw [SqlAlchemyJobRepository.executeUpdate, hcount, hsame]

end Update

/-! ## The table mirrors the store -/

/-- A job without its parameters. -/
def ParameterJob.stripped {α : Type} (noParameters : α) (job : ParameterJob α) : ParameterJob α :=
  { job with parameters := noParameters }

/-- A result without the parameters of its jobs. -/
def StoreAnswer.stripped {α : Type} (noParameters : α) : StoreAnswer α → StoreAnswer α
  | .job one => .job (one.stripped noParameters)
  | .found one => .found (one.map (ParameterJob.stripped noParameters))
  | .jobs many => .jobs (many.map (ParameterJob.stripped noParameters))

/-- The table has the rows of the jobs, in their order. -/
structure Mirrors {α : Type} (store : MemoryJobStore α) (repo : SqlAlchemyJobRepository) : Prop where
  keyed : store.Keyed
  rows : repo.rows = store.jobs.mapValues fun job => .fromJob job.toJob

/-- Both operations raised the same, or both returned the same but for the parameters and left a
table that mirrors the store. -/
def Agree {α : Type} (noParameters : α) :
    Except StoreError (StoreAnswer α × MemoryJobStore α) →
    Except StoreError (StoreAnswer α × SqlAlchemyJobRepository) → Prop
  | .ok (answer, store), .ok (answer', repo) =>
    answer.stripped noParameters = answer'.stripped noParameters ∧ Mirrors store repo
  | .error error, .error error' => error = error'
  | _, _ => False

section Mirrors

variable {α : Type} {noParameters : α} {store : MemoryJobStore α} {repo : SqlAlchemyJobRepository}
  {jobId : String}

theorem ofValue?_value (status : JobStatus) : JobStatus.ofValue? status.value = some status := by
  cases status <;> decide

theorem toJob_fromJob (job : Job) :
    (CoreJob.fromJob job).toJob noParameters = .ok { job with parameters := noParameters } := by
  simp only [CoreJob.toJob, CoreJob.fromJob, ofValue?_value]

theorem Mirrors.get? (h : Mirrors store repo) (jobId : String) :
    repo.rows.get? jobId = (store.jobs.get? jobId).map fun job => .fromJob job.toJob := by
  rw [h.rows, Dict.get?_mapValues]

theorem Mirrors.rows_keyed (h : Mirrors store repo) (id : String) (row : CoreJob)
    (hrow : repo.rows.get? id = some row) : row.id = id := by
  rw [h.get?] at hrow
  obtain ⟨job, hjob, rfl⟩ := Option.map_eq_some_iff.mp hrow
  exact h.keyed id job hjob

theorem Mirrors.get (h : Mirrors store repo) (jobId : String) :
    repo.get noParameters jobId =
      .ok ((store.jobs.get? jobId).map (ParameterJob.stripped noParameters)) := by
  rw [SqlAlchemyJobRepository.get, h.get?]
  cases store.jobs.get? jobId with
  | none => rfl
  | some job =>
    simp only [Option.map_some, toJob_fromJob]
    rfl

theorem Mirrors.require (h : Mirrors store repo) {job : ParameterJob α}
    (hjob : store.jobs.get? jobId = some job) :
    repo.require noParameters jobId = .ok (job.stripped noParameters) := by
  rw [SqlAlchemyJobRepository.require, h.get, hjob]
  rfl

theorem Mirrors.all (h : Mirrors store repo) :
    repo.all noParameters =
      .ok (store.jobs.values.map (ParameterJob.stripped noParameters)) := by
  rw [SqlAlchemyJobRepository.all, h.rows, Dict.values_mapValues]
  induction store.jobs.values with
  | nil => rfl
  | cons job jobs ih =>
    rw [List.map_cons, List.mapM_cons, ih, toJob_fromJob]
    rfl

/-- One job is written, on both sides. -/
theorem Mirrors.set (h : Mirrors store repo) {job : ParameterJob α} {row : CoreJob}
    (hid : job.id = jobId) (hrow : row = .fromJob job.toJob) :
    Mirrors ⟨store.jobs.set jobId job⟩ ⟨repo.rows.set jobId row⟩ := by
  refine ⟨fun id found hfound => ?_, ?_⟩
  · rw [Dict.get?_set] at hfound
    split at hfound
    next heq =>
      cases hfound
      rw [heq, hid]
    next => exact h.keyed id found hfound
  · rw [hrow, h.rows, Dict.mapValues_set]

/-- What is read back after one job is written. -/
theorem Mirrors.read_set (h : Mirrors store repo) (noParameters : α) {job : ParameterJob α}
    {row : CoreJob} (hid : job.id = jobId) (hrow : row = .fromJob job.toJob) :
    (⟨repo.rows.set jobId row⟩ : SqlAlchemyJobRepository).require noParameters jobId =
      .ok (job.stripped noParameters) :=
  (h.set hid hrow).require (by rw [Dict.get?_set, if_pos rfl])

/-- A guarded change of a job against an `UPDATE` with a condition on its row. -/
theorem Mirrors.executeUpdate (h : Mirrors store repo) (noParameters : α) (guard : Job → Bool)
    (condition : CoreJob → Bool) (changes : Job → Job) (values : CoreJob → CoreJob) {jobId : String}
    (hcondition : ∀ row, condition row = true → row.id = jobId)
    (hguard : ∀ job : Job, job.id = jobId → condition (.fromJob job) = guard job)
    (hid : ∀ job, (changes job).id = job.id)
    (hvalues : ∀ job, store.jobs.get? jobId = some job →
      values (.fromJob job.toJob) = .fromJob (changes job.toJob)) :
    (∃ job updated repo', store.jobs.get? jobId = some job ∧ guard job.toJob = true ∧
      repo.executeUpdate condition values = (1, repo') ∧
      store.set jobId changes = .ok (.job updated, ⟨store.jobs.set jobId updated⟩) ∧
      repo'.require noParameters jobId = .ok (updated.stripped noParameters) ∧
      Mirrors ⟨store.jobs.set jobId updated⟩ repo') ∨
    ((∀ job, store.jobs.get? jobId = some job → guard job.toJob = false) ∧
      repo.executeUpdate condition values = (0, repo)) := by
  by_cases hfound : ∃ job, store.jobs.get? jobId = some job ∧ guard job.toJob = true
  · obtain ⟨job, hjob, hmatch⟩ := hfound
    have hjobId := h.keyed jobId job hjob
    have hrow : repo.rows.get? jobId = some (.fromJob job.toJob) := by rw [h.get?, hjob]; rfl
    set updated : ParameterJob α := { job with toJob := changes job.toJob } with hupdated
    have hupdatedId : updated.id = jobId := (hid job.toJob).trans hjobId
    refine .inl ⟨job, updated, _, hjob, hmatch,
      executeUpdate_of_row h.rows_keyed hcondition hrow (by rw [hguard _ hjobId, hmatch]), ?_,
      h.read_set noParameters hupdatedId (hvalues job hjob), h.set hupdatedId (hvalues job hjob)⟩
    rw [MemoryJobStore.set, MemoryJobStore.require, hjob]
    rfl
  · have hnone : ∀ job, store.jobs.get? jobId = some job → guard job.toJob = false := by
      intro job hjob
      by_contra hmatch
      exact hfound ⟨job, hjob, by simpa using hmatch⟩
    refine .inr ⟨hnone, executeUpdate_of_none h.rows_keyed hcondition fun row hrow => ?_⟩
    rw [h.get?] at hrow
    obtain ⟨job, hjob, rfl⟩ := Option.map_eq_some_iff.mp hrow
    rw [hguard _ (h.keyed jobId job hjob), hnone job hjob]

/-- A change of a job against an `UPDATE` of its row. -/
theorem Mirrors.update (h : Mirrors store repo) {changes : Job → Job} {values : CoreJob → CoreJob}
    (hid : ∀ job, (changes job).id = job.id)
    (hvalues : ∀ job, store.jobs.get? jobId = some job →
      values (.fromJob job.toJob) = .fromJob (changes job.toJob)) :
    Agree noParameters (store.set jobId changes) (repo.update noParameters jobId values) := by
  have hcases := h.executeUpdate noParameters (fun _ => true) (fun row => row.id == jobId) changes
    values (fun row hrow => beq_iff_eq.mp hrow) (fun job hjob => beq_iff_eq.mpr hjob) hid hvalues
  rcases hcases with ⟨job, updated, repo', -, -, hupdate, hset, hread, hmirrors⟩ | ⟨hnone, hupdate⟩
  · simp only [SqlAlchemyJobRepository.update, hupdate, hset]
    rw [if_neg (by decide), hread]
    exact ⟨rfl, hmirrors⟩
  · have hmissing : store.jobs.get? jobId = none := by
      by_contra hsome
      obtain ⟨job, hjob⟩ := Option.ne_none_iff_exists'.mp hsome
      cases hnone job hjob
    simp only [MemoryJobStore.set, MemoryJobStore.require, hmissing,
      SqlAlchemyJobRepository.update, hupdate]
    rfl

theorem value_inj {status status' : JobStatus} (h : status.value = status'.value) :
    status = status' := by
  have hvalue := ofValue?_value status
  rw [h, ofValue?_value, Option.some.injEq] at hvalue
  exact hvalue.symm

theorem value_beq (status status' : JobStatus) :
    (status.value == status'.value) = (status == status') := by
  by_cases heq : status = status'
  · simp [heq]
  · have hne : status.value ≠ status'.value := fun h => heq (value_inj h)
    rw [beq_eq_false_iff_ne.mpr hne, beq_eq_false_iff_ne.mpr heq]

theorem Mirrors.add (h : Mirrors store repo) (ttl : Time) (job : ParameterJob α) :
    Agree noParameters (store.perform ttl (.add job)) (repo.perform noParameters ttl (.add job)) := by
  have hfind : repo.rows.values.find? (fun row => row.idempotencyKey == job.idempotencyKey) =
      (store.jobs.values.find? fun existing => existing.idempotencyKey == job.idempotencyKey).map
        fun existing => .fromJob existing.toJob := by
    rw [h.rows, Dict.values_mapValues, List.find?_map]
    rfl
  simp only [MemoryJobStore.perform, SqlAlchemyJobRepository.perform, hfind]
  cases store.jobs.values.find? fun existing => existing.idempotencyKey == job.idempotencyKey with
  | some existing =>
    simp only [Option.map_some, toJob_fromJob]
    exact ⟨rfl, h⟩
  | none => exact ⟨rfl, h.set rfl rfl⟩

theorem Mirrors.lease (h : Mirrors store repo) (ttl : Time) (jobId owner : String) (now : Time) :
    Agree noParameters (store.perform ttl (.lease jobId owner now))
      (repo.perform noParameters ttl (.lease jobId owner now)) := by
  have hguard : ∀ job : Job, job.id = jobId →
      SqlAlchemyJobRepository.leaseCondition jobId now (.fromJob job) =
        JobStore.isLeaseable now job := by
    intro job hid
    simp only [SqlAlchemyJobRepository.leaseCondition, CoreJob.fromJob, value_beq, hid,
      JobStore.isLeaseable, JobStore.isStale, beq_self_eq_true, Bool.true_and]
  have hcondition : ∀ row, SqlAlchemyJobRepository.leaseCondition jobId now row = true →
      row.id = jobId := by
    intro row hrow
    rw [SqlAlchemyJobRepository.leaseCondition, Bool.and_eq_true, beq_iff_eq] at hrow
    exact hrow.1
  rcases h.executeUpdate noParameters (JobStore.isLeaseable now)
    (SqlAlchemyJobRepository.leaseCondition jobId now) (JobStore.leasedTo owner (now + ttl))
    (SqlAlchemyJobRepository.leaseValues owner (now + ttl)) hcondition hguard (fun _ => rfl)
    (fun _ _ => rfl) with ⟨job, updated, repo', hjob, hmatch, hupdate, hset, hread, hmirrors⟩ |
    ⟨hnone, hupdate⟩
  · simp only [MemoryJobStore.perform, MemoryJobStore.require, hjob,
      SqlAlchemyJobRepository.perform, hupdate, if_true, hread]
    rw [ok_bind, if_pos hmatch, hset]
    exact ⟨rfl, hmirrors⟩
  · simp only [MemoryJobStore.perform, MemoryJobStore.require, SqlAlchemyJobRepository.perform,
      hupdate, h.get]
    cases hjob : store.jobs.get? jobId with
    | none => rfl
    | some job =>
      simp only [ok_bind, hnone job hjob]
      rfl

theorem Mirrors.renew (h : Mirrors store repo) (ttl : Time) {jobId : String} (owner : String)
    (now : Time) {job : ParameterJob α} (hjob : store.jobs.get? jobId = some job) :
    Agree noParameters (store.perform ttl (.renew jobId owner now))
      (repo.perform noParameters ttl (.renew jobId owner now)) := by
  have hcases := h.executeUpdate noParameters (fun job => job.leaseOwner == some owner)
    (fun row => row.id == jobId && row.leaseOwner == some owner)
    (fun job => { job with leaseExpiresAt := some (now + ttl) })
    (fun row => { row with leaseExpiresAt := some (now + ttl) })
    (fun row hrow => beq_iff_eq.mp (Bool.and_eq_true _ _ ▸ hrow).1)
    (fun job hid => by simp [CoreJob.fromJob, hid]) (fun _ => rfl) (fun _ _ => rfl)
  rcases hcases with ⟨found, updated, repo', hfound, hmatch, hupdate, hset, hread, hmirrors⟩ |
    ⟨hnone, hupdate⟩
  · simp only [MemoryJobStore.perform, MemoryJobStore.require, hfound,
      SqlAlchemyJobRepository.perform, hupdate]
    rw [ok_bind, if_pos (beq_iff_eq.mp hmatch), if_neg (by decide), hset, hread]
    exact ⟨rfl, hmirrors⟩
  · have howner : job.leaseOwner ≠ some owner := by
      simpa using hnone job hjob
    simp only [MemoryJobStore.perform, MemoryJobStore.require, hjob,
      SqlAlchemyJobRepository.perform, hupdate]
    rw [ok_bind, if_neg howner, if_pos (by decide)]
    rfl

/-- The operations that both stores treat alike: a renewal of a job that is there, and marking a job
ready that holds no lease. -/
def Comparable (store : MemoryJobStore α) : StoreOp α → Prop
  | .renew jobId _ _ => ∃ job, store.jobs.get? jobId = some job
  | .markReady jobId => ∀ job, store.jobs.get? jobId = some job →
      job.leaseOwner = none ∧ job.leaseExpiresAt = none
  | _ => True

/-- **One operation on a table that mirrors the store in memory**. -/
theorem perform_agrees (h : Mirrors store repo) (noParameters : α) (ttl : Time) {op : StoreOp α}
    (hop : Comparable store op) :
    Agree noParameters (store.perform ttl op) (repo.perform noParameters ttl op) := by
  have hleaseable : ∀ (jobs : List (ParameterJob α)) (now : Time),
      (leaseableOf jobs now).map (ParameterJob.stripped noParameters) =
        leaseableOf (jobs.map (ParameterJob.stripped noParameters)) now := by
    intro jobs now
    simp only [leaseableOf, List.map_append, List.filter_map]
    rfl
  have hstripped : ∀ jobs : List (ParameterJob α),
      (jobs.map (ParameterJob.stripped noParameters)).map (ParameterJob.stripped noParameters) =
        jobs.map (ParameterJob.stripped noParameters) := by
    intro jobs
    rw [List.map_map]
    rfl
  cases op with
  | add job => exact h.add ttl job
  | get jobId =>
    simp only [MemoryJobStore.perform, SqlAlchemyJobRepository.perform, h.get, ok_bind]
    refine ⟨?_, h⟩
    cases store.jobs.get? jobId <;> rfl
  | all =>
    simp only [MemoryJobStore.perform, SqlAlchemyJobRepository.perform, h.all, ok_bind]
    exact ⟨congrArg StoreAnswer.jobs (hstripped _).symm, h⟩
  | leaseable now =>
    simp only [MemoryJobStore.perform, SqlAlchemyJobRepository.perform, h.all, ok_bind]
    refine ⟨congrArg StoreAnswer.jobs ?_, h⟩
    rw [hleaseable, hleaseable, hstripped]
  | lease jobId owner now => exact h.lease ttl jobId owner now
  | renew jobId owner now =>
    obtain ⟨job, hjob⟩ := hop
    exact h.renew ttl owner now hjob
  | complete jobId resultDigest =>
    rw [MemoryJobStore.perform, SqlAlchemyJobRepository.perform]
    exact h.update (fun _ => rfl) fun _ _ => rfl
  | fail jobId failure =>
    rw [MemoryJobStore.perform, SqlAlchemyJobRepository.perform]
    exact h.update (fun _ => rfl) fun _ _ => rfl
  | requeue jobId =>
    rw [MemoryJobStore.perform, SqlAlchemyJobRepository.perform]
    exact h.update (fun _ => rfl) fun _ _ => rfl
  | markReady jobId =>
    rw [MemoryJobStore.perform, SqlAlchemyJobRepository.perform]
    refine h.update (fun _ => rfl) fun job hjob => ?_
    -- There is no lease to clear.
    obtain ⟨howner, hexpires⟩ := hop job hjob
    simp only [CoreJob.fromJob, howner, hexpires]
  | skip jobId =>
    rw [MemoryJobStore.perform, SqlAlchemyJobRepository.perform]
    exact h.update (fun _ => rfl) fun _ _ => rfl

/-- Every operation of a sequence is comparable where it is made. -/
def AllComparable (ttl : Time) : MemoryJobStore α → List (StoreOp α) → Prop
  | _, [] => True
  | store, op :: ops =>
    Comparable store op ∧ AllComparable ttl (afterOp store (store.perform ttl op)) ops

theorem Agree.after {result : Except StoreError (StoreAnswer α × MemoryJobStore α)}
    {result' : Except StoreError (StoreAnswer α × SqlAlchemyJobRepository)}
    (h : Agree noParameters result result') (hmirrors : Mirrors store repo) :
    (result.map Prod.fst).map (StoreAnswer.stripped noParameters) =
        (result'.map Prod.fst).map (StoreAnswer.stripped noParameters) ∧
      Mirrors (afterOp store result) (afterOp repo result') := by
  cases result with
  | ok value =>
    cases result' with
    | ok value' => exact ⟨congrArg Except.ok h.1, h.2⟩
    | error error => exact h.elim
  | error error =>
    cases result' with
    | ok value' => exact h.elim
    | error error' => exact ⟨congrArg Except.error h, hmirrors⟩

theorem observe_agrees (noParameters : α) (ttl : Time) (ops : List (StoreOp α))
    (hmirrors : Mirrors store repo) (hops : AllComparable ttl store ops) :
    (observe (MemoryJobStore.perform ttl) store ops).1.map
        (fun result => result.map (StoreAnswer.stripped noParameters)) =
      (observe (SqlAlchemyJobRepository.perform noParameters ttl) repo ops).1.map
        (fun result => result.map (StoreAnswer.stripped noParameters)) ∧
    Mirrors (observe (MemoryJobStore.perform ttl) store ops).2
      (observe (SqlAlchemyJobRepository.perform noParameters ttl) repo ops).2 := by
  induction ops generalizing store repo with
  | nil => exact ⟨rfl, hmirrors⟩
  | cons op ops ih =>
    obtain ⟨hop, hrest⟩ := hops
    obtain ⟨hresult, hafter⟩ := (perform_agrees hmirrors noParameters ttl hop).after hmirrors
    obtain ⟨hresults, hend⟩ := ih hafter hrest
    refine ⟨?_, hend⟩
    simp only [observe, List.map_cons]
    rw [hresult, hresults]

end Mirrors

theorem mirrors_empty (α : Type) :
    Mirrors (⟨.empty⟩ : MemoryJobStore α) (⟨.empty⟩ : SqlAlchemyJobRepository) :=
  ⟨fun id job hjob => by simp at hjob, rfl⟩

/-! ## Sequences of operations -/

/-- A sequence of operations on an empty `MemoryJobStore`. -/
def runMemory {α : Type} (ttl : Time) (ops : List (StoreOp α)) :
    List (Except StoreError (StoreAnswer α)) × MemoryJobStore α :=
  observe (MemoryJobStore.perform ttl) ⟨.empty⟩ ops

/-- A sequence of operations on an empty `core_jobs`. -/
def runSql {α : Type} (noParameters : α) (ttl : Time) (ops : List (StoreOp α)) :
    List (Except StoreError (StoreAnswer α)) × SqlAlchemyJobRepository :=
  observe (SqlAlchemyJobRepository.perform noParameters ttl) ⟨.empty⟩ ops

/-- **The stores agree on comparable operations**: they return the same and raise the same classes of
errors, and they hold the same jobs in the same order, but for the parameters, which the table does
not keep. -/
theorem stores_agree {α : Type} (noParameters : α) (ttl : Time) (ops : List (StoreOp α))
    (hops : AllComparable ttl ⟨.empty⟩ ops) :
    (runMemory ttl ops).1.map (fun result => result.map (StoreAnswer.stripped noParameters)) =
      (runSql noParameters ttl ops).1.map
        (fun result => result.map (StoreAnswer.stripped noParameters)) ∧
    (runSql noParameters ttl ops).2.all noParameters =
      .ok ((runMemory ttl ops).2.jobs.values.map (ParameterJob.stripped noParameters)) := by
  obtain ⟨hresults, hmirrors⟩ := observe_agrees noParameters ttl ops (mirrors_empty α) hops
  exact ⟨hresults, hmirrors.all⟩

/-- `{}`. -/
def noPayload : Dict String String := .empty

/-- A job with a parameter. -/
def payloadJob : ParameterJob (Dict String String) where
  id := "job:scan"
  planStepKey := "scan"
  idempotencyKey := "digest:scan"
  status := .ready
  parameters := noPayload.set "tool" "nmap"

/-- A lease, a heartbeat and a result. -/
theorem stores_agree_payload :
    (runSql noPayload 300 [.add payloadJob, .lease "job:scan" "w1" 0, .renew "job:scan" "w1" 10,
      .complete "job:scan" "ports"]).2.all noPayload =
    .ok [{ payloadJob with
      status := .succeeded
      attempt := 1
      leaseOwner := some "w1"
      leaseExpiresAt := some 310
      resultDigest := "ports"
      parameters := noPayload }] := by
  have hops : AllComparable 300 ⟨.empty⟩ [.add payloadJob, .lease "job:scan" "w1" 0,
      .renew "job:scan" "w1" 10, .complete "job:scan" "ports"] :=
    ⟨trivial, trivial, ⟨_, rfl⟩, trivial, trivial⟩
  refine (stores_agree noPayload 300 _ hops).2.trans ?_
  decide +kernel

/-- The table does not keep the parameters of a job, marking a job ready that is leased clears its
lease in the table only, and the renewal of a job that is not there raises different errors. -/
theorem stores_differ :
    (runMemory 300 [.add payloadJob, .get "job:scan"]).1 ≠
      (runSql noPayload 300 [.add payloadJob, .get "job:scan"]).1 ∧
    (runMemory 300 [.add { payloadJob with parameters := noPayload }, .lease "job:scan" "w1" 0,
        .markReady "job:scan"]).1 ≠
      (runSql noPayload 300 [.add { payloadJob with parameters := noPayload },
        .lease "job:scan" "w1" 0, .markReady "job:scan"]).1 ∧
    (runMemory 300 ([.renew "job:scan" "w1" 0] : List (StoreOp (Dict String String)))).1 ≠
      (runSql noPayload 300 [.renew "job:scan" "w1" 0]).1 := by
  decide +kernel

end SecOpent
