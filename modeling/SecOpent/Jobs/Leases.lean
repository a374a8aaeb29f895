import SecOpent.Jobs.Orchestrator

/-!
# Whose outcome a job records

`renew` asks for the owner of a lease, but `complete`, `fail` and `requeue` take a job id alone:
a worker whose lease has expired reports into the lease of whoever took the job over. Outcomes come
from the lease holder in every run in which a lease is taken over only after its worker is gone,
and in which no dispatch, unblocking or cancellation writes a job that succeeded or is running.

## Main definitions

* `Running s id`: some orchestrator is executing the job
* `KeepsLeases`: the condition on one step, read in the state before it
* `Held`: the invariant, that every running job is still leased to the one who runs it

## Main results

* `held`: the invariant holds along every such run
* `outcome_from_holder`: outcomes are those of the lease holder, and `SUCCEEDED` is final
-/

namespace SecOpent

open Python Transition

/-- The outcome that a job records. -/
def Job.outcome? (job : Job) : Option (JobStatus × String) :=
  match job.status with
  | .succeeded => some (.succeeded, job.resultDigest)
  | .failed => some (.failed, job.failureClass)
  | .policyDenied => some (.policyDenied, job.failureClass)
  | _ => none

theorem Job.outcome?_eq_none {job : Job} (h : job.status = .ready ∨ job.status = .blocked ∨
    job.status = .leased ∨ job.status = .skipped) : job.outcome? = none := by
  rcases h with h | h | h | h <;> simp only [outcome?, h]

/-- What a report with this outcome records for the job that was leased: nothing when the job is
put back for another attempt. -/
def StepOutcome.outcome? (leased : Job) : StepOutcome → Option (JobStatus × String)
  | .result digest => some (.succeeded, digest)
  | .failure failureClass =>
    if failureClass ∈ policyFailures then some (.policyDenied, failureClass.value)
    else if failureClass ∈ retryableFailures ∧ leased.attempt < leased.maxAttempts then none
    else some (.failed, failureClass.value)

namespace Orchestrator

variable {backend : Backend} {ttl : Time} {store store' : JobStore} {o o' : Orchestrator}

theorem get?_orElseStore_update_self {jobId : String} {change : Job → Job} {job : Job}
    (hjob : store.get? jobId = some job) :
    (orElseStore store (store.update jobId change)).get? jobId =
      some { change job with id := job.id } := by
  have hu : store.update jobId change = .ok (store.put { change job with id := job.id }) :=
    JobStore.update_ok_iff.mpr ⟨job, hjob, rfl⟩
  rw [hu, orElseStore, JobStore.get?_put, if_pos (JobStore.id_of_get? hjob).symm]

theorem exists_of_get?_orElseStore_update {jobId id : String} {change : Job → Job} {job' : Job}
    (hjob' : (orElseStore store (store.update jobId change)).get? id = some job') :
    ∃ job, store.get? id = some job ∧ (job' = job ∨ job' = { change job with id := job.id }) := by
  cases hu : store.update jobId change with
  | error e =>
    rw [hu] at hjob'
    exact ⟨job', hjob', .inl rfl⟩
  | ok store' =>
    rw [hu, orElseStore, JobStore.get?_update hu] at hjob'
    split at hjob'
    · obtain ⟨job, hjob, rfl⟩ := Option.map_eq_some_iff.mp hjob'
      exact ⟨job, hjob, .inr rfl⟩
    · exact ⟨job', hjob', .inl rfl⟩

/-- A renewal changes the expiry of a lease and nothing else. -/
theorem get?_orElseStore_renew (store : JobStore) (ttl : Time) (jobId id : String) (time : Time) :
    ∃ expiry : Option Time → Option Time,
      (orElseStore store (store.renew ttl jobId leaseOwnerName time)).get? id =
        (store.get? id).map fun job =>
          { job with leaseExpiresAt := expiry job.leaseExpiresAt } := by
  cases hn : store.renew ttl jobId leaseOwnerName time with
  | error e => exact ⟨fun e => e, by simp [orElseStore]⟩
  | ok store' =>
    obtain ⟨job, hjob, -, rfl⟩ := JobStore.renew_ok_iff.mp hn
    rw [orElseStore, JobStore.get?_put]
    split
    next heq =>
      refine ⟨fun _ => some (time + ttl), ?_⟩
      have hid : id = jobId := heq.trans (show job.id = jobId from JobStore.id_of_get? hjob)
      simp [hid, hjob]
    next => exact ⟨fun e => e, by simp⟩

/-- A report records its outcome for the job that was leased. -/
theorem get?_reportOutcome {leased job : Job} (hjob : store.get? leased.id = some job)
    (outcome : StepOutcome) :
    ∃ job', (orElseStore store (reportOutcome store leased outcome)).get? leased.id = some job' ∧
      job'.outcome? = outcome.outcome? leased := by
  cases outcome with
  | result digest => exact ⟨_, get?_orElseStore_update_self hjob, rfl⟩
  | failure failure =>
    simp only [reportOutcome, StepOutcome.outcome?]
    split_ifs with hpolicy hretry
    · refine ⟨_, get?_orElseStore_update_self hjob, ?_⟩
      simp [Job.outcome?, hpolicy]
    · exact ⟨_, get?_orElseStore_update_self hjob, rfl⟩
    · refine ⟨_, get?_orElseStore_update_self hjob, ?_⟩
      simp [Job.outcome?, hpolicy]

end Orchestrator

namespace JobSystem

variable {backend : Backend} {ttl : Time}

/-- Some orchestrator is executing the job. -/
def Running (s : JobSystem) (id : String) : Prop :=
  ∃ o ∈ s.orchestrators, ∃ target ∈ o.running, target.1.id = id

/-- The job has succeeded or is being executed. -/
def Settled (s : JobSystem) (id : String) : Prop :=
  s.Running id ∨ (s.store.get? id).map Job.status = some .succeeded

/-- An expired lease is taken over only when its worker is gone; a dispatch, an unblocking or a
cancellation writes no job that succeeded or is being executed. -/
def KeepsLeases (s : JobSystem) : JobLabel → Prop
  | .start _ _ _ | .crash _ => True
  | .act index action =>
    ∀ o, s.orchestrators[index]? = some o → ∀ id, o.touched action = some id →
      match action with
      | .lease _ => ∀ job, s.store.get? id = some job → JobStore.isStale o.now job = true →
          ¬s.Running id
      | .dispatchStep => ¬s.Settled id ∨ ∃ step rest, o.undispatched = step :: rest ∧
          ∃ job ∈ s.store.all, job.idempotencyKey = (jobOf o.planDigest step).idempotencyKey
      | .markReady | .skipNext => ¬s.Settled id
      | _ => True

/-- The worker at `index` executes `leased`, and the lease in the store is the one it was given. -/
structure HeldBy (s : JobSystem) (index : ℕ) (leased : Job) : Prop where
  stored : ∃ job, s.store.get? leased.id = some job ∧ job.status = .leased ∧
    job.attempt = leased.attempt
  holder : s.holder.get? leased.id = some (index, leased.attempt)

/-- Every job that is executed is held by its worker, and no worker executes a job twice. -/
structure Held (s : JobSystem) : Prop where
  held : ∀ index o, s.orchestrators[index]? = some o → ∀ target ∈ o.running,
    s.HeldBy index target.1
  once : ∀ o ∈ s.orchestrators, (o.running.map fun target => target.1.id).Nodup

/-! ## One step -/

section Step

variable {s u : JobSystem} {index : ℕ} {action : OrchestratorAction} {o o' : Orchestrator}
  {store' : JobStore}

theorem HeldBy.stale_of_leaseable {leased job : Job} {now : Time} (h : s.HeldBy index leased)
    (hjob : s.store.get? leased.id = some job) (hl : JobStore.isLeaseable now job = true) :
    JobStore.isStale now job = true := by
  obtain ⟨found, hfound, hstatus, -⟩ := h.stored
  rw [hjob] at hfound
  cases hfound
  simpa [JobStore.isLeaseable, hstatus] using hl

/-- A job that succeeded or is being executed is not leased again. -/
theorem Settled.not_leased (hheld : s.Held) (hcond : s.KeepsLeases (.act index action))
    (ho : s.orchestrators[index]? = some o) {k : ℕ} {job : Job} {step : PlanStep}
    {leased : Job} (haction : action = .lease k) (hsub : o.submitted[k]? = some (job, step))
    (hlease : s.store.lease ttl job.id leaseOwnerName o.now = .ok (store', leased)) :
    ¬s.Settled job.id := by
  subst haction
  obtain ⟨found, hfound, hl, -, -⟩ := JobStore.lease_ok_iff.mp hlease
  have htouched : o.touched (.lease k) = some job.id := by simp [Orchestrator.touched, hsub]
  rintro (hrun | hsucc)
  · obtain ⟨x, hx, target, htarget, hid⟩ := hrun
    obtain ⟨j, hj⟩ := List.getElem?_of_mem hx
    have hstale := (hheld.held j x hj target htarget).stale_of_leaseable (hid ▸ hfound) hl
    exact hcond o ho job.id htouched found hfound hstale ⟨x, hx, target, htarget, hid⟩
  · have hstatus : found.status = .succeeded := by simpa [hfound] using hsucc
    simp [JobStore.isLeaseable, JobStore.isStale, hstatus] at hl

theorem recordHolder_of_ne {id : String} (h : o.touched action ≠ some id) :
    (s.recordHolder ttl index o action).get? id = s.holder.get? id := by
  cases action with
  | lease k =>
    simp only [recordHolder]
    split
    next => rfl
    next job step hsub =>
      split
      next store'' leased hlease =>
        rw [Dict.get?_set, if_neg]
        rintro rfl
        exact h (by simp [Orchestrator.touched, hsub])
      next => rfl
  | _ => rfl

/-- Whatever is not a report leaves a job that succeeded or is being executed as it is, but for the
expiry of its lease. -/
theorem settled_kept (hheld : s.Held) (hcond : s.KeepsLeases (.act index action))
    (ho : s.orchestrators[index]? = some o)
    (hact : o.act backend ttl s.store action = some (store', o'))
    (hreport : ∀ k outcome, action ≠ .report k outcome) {id : String} (hset : s.Settled id)
    {job : Job} (hjob : s.store.get? id = some job) :
    (∃ expires, store'.get? id = some { job with leaseExpiresAt := expires }) ∧
      (s.recordHolder ttl index o action).get? id = s.holder.get? id := by
  have hkept : store' = s.store →
      ∃ expires, store'.get? id = some { job with leaseExpiresAt := expires } := by
    rintro rfl
    exact ⟨job.leaseExpiresAt, hjob⟩
  by_cases htouched : o.touched action = some id
  · have hc := hcond o ho id htouched
    cases Orchestrator.act_cases hact with
    | @dispatchStep step rest hleft =>
      -- The condition on a dispatch: the job that has the key is returned, and nothing is written.
      refine ⟨?_, rfl⟩
      rcases hc with hc | ⟨step', rest', hu, existing, hmem, hkey⟩
      · exact absurd hset hc
      · rw [hleft] at hu
        cases hu
        apply hkept
        rcases s.store.add_cases (jobOf o.planDigest step) with ⟨_, _, _, heq⟩ | ⟨hnone, -⟩
        · rw [heq]
        · exact absurd hkey (hnone existing hmem)
    | @lease _ found _ step _ hsubmitted hlease =>
      -- A settled job is not leaseable.
      have hid : found.id = id := by simpa [Orchestrator.touched, hsubmitted] using htouched
      exact absurd (hid ▸ hset) (Settled.not_leased hheld hcond ho rfl hsubmitted hlease)
    | refusedLease hsubmitted hlease =>
      refine ⟨hkept rfl, ?_⟩
      simp only [recordHolder, hsubmitted, hlease]
    | @renew _ time leased =>
      -- A heartbeat writes the expiry only.
      refine ⟨?_, rfl⟩
      obtain ⟨expiry, h⟩ := Orchestrator.get?_orElseStore_renew s.store ttl leased.id id time
      exact ⟨expiry job.leaseExpiresAt, by rw [h, hjob]; rfl⟩
    | report => exact absurd rfl (hreport _ _)
    | markReady | skipNext => exact absurd hset hc
    | scan | submit | abort | scanSucceeded | scanBlocked | scanUnfinished => cases htouched
  · -- The action is about another job.
    refine ⟨⟨job.leaseExpiresAt, ?_⟩, recordHolder_of_ne htouched⟩
    rw [Orchestrator.act_frame hact htouched, hjob]

theorem HeldBy.of_kept {leased : Job} (h : s.HeldBy index leased)
    (hstore : ∀ job, s.store.get? leased.id = some job →
      ∃ expires, u.store.get? leased.id = some { job with leaseExpiresAt := expires })
    (hholder : u.holder.get? leased.id = s.holder.get? leased.id) : u.HeldBy index leased := by
  obtain ⟨job, hjob, hstatus, hattempt⟩ := h.stored
  obtain ⟨expires, hexpires⟩ := hstore job hjob
  exact ⟨⟨_, hexpires, hstatus, hattempt⟩, hholder.trans h.holder⟩

theorem running_of_mem {target : Job × PlanStep} {j : ℕ} {x : Orchestrator}
    (hx : s.orchestrators[j]? = some x) (htarget : target ∈ x.running) : s.Running target.1.id :=
  ⟨x, List.mem_of_getElem? hx, target, htarget, rfl⟩

/-- A worker reports a job once: its other running jobs have other ids. -/
theorem ne_of_mem_eraseIdx {running : List (Job × PlanStep)} {k : ℕ} {reported x : Job × PlanStep}
    (hnodup : (running.map fun target => target.1.id).Nodup) (hk : running[k]? = some reported)
    (hx : x ∈ running.eraseIdx k) : x.1.id ≠ reported.1.id := by
  obtain ⟨i, hne, hi⟩ := List.mem_eraseIdx_iff_getElem?.mp hx
  intro heq
  have hlt : i < (running.map fun target => target.1.id).length := by
    rw [List.length_map]
    exact (List.getElem?_eq_some_iff.mp hi).1
  refine hne ((List.getElem?_inj hlt hnodup).mp ?_)
  simp [List.getElem?_map, hi, hk, heq]

/-- The jobs that are executed after a step other than a report or a successful lease. -/
theorem Held.heldBy_of_not_report (hheld : s.Held) (hcond : s.KeepsLeases (.act index action))
    (ho : s.orchestrators[index]? = some o)
    (hact : o.act backend ttl s.store action = some (store', o'))
    (hreport : ∀ k outcome, action ≠ .report k outcome)
    (hu : u.store = store' ∧ u.holder = s.recordHolder ttl index o action)
    {j : ℕ} {x : Orchestrator} (hx : s.orchestrators[j]? = some x) {target : Job × PlanStep}
    (htarget : target ∈ x.running) : u.HeldBy j target.1 := by
  have hset : s.Settled target.1.id := .inl (running_of_mem hx htarget)
  refine (hheld.held j x hx target htarget).of_kept ?_ ?_
  · intro job hjob
    rw [hu.1]
    exact (settled_kept hheld hcond ho hact hreport hset hjob).1
  · rw [hu.2]
    obtain ⟨job, hjob, -⟩ := (hheld.held j x hx target htarget).stored
    exact (settled_kept hheld hcond ho hact hreport hset hjob).2

/-- What is left to show when one orchestrator acted. -/
theorem Held.of_act (hheld : s.Held) (hu : u.orchestrators = s.orchestrators.set index o')
    (hothers : ∀ j x, j ≠ index → s.orchestrators[j]? = some x → ∀ target ∈ x.running,
      u.HeldBy j target.1)
    (hown : ∀ target ∈ o'.running, u.HeldBy index target.1)
    (honce : (o'.running.map fun target => target.1.id).Nodup) : u.Held := by
  constructor
  · intro j x hx target htarget
    rw [hu] at hx
    rcases getElem?_set_cases hx with ⟨rfl, rfl⟩ | ⟨hne, hx⟩
    · exact hown target htarget
    · exact hothers j x hne hx target htarget
  · intro x hx
    rw [hu] at hx
    rcases mem_set_cases hx with rfl | hx
    · exact honce
    · exact hheld.once x hx

/-- A successful lease adds one job, which nobody was executing. -/
theorem Held.of_lease (hheld : s.Held) {k : ℕ} (hcond : s.KeepsLeases (.act index (.lease k)))
    (ho : s.orchestrators[index]? = some o)
    (hact : o.act backend ttl s.store (.lease k) = some (store', o'))
    {job leased : Job} {step : PlanStep} (hsub : o.submitted[k]? = some (job, step))
    (hlease : s.store.lease ttl job.id leaseOwnerName o.now = .ok (store', leased))
    (hrun : o'.running = o.running ++ [(leased, step)]) :
    Held ⟨store', s.orchestrators.set index o', s.recordDispatch o (.lease k),
      s.recordHolder ttl index o (.lease k)⟩ := by
  have hnew := Settled.not_leased hheld hcond ho rfl hsub hlease
  have honce := hheld.once o (List.mem_of_getElem? ho)
  obtain ⟨found, hfound, -, rfl, rfl⟩ := JobStore.lease_ok_iff.mp hlease
  have hid : found.id = job.id := JobStore.id_of_get? hfound
  refine hheld.of_act rfl ?_ ?_ ?_
  · intro j x _ hx target htarget
    exact hheld.heldBy_of_not_report hcond ho hact (by simp) ⟨rfl, rfl⟩ hx htarget
  · intro target htarget
    rw [hrun] at htarget
    rcases List.mem_append.mp htarget with htarget | htarget
    · exact hheld.heldBy_of_not_report hcond ho hact (by simp) ⟨rfl, rfl⟩ ho htarget
    · -- The new lease, as it was written and recorded.
      rw [List.mem_singleton.mp htarget]
      refine ⟨⟨JobStore.leasedTo leaseOwnerName (o.now + ttl) found, ?_, rfl, rfl⟩, ?_⟩
      · simp
      · simp [recordHolder, hsub, hlease, hid]
  · -- A job that the orchestrator runs already is not leased to it again.
    rw [hrun, List.map_append, List.nodup_append]
    refine ⟨honce, by simp, ?_⟩
    intro a ha b hb heq
    obtain ⟨target, htarget, rfl⟩ := List.mem_map.mp ha
    obtain rfl : b = found.id := by simpa using hb
    exact hnew (.inl (hid ▸ heq ▸ running_of_mem ho htarget))

/-- A report is about a job that nobody else executes. -/
theorem Held.of_report (hheld : s.Held) {k : ℕ} {outcome : StepOutcome}
    (ho : s.orchestrators[index]? = some o)
    (hact : o.act backend ttl s.store (.report k outcome) = some (store', o'))
    {leased : Job} {step : PlanStep} (hk : o.running[k]? = some (leased, step))
    (hrun : o'.running = o.running.eraseIdx k) :
    Held ⟨store', s.orchestrators.set index o', s.recordDispatch o (.report k outcome),
      s.recordHolder ttl index o (.report k outcome)⟩ := by
  have honce := hheld.once o (List.mem_of_getElem? ho)
  have hheldBy := hheld.held index o ho _ (List.mem_of_getElem? hk)
  -- A report writes one job, so the others are held as before.
  have hother : ∀ j x, s.orchestrators[j]? = some x → ∀ target ∈ x.running,
      target.1.id ≠ leased.id → HeldBy ⟨store', s.orchestrators.set index o',
        s.recordDispatch o (.report k outcome),
        s.recordHolder ttl index o (.report k outcome)⟩ j target.1 := by
    intro j x hx target htarget hne
    have htouched : o.touched (.report k outcome) ≠ some target.1.id := by
      simpa [Orchestrator.touched, hk] using hne.symm
    refine (hheld.held j x hx target htarget).of_kept ?_ rfl
    intro job hjob
    refine ⟨job.leaseExpiresAt, ?_⟩
    rw [Orchestrator.act_frame hact htouched, hjob]
  refine hheld.of_act rfl ?_ ?_ ?_
  · intro j x hne hx target htarget
    refine hother j x hx target htarget ?_
    intro heq
    -- One job has one holder.
    have hholder := (hheld.held j x hx target htarget).holder
    rw [heq, hheldBy.holder] at hholder
    simp only [Option.some.injEq, Prod.mk.injEq] at hholder
    exact hne hholder.1.symm
  · intro target htarget
    rw [hrun] at htarget
    exact hother index o ho target (List.mem_of_mem_eraseIdx htarget)
      (ne_of_mem_eraseIdx honce hk htarget)
  · rw [hrun]
    exact honce.sublist ((List.eraseIdx_sublist o.running k).map _)

/-- **Every step keeps the leases of the running jobs.** -/
theorem Held.step (hheld : s.Held) {l : JobLabel} (hcond : s.KeepsLeases l)
    (hstep : s.step backend ttl l = some u) : u.Held := by
  cases l with
  | start plan maxWorkers now =>
    cases hstep
    constructor
    · intro j x hx target htarget
      rcases getElem?_append_cases hx with hx | ⟨hnew, -⟩
      · obtain ⟨hstored, hholder⟩ := hheld.held j x hx target htarget
        exact ⟨hstored, hholder⟩
      · rw [List.mem_singleton.mp hnew] at htarget
        simp [Orchestrator.start] at htarget
    · intro x hx
      rcases List.mem_append.mp hx with hx | hx
      · exact hheld.once x hx
      · rw [List.mem_singleton.mp hx]
        simp [Orchestrator.start]
  | crash index =>
    -- The process drops what it ran; its leases stay in the store until they expire.
    obtain ⟨o, ho, rfl⟩ := step_crash hstep
    refine hheld.of_act rfl ?_ ?_ ?_
    · intro j x _ hx target htarget
      obtain ⟨hstored, hholder⟩ := hheld.held j x hx target htarget
      exact ⟨hstored, hholder⟩
    · intro target htarget
      simp [Orchestrator.crashed] at htarget
    · simp [Orchestrator.crashed]
  | act index action =>
    obtain ⟨o, store', o', ho, hact, rfl⟩ := step_act hstep
    rcases Orchestrator.act_running hact with ⟨hrun, hreport⟩ |
      ⟨k, job, step, leased, rfl, hsub, hlease, hrun⟩ |
      ⟨k, outcome, leased, step, rfl, hk, -, hrun⟩
    · refine hheld.of_act rfl ?_ ?_ ?_
      · intro j x _ hx target htarget
        exact hheld.heldBy_of_not_report hcond ho hact hreport ⟨rfl, rfl⟩ hx htarget
      · intro target htarget
        rw [hrun] at htarget
        exact hheld.heldBy_of_not_report hcond ho hact hreport ⟨rfl, rfl⟩ ho htarget
      · rw [hrun]
        exact hheld.once o (List.mem_of_getElem? ho)
    · exact hheld.of_lease hcond ho hact hsub hlease hrun
    · exact hheld.of_report ho hact hk hrun

/-- The outcome of a job changes by a report only. -/
theorem outcome?_cases (hact : o.act backend ttl s.store action = some (store', o'))
    {id : String} {job' : Job} (hjob' : store'.get? id = some job') (hsome : job'.outcome? ≠ none) :
    (∃ job, s.store.get? id = some job ∧ job.outcome? = job'.outcome?) ∨
      ∃ k outcome leased step, action = .report k outcome ∧
        o.running[k]? = some (leased, step) ∧ leased.id = id := by
  by_cases htouched : o.touched action = some id
  · -- Marking ready and skipping leave a job without outcome.
    have hupdate : ∀ jobId (change : Job → Job), (∀ job, (change job).outcome? = none) →
        store' = orElseStore s.store (s.store.update jobId change) →
        ∃ job, s.store.get? id = some job ∧ job.outcome? = job'.outcome? := by
      rintro jobId change hchange rfl
      obtain ⟨job, hjob, rfl | rfl⟩ := Orchestrator.exists_of_get?_orElseStore_update hjob'
      · exact ⟨job', hjob, rfl⟩
      · exact absurd (hchange job) hsome
    cases Orchestrator.act_cases hact with
    | @dispatchStep step _ hleft =>
      left
      rcases s.store.add_cases (jobOf o.planDigest step) with ⟨_, _, _, heq⟩ | ⟨-, heq⟩
      · rw [heq] at hjob'
        exact ⟨job', hjob', rfl⟩
      · rw [heq, JobStore.get?_put] at hjob'
        split at hjob'
        · cases hjob'
          -- A job starts ready or blocked.
          refine absurd (Job.outcome?_eq_none ?_) hsome
          by_cases hdeps : step.dependencies = [] <;> simp [jobOf, hdeps]
        · exact ⟨job', hjob', rfl⟩
    | lease _ hlease =>
      left
      obtain ⟨found, hfound, -, rfl, rfl⟩ := JobStore.lease_ok_iff.mp hlease
      rw [JobStore.get?_put] at hjob'
      split at hjob'
      · cases hjob'
        exact absurd rfl hsome
      · exact ⟨job', hjob', rfl⟩
    | @renew _ time leased =>
      left
      obtain ⟨expiry, h⟩ := Orchestrator.get?_orElseStore_renew s.store ttl leased.id id time
      rw [h] at hjob'
      obtain ⟨job, hjob, rfl⟩ := Option.map_eq_some_iff.mp hjob'
      exact ⟨job, hjob, rfl⟩
    | @report k outcome leased step hrunning =>
      right
      refine ⟨k, outcome, leased, step, rfl, hrunning, ?_⟩
      simpa [Orchestrator.touched, hrunning] using htouched
    | @markReady jobId =>
      left
      refine hupdate jobId _ ?_ rfl
      intro job
      cases backend <;> rfl
    | @skipNext jobId =>
      left
      exact hupdate jobId _ (fun _ => rfl) rfl
    | scan | submit | abort | refusedLease | scanSucceeded | scanBlocked | scanUnfinished =>
      exact .inl ⟨job', hjob', rfl⟩
  · left
    rw [Orchestrator.act_frame hact htouched] at hjob'
    exact ⟨job', hjob', rfl⟩

/-- A job that succeeded keeps its status and its result. -/
theorem succeeded_kept (hheld : s.Held) {l : JobLabel} (hcond : s.KeepsLeases l)
    (hstep : s.step backend ttl l = some u) {id : String} {job : Job}
    (hjob : s.store.get? id = some job) (hstatus : job.status = .succeeded) :
    ∃ expires, u.store.get? id = some { job with leaseExpiresAt := expires } := by
  have hkept : u.store.get? id = s.store.get? id →
      ∃ expires, u.store.get? id = some { job with leaseExpiresAt := expires } := by
    intro h
    exact ⟨job.leaseExpiresAt, h.trans hjob⟩
  cases l with
  | start plan maxWorkers now =>
    cases hstep
    exact hkept rfl
  | crash index =>
    obtain ⟨o, -, rfl⟩ := step_crash hstep
    exact hkept rfl
  | act index action =>
    obtain ⟨o, store', o', ho, hact, rfl⟩ := step_act hstep
    have hset : s.Settled id := .inr (by simp [hjob, hstatus])
    rcases Orchestrator.act_running hact with ⟨-, hreport⟩ | ⟨k, _, _, _, rfl, -⟩ |
      ⟨k, outcome, leased, step, rfl, hk, -, -⟩
    · exact (settled_kept hheld hcond ho hact hreport hset hjob).1
    · exact (settled_kept hheld hcond ho hact (by simp) hset hjob).1
    · -- A job under a report is leased, so it is not this one.
      apply hkept
      refine Orchestrator.act_frame hact ?_
      intro htouched
      have hid : leased.id = id := by simpa [Orchestrator.touched, hk] using htouched
      obtain ⟨found, hfound, hleased, -⟩ :=
        (hheld.held index o ho _ (List.mem_of_getElem? hk)).stored
      rw [hid, hjob] at hfound
      cases hfound
      rw [hstatus] at hleased
      cases hleased

end Step

/-! ## Runs -/

theorem held_init : ({} : JobSystem).Held := by
  constructor
  · intro index o ho
    simp at ho
  · intro o ho
    simp at ho

/-- In a run of steps that keep the leases, every running job is held by its worker. -/
theorem held {t : JobSystem} (h : Reaches (JobSystem.step backend ttl) KeepsLeases {} t) : t.Held :=
  h.invariant held_init fun _ _ _ hinv hcond hstep => hinv.step hcond hstep

theorem succeeded_forever {t v : JobSystem} (hheld : t.Held)
    (h : Reaches (JobSystem.step backend ttl) KeepsLeases t v) {id : String} {job : Job}
    (hjob : t.store.get? id = some job) (hstatus : job.status = .succeeded) :
    ∃ expires, v.store.get? id = some { job with leaseExpiresAt := expires } := by
  induction h with
  | refl => exact ⟨job.leaseExpiresAt, hjob⟩
  | tail hv hcond hstep ih =>
    obtain ⟨expires, hget⟩ := ih
    have hheld' := hv.invariant hheld fun _ _ _ hinv hc hs => hinv.step hc hs
    obtain ⟨expires', hget'⟩ := succeeded_kept hheld' hcond hstep hget hstatus
    exact ⟨expires', hget'⟩

/-- **Outcomes come from the lease holder.** In every run of steps that keep the leases: whoever
reports holds the job's lease, and the report is what the job then records; the recorded outcome of
a job changes by such a report only; and a job that succeeded stays so, with its result. -/
theorem outcome_from_holder {t u : JobSystem} {l : JobLabel}
    (h : Reaches (JobSystem.step backend ttl) KeepsLeases {} t) (hcond : t.KeepsLeases l)
    (hstep : t.step backend ttl l = some u) :
    (∀ index k outcome o leased step, l = .act index (.report k outcome) →
        t.orchestrators[index]? = some o → o.running[k]? = some (leased, step) →
        t.HeldBy index leased ∧
          ∃ job', u.store.get? leased.id = some job' ∧ job'.outcome? = outcome.outcome? leased) ∧
      (∀ id job', u.store.get? id = some job' → job'.outcome? ≠ none →
        (∃ job, t.store.get? id = some job ∧ job.outcome? = job'.outcome?) ∨
          ∃ index k outcome o leased step, l = .act index (.report k outcome) ∧
            t.orchestrators[index]? = some o ∧ o.running[k]? = some (leased, step) ∧
            leased.id = id) ∧
      ∀ id job, t.store.get? id = some job → job.status = .succeeded →
        ∀ v, Reaches (JobSystem.step backend ttl) KeepsLeases u v →
          ∃ job', v.store.get? id = some job' ∧ job'.status = .succeeded ∧
            job'.resultDigest = job.resultDigest := by
  have hheld := held h
  refine ⟨?_, ?_, ?_⟩
  · rintro index k outcome o leased step rfl ho hk
    have hheldBy := hheld.held index o ho _ (List.mem_of_getElem? hk)
    refine ⟨hheldBy, ?_⟩
    obtain ⟨o₁, store', o', ho₁, hact, rfl⟩ := step_act hstep
    rw [ho] at ho₁
    cases ho₁
    obtain ⟨job, hjob, -⟩ := hheldBy.stored
    simp only [Orchestrator.act, hk] at hact
    cases hact
    exact Orchestrator.get?_reportOutcome hjob outcome
  · intro id job' hjob' hsome
    cases l with
    | start plan maxWorkers now =>
      cases hstep
      exact .inl ⟨job', hjob', rfl⟩
    | crash index =>
      obtain ⟨o, -, rfl⟩ := step_crash hstep
      exact .inl ⟨job', hjob', rfl⟩
    | act index action =>
      obtain ⟨o, store', o', ho, hact, rfl⟩ := step_act hstep
      rcases outcome?_cases hact hjob' hsome with hold | ⟨k, outcome, leased, step, rfl, hk, hid⟩
      · exact .inl hold
      · exact .inr ⟨index, k, outcome, o, leased, step, rfl, ho, hk, hid⟩
  · intro id job hjob hstatus v hv
    have hrun : Reaches (JobSystem.step backend ttl) KeepsLeases t v :=
      (Reaches.tail .refl hcond hstep).trans hv
    obtain ⟨expires, hget⟩ := succeeded_forever hheld hrun hjob hstatus
    exact ⟨_, hget, hstatus, rfl⟩

/-! ## A late report -/

/-- The second drain takes the expired lease over and completes the job; then the first one, whose
step timed out, puts the job back. -/
theorem late_report_recorded :
    ∃ t u o, runLabels (JobSystem.step .memory 300000000) {}
        [.start (onePlan "asm-a" "digest-a") 1 0, .act 0 .dispatchStep, .act 0 .scan,
          .act 0 .submit, .act 0 (.lease 0), .start (onePlan "asm-a" "digest-a") 1 300000000,
          .act 1 .dispatchStep, .act 1 .scan, .act 1 .submit, .act 1 (.lease 0),
          .act 1 (.report 0 (.result "digest"))] = some t ∧
      t.step .memory 300000000 (.act 0 (.report 0 (.failure .timeout))) = some u ∧
      t.orchestrators[0]? = some o ∧ o.running.map (fun target => target.1.id) = ["job:scan"] ∧
      t.holder.get? "job:scan" = some (1, 2) ∧
      (t.store.get? "job:scan").map Job.status = some .succeeded ∧
      (u.store.get? "job:scan").map Job.status = some .ready := by
  refine ⟨_, _, _, rfl, rfl, rfl, rfl, rfl, rfl, rfl⟩

theorem outcome_from_holder_first_report :
    ∃ t u, Reaches (JobSystem.step .memory 300000000) KeepsLeases {} t ∧
      t.KeepsLeases (.act 0 (.report 0 (.result "digest"))) ∧
      t.step .memory 300000000 (.act 0 (.report 0 (.result "digest"))) = some u ∧
      ∃ leased, t.HeldBy 0 leased ∧
        ∃ job', u.store.get? leased.id = some job' ∧ job'.outcome? = some (.succeeded, "digest") := by
  -- Only the dispatch and the lease have something to meet, and no other job is there.
  have hmeets : runMeets (JobSystem.step .memory 300000000) KeepsLeases {}
      [.start (onePlan "asm-a" "digest-a") 1 0, .act 0 .dispatchStep, .act 0 .scan,
        .act 0 .submit, .act 0 (.lease 0)] := by
    refine ⟨trivial, fun t ht => ?_⟩
    cases ht
    refine ⟨?_, fun t ht => ?_⟩
    · rintro o - id -
      left
      rintro (⟨o, ho, target, htarget, -⟩ | hsucc)
      · rw [List.mem_singleton.mp ho] at htarget
        cases htarget
      · cases hsucc
    cases ht
    refine ⟨?_, fun t ht => ?_⟩
    · rintro o - id hid
      cases hid
    cases ht
    refine ⟨?_, fun t ht => ?_⟩
    · rintro o - id hid
      cases hid
    cases ht
    refine ⟨?_, fun t ht => trivial⟩
    rintro o ho id hid job hjob hstale
    cases ho
    cases hid
    cases hjob
    cases hstale
  have hreach := Reaches.of_runLabels rfl hmeets
  have hresult := (outcome_from_holder (l := .act 0 (.report 0 (.result "digest"))) hreach
    (fun _ _ _ _ => trivial) rfl).1 0 0 (.result "digest") _ _ _ rfl rfl rfl
  exact ⟨_, _, hreach, fun _ _ _ _ => trivial, rfl, _, hresult⟩

end JobSystem

end SecOpent
