import SecOpent.Jobs.PlanRuns

/-!
# Succeeded jobs and runs

What one run of the orchestrator does to the jobs that have succeeded, in any store: those that had
succeeded when the plan was dispatched stay as they are, and those that succeed later have their
result in the log.

## Main definitions

* `RunEvent.succeeds`: a step ended with a result
* `Dispatching`, `Drained`, `KeepsSuccesses`: a run and the store that its dispatch leaves

## Main results

* `act_succeeded`: where a succeeded job comes from
* `KeepsSuccesses.step`: succeeded jobs stay, and new ones are logged
-/

namespace SecOpent

open Python Transition

/-! ## Succeeded jobs -/

/-- A step ended with a result. -/
def RunEvent.succeeds : RunEvent → Bool
  | .ended _ _ (.result _) => true
  | _ => false

namespace Orchestrator

variable {backend : Backend} {ttl : Time} {store store' : JobStore} {o o' : Orchestrator}

theorem reported_failure_status {leased job : Job} {failure : FailureClass} :
    (reported leased (.failure failure) job).status ≠ .succeeded := by
  simp only [reported]
  split_ifs <;> exact JobStatus.noConfusion

/-- A write whose job has not succeeded. -/
theorem succeeded_of_update {jobId id : String} {change : Job → Job} {job : Job}
    (hchange : ∀ old, (change old).status ≠ .succeeded)
    (hjob : (orElseStore store (store.update jobId change)).get? id = some job)
    (hsucceeded : job.status = .succeeded) : store.get? id = some job := by
  cases hupdate : store.update jobId change with
  | error e => rwa [hupdate] at hjob
  | ok store'' =>
    rw [hupdate, orElseStore, JobStore.get?_update hupdate] at hjob
    split_ifs at hjob with hid
    · obtain ⟨old, -, rfl⟩ := Option.map_eq_some_iff.mp hjob
      exact absurd hsucceeded (hchange old)
    · exact hjob

/-- **Where a succeeded job comes from**: it had succeeded before the action, or its result was
reported. -/
theorem act_succeeded {action : OrchestratorAction}
    (h : o.act backend ttl store action = some (store', o')) {id : String} {job : Job}
    (hjob : store'.get? id = some job) (hsucceeded : job.status = .succeeded) :
    (∃ old, store.get? id = some old ∧ old.status = .succeeded ∧
        (o.touched action ≠ some id → old = job)) ∨
      ∃ index digest target, action = .report index (.result digest) ∧
        o.running[index]? = some target := by
  -- An action that has not touched the job has left it as it was.
  by_cases htouched : o.touched action = some id
  case neg =>
    rw [act_frame h htouched] at hjob
    exact .inl ⟨job, hjob, hsucceeded, fun _ => rfl⟩
  cases act_cases h with
  | @dispatchStep step _ hleft =>
    rcases store.add_cases (jobOf o.planDigest step) with ⟨_, _, _, heq⟩ | ⟨-, heq⟩
    · rw [heq] at hjob
      exact .inl ⟨job, hjob, hsucceeded, fun _ => rfl⟩
    · rw [heq, JobStore.get?_put] at hjob
      split_ifs at hjob
      · cases hjob
        simp only [jobOf] at hsucceeded
        split_ifs at hsucceeded
      · exact .inl ⟨job, hjob, hsucceeded, fun _ => rfl⟩
  | lease _ hlease =>
    obtain ⟨found, hfound, -, rfl, rfl⟩ := JobStore.lease_ok_iff.mp hlease
    rw [JobStore.get?_put] at hjob
    split_ifs at hjob
    · cases hjob
      cases hsucceeded
    · exact .inl ⟨job, hjob, hsucceeded, fun _ => rfl⟩
  | @renew _ time leased _ hrunning =>
    cases hrenew : store.renew ttl leased.id leaseOwnerName time with
    | error e =>
      rw [hrenew] at hjob
      exact .inl ⟨job, hjob, hsucceeded, fun _ => rfl⟩
    | ok store'' =>
      obtain ⟨found, hfound, -, rfl⟩ := JobStore.renew_ok_iff.mp hrenew
      rw [hrenew, orElseStore, JobStore.get?_put] at hjob
      split_ifs at hjob with hid
      · -- A renewal changes the time of the lease only.
        cases hjob
        refine .inl ⟨found, ?_, hsucceeded, fun hne => absurd htouched hne⟩
        rw [hid, JobStore.id_of_get? hfound, hfound]
      · exact .inl ⟨job, hjob, hsucceeded, fun _ => rfl⟩
  | @report index outcome leased step hrunning =>
    cases outcome with
    | result digest => exact .inr ⟨index, digest, (leased, step), rfl, hrunning⟩
    | failure failure =>
      rw [reportOutcome_eq_update] at hjob
      have hsame := succeeded_of_update (fun _ => reported_failure_status) hjob hsucceeded
      exact .inl ⟨job, hsame, hsucceeded, fun _ => rfl⟩
  | markReady =>
    have hsame := succeeded_of_update (fun old => by cases backend <;> exact JobStatus.noConfusion)
      hjob hsucceeded
    exact .inl ⟨job, hsame, hsucceeded, fun _ => rfl⟩
  | skipNext =>
    have hsame := succeeded_of_update (fun old => JobStatus.noConfusion) hjob hsucceeded
    exact .inl ⟨job, hsame, hsucceeded, fun _ => rfl⟩
  | scan | submit | abort | refusedLease | scanSucceeded | scanBlocked | scanUnfinished =>
    exact .inl ⟨job, hjob, hsucceeded, fun _ => rfl⟩

/-- Only the dispatch takes a step. -/
theorem act_undispatched {action : OrchestratorAction}
    (h : o.act backend ttl store action = some (store', o')) (hne : action ≠ .dispatchStep) :
    o'.undispatched = o.undispatched := by
  cases act_cases h with
  | dispatchStep => exact absurd rfl hne
  | _ => rfl

end Orchestrator

/-! ## The store of a run -/

/-- The plan is being dispatched, and nothing has been leased: `dispatched` is the store that the
dispatch will leave. -/
structure Dispatching (plan : ExecutionPlan) (dispatched : JobStore) (s : PlanRun) : Prop where
  left : s.orchestrator.undispatched ≠ []
  digest : s.orchestrator.planDigest = plan.digest
  store : s.orchestrator.undispatched.foldl
    (fun store step => (store.add (jobOf plan.digest step)).1) s.store = dispatched
  pending : s.orchestrator.pendingIds = []
  phase : ∃ rounds, s.phase = .scanning rounds

/-- After the dispatch: jobs that had succeeded then are as they were, and the run is not about to
touch them; those that have succeeded since are in the log. -/
structure Drained (dispatched : JobStore) (s : PlanRun) : Prop where
  left : s.orchestrator.undispatched = []
  kept : ∀ job ∈ dispatched.all, job.status = .succeeded → s.store.get? job.id = some job
  spared : ∀ job ∈ dispatched.all, job.status = .succeeded → job.id ∉ s.orchestrator.pendingIds
  made : ∀ job ∈ s.store.all, job.status = .succeeded →
    job ∈ dispatched.all ∨ ∃ event ∈ s.log, event.succeeds = true

/-- A run and the store that its dispatch leaves. -/
def KeepsSuccesses (plan : ExecutionPlan) (dispatched : JobStore) (s : PlanRun) : Prop :=
  Dispatching plan dispatched s ∨ Drained dispatched s

section KeepsSuccesses

variable {plan : ExecutionPlan} {dispatched : JobStore} {s s' : PlanRun} {backend : Backend}
  {ttl : Time}

/-- A run in which the dispatch goes on, or has just ended. -/
theorem keepsSuccesses_of_pending_nil (hdigest : s.orchestrator.planDigest = plan.digest)
    (hstore : s.orchestrator.undispatched.foldl
      (fun store step => (store.add (jobOf plan.digest step)).1) s.store = dispatched)
    (hpending : s.orchestrator.pendingIds = []) (hphase : ∃ rounds, s.phase = .scanning rounds) :
    KeepsSuccesses plan dispatched s := by
  by_cases hleft : s.orchestrator.undispatched = []
  · rw [hleft] at hstore
    obtain rfl : s.store = dispatched := hstore
    refine .inr ⟨hleft, fun job hjob _ => JobStore.mem_all.mp hjob, ?_, fun job hjob _ => .inl hjob⟩
    simp [hpending]
  · exact .inl ⟨hleft, hdigest, hstore, hpending, hphase⟩

theorem keepsSuccesses_start (plan : ExecutionPlan) (store : JobStore) (maxWorkers : ℕ) (now : Time)
    (maxRounds : ℕ) : KeepsSuccesses plan (Orchestrator.dispatch plan store)
      (.start plan store maxWorkers now maxRounds) :=
  keepsSuccesses_of_pending_nil rfl rfl rfl ⟨maxRounds, rfl⟩

/-- The moves of `run_to_completion` itself leave the store alone, and find no new job. -/
theorem step_local {label : RunLabel} (h : s.step backend ttl label = some s')
    (hlabel : ∀ action, label ≠ .access action) :
    s'.store = s.store ∧ s'.log = s.log ∧
      s'.orchestrator.undispatched = s.orchestrator.undispatched ∧
      s'.orchestrator.pendingIds ⊆ s.orchestrator.pendingIds := by
  cases label with
  | access action => exact absurd rfl (hlabel action)
  | exhaust | leave | next =>
    simp only [PlanRun.step] at h
    repeat' split at h
    all_goals
      first
        | cases h
          exact ⟨rfl, rfl, rfl, fun _ hid => hid⟩
        | cases h
  | stop answer =>
    simp only [PlanRun.step] at h
    repeat' split at h
    all_goals
      first
        | cases h
          refine ⟨rfl, rfl, rfl, fun id hid => ?_⟩
          simp only [Orchestrator.pendingIds, List.nil_append, List.map_append,
            List.mem_append] at hid ⊢
          tauto
        | cases h

/-- While the plan is dispatched, nothing else is done. -/
theorem Dispatching.label (h : Dispatching plan dispatched s) {label : RunLabel}
    (hstep : s.step backend ttl label = some s') : label = .access .dispatchStep := by
  obtain ⟨rounds, hphase⟩ := h.phase
  have hempty : s.orchestrator.undispatched.isEmpty = false := by simpa using h.left
  cases label with
  | access action =>
    obtain ⟨store', o', phase, hact, hafter, -⟩ := step_access hstep
    rw [hphase] at hafter
    cases action with
    | dispatchStep => rfl
    | scan => simp [Orchestrator.act, hempty] at hact
    | _ => cases rounds <;> cases hafter
  | exhaust => simp [PlanRun.step, h.left] at hstep
  | stop | leave | next => simp [PlanRun.step, hphase] at hstep

theorem Dispatching.keepsSuccesses (h : Dispatching plan dispatched s) {label : RunLabel}
    (hstep : s.step backend ttl label = some s') : KeepsSuccesses plan dispatched s' := by
  obtain rfl := h.label hstep
  obtain ⟨store', o', phase, hact, hafter, rfl⟩ := step_access hstep
  obtain ⟨hphase, rounds, hscanning⟩ := after_dispatchStep hafter
  have hstore := h.store
  cases hleft : s.orchestrator.undispatched with
  | nil => exact absurd hleft h.left
  | cons step rest =>
    simp only [Orchestrator.act, hleft, Option.some.injEq, Prod.mk.injEq] at hact
    obtain ⟨rfl, rfl⟩ := hact
    rw [hleft, List.foldl_cons, ← h.digest] at hstore
    refine keepsSuccesses_of_pending_nil h.digest ?_ h.pending ⟨rounds, hphase.trans hscanning⟩
    rw [← h.digest]
    exact hstore

/-- What an action finds has not succeeded. -/
theorem Drained.not_finds (h : Drained dispatched s) {action : OrchestratorAction} {job : Job}
    (hjob : job ∈ dispatched.all) (hsucceeded : job.status = .succeeded) :
    ¬s.orchestrator.Finds s.store job.id action := by
  have hkept := h.kept job hjob hsucceeded
  intro hfinds
  cases action with
  | scan =>
    obtain ⟨found, hfound, hleaseable, -⟩ := hfinds
    rw [hkept] at hfound
    cases hfound
    simp [JobStore.isLeaseable, JobStore.isStale, hsucceeded] at hleaseable
  | scanBlocked =>
    obtain ⟨found, hfound, hblocked, -⟩ := hfinds
    rw [hkept] at hfound
    cases hfound
    rw [hsucceeded] at hblocked
    cases hblocked
  | scanUnfinished =>
    obtain ⟨found, hfound, hunfinished⟩ := hfinds
    rw [hkept] at hfound
    cases hfound
    rw [hsucceeded] at hunfinished
    exact absurd hunfinished (by decide)
  | _ => exact hfinds

/-- **Succeeded jobs stay, and new ones are logged.** -/
theorem Drained.step (h : Drained dispatched s) {label : RunLabel}
    (hstep : s.step backend ttl label = some s') : Drained dispatched s' := by
  by_cases hlabel : ∀ action, label ≠ .access action
  · obtain ⟨hstore, hlog, hleft, hpending⟩ := step_local hstep hlabel
    refine ⟨hleft.trans h.left, ?_, fun job hjob hs hid => h.spared job hjob hs (hpending hid), ?_⟩
    · rw [hstore]
      exact h.kept
    · rw [hstore, hlog]
      exact h.made
  push Not at hlabel
  obtain ⟨action, rfl⟩ := hlabel
  obtain ⟨store', o', phase, hact, -, rfl⟩ := step_access hstep
  have hne : action ≠ .dispatchStep := by
    rintro rfl
    simp [Orchestrator.act, h.left] at hact
  have huntouched : ∀ job ∈ dispatched.all, job.status = .succeeded →
      s.orchestrator.touched action ≠ some job.id := by
    intro job hjob hs htouched
    rcases Orchestrator.touched_mem htouched with ⟨hdispatch, -⟩ | hid
    · exact hne hdispatch
    · exact h.spared job hjob hs hid
  refine ⟨?_, fun job hjob hs => ?_, fun job hjob hs hid => ?_, fun job hjob hs => ?_⟩
  · rw [Orchestrator.act_undispatched hact hne]
    exact h.left
  · rw [Orchestrator.act_frame hact (huntouched job hjob hs)]
    exact h.kept job hjob hs
  · rcases Orchestrator.act_ids hact hid with hid | hfinds
    · exact h.spared job hjob hs hid
    · exact h.not_finds hjob hs hfinds
  · rcases Orchestrator.act_succeeded hact (JobStore.mem_all.mp hjob) hs with
      ⟨old, hold, hs', hsame⟩ | ⟨index, digest, target, rfl, htarget⟩
    · have hid : old.id = job.id := JobStore.id_of_get? hold
      have hmem : old ∈ s.store.all := JobStore.mem_all.mpr (hid ▸ hold)
      rcases h.made old hmem hs' with hmem | ⟨event, hevent, hsucceeds⟩
      · have heq : old = job := hsame (hid ▸ huntouched old hmem hs')
        exact .inl (heq ▸ hmem)
      · exact .inr ⟨event, List.mem_append_left _ hevent, hsucceeds⟩
    · refine .inr ⟨.ended target.2.key target.1.attempt (.result digest), ?_, rfl⟩
      simp [Orchestrator.events, htarget]

theorem KeepsSuccesses.step (h : KeepsSuccesses plan dispatched s) {label : RunLabel}
    (hstep : s.step backend ttl label = some s') : KeepsSuccesses plan dispatched s' := by
  rcases h with h | h
  · exact h.keepsSuccesses hstep
  · exact .inr (h.step hstep)

/-- A worker is gone. -/
theorem KeepsSuccesses.crash (h : KeepsSuccesses plan dispatched s)
    (index : ℕ) : KeepsSuccesses plan dispatched { s with
      orchestrator := { s.orchestrator with running := s.orchestrator.running.eraseIdx index } } := by
  have hsub : ∀ id, id ∈ ({ s.orchestrator with
      running := s.orchestrator.running.eraseIdx index } : Orchestrator).pendingIds →
      id ∈ s.orchestrator.pendingIds := by
    intro id hid
    rw [Orchestrator.mem_pendingIds] at hid ⊢
    rcases hid with hid | hid | ⟨target, htarget, rfl⟩ | hid
    · exact .inl hid
    · exact .inr (.inl hid)
    · exact .inr (.inr (.inl ⟨target, List.mem_of_mem_eraseIdx htarget, rfl⟩))
    · exact .inr (.inr (.inr hid))
  rcases h with h | h
  · refine .inl ⟨h.left, h.digest, h.store, ?_, h.phase⟩
    refine List.eq_nil_iff_forall_not_mem.mpr fun id hid => ?_
    have hid := hsub id hid
    rw [h.pending] at hid
    cases hid
  · exact .inr ⟨h.left, h.kept, fun job hjob hs hid => h.spared job hjob hs (hsub _ hid), h.made⟩

theorem KeepsSuccesses.drained_of_returned (h : KeepsSuccesses plan dispatched s) {answer : RunAnswer}
    (hphase : s.phase = .returned answer) : Drained dispatched s := by
  rcases h with h | h
  · obtain ⟨rounds, hscanning⟩ := h.phase
    rw [hphase] at hscanning
    cases hscanning
  · exact h

end KeepsSuccesses

end SecOpent
