import SecOpent.Execution.PauseResume
import SecOpent.Jobs.PlanRuns

/-!
# Calls of the executor

One call of `execute_assessment` or `resume_assessment` (`application/execution.py`), from its first
access to its return, with any number of workers, and with the pauses and cancellations that are
requested meanwhile. The drain is a run of `run_to_completion`; a step may also end in an exception
of another kind than `StepFailure`, which leaves its job leased and ends the drain when the pool has
been joined.

What the preparatory checks say, what the step runner has observed, and where an exception is
raised, come with the moves.

## Main definitions

* `Executor`: what a call is given
* `ExecutionCall`, `ExecutionStage`: a call and where it stands
* `ExecutionMove`, `Executor.step`: its moves, and the requests
* `Executor.Moved`: the moves by what they do

## Main results

* `moved_of_step`: every step is one of these
-/

namespace SecOpent

open Python Transition

/-- What a call is given, and its reading of the clock. `Orchestrator` raises unless there is a
worker. -/
structure Executor where
  assessmentId : String
  plan : ExecutionPlan
  maxWorkers : ℕ
  workers_pos : 0 < maxWorkers
  now : Time
  fingerprint : FingerprintDigest
  backend : Backend
  leaseTtl : Time

/-- The checks before the dispatch that may block an execution. -/
inductive BlockingCheck
  | emergencyStop | permitInvalid | egressDenied | scopeViolation
  deriving DecidableEq, Repr

/-- The audit events of a call. -/
inductive ExecutionEvent
  /-- `assessment.blocked.…` -/
  | blocked (check : BlockingCheck)
  /-- `assessment.started` -/
  | started
  /-- `egress.hardening_unavailable` -/
  | hardeningUnavailable
  /-- `assessment.cancel.termination_failed` -/
  | terminationFailed
  /-- `assessment.cancelled` -/
  | cancelled
  /-- `assessment.paused` -/
  | paused
  /-- `assessment.resumed` -/
  | resumed
  /-- `assessment.completed.empty_execution` -/
  | emptyExecution
  /-- `assessment.completed` -/
  | completed
  /-- `assessment.failed` -/
  | failed
  deriving DecidableEq, Repr

/-- What is recorded between the drain and `_finalize_execution`. -/
def DrainKind.settledEvents : DrainKind → List ExecutionEvent
  | .execute => []
  | .resume => [.resumed]

/-- Where a call stands. -/
inductive ExecutionStage
  | queued
  /-- Before `assessment.started`: emergency stop, plan and scope, permit. -/
  | checking
  /-- After it: the targets of the plan, and the packet filter. -/
  | scoping
  | draining (gate : Gate)
  | finalizing
  /-- The findings are persisted. -/
  | completing
  /-- The status is written, and `assessment.completed` is not. -/
  | recording
  /-- In the `except` clause of `execute_assessment`. -/
  | excepting
  | returned
  deriving DecidableEq

/-- A call. `run` holds the job store. `pauseRead` is a record of the model: the gate has consumed a
pause. -/
structure ExecutionCall where
  kind : DrainKind
  stage : ExecutionStage := .queued
  repo : Repositories
  run : PlanRun
  /-- An exception is on its way out of `execute_ready`. -/
  broken : Bool := false
  pauseRead : Bool := false
  events : List ExecutionEvent := []
  findings : List Finding := []

/-- The moves of a call, and the requests that land while it has not returned. -/
inductive ExecutionMove
  | begin
  | deny (check : BlockingCheck)
  | start
  | proceed (nftFailed : Bool)
  | run (label : RunLabel)
  /-- The runner raises something that is not a `StepFailure`. -/
  | crash (index : ℕ)
  | gateRead
  | gateClear
  /-- `run_to_completion` has returned. -/
  | settle (terminationFails : Bool)
  | finalize (observations : List Observation)
  | complete
  | record
  | raise
  /-- The `except` clause. -/
  | handle
  | pause
  | cancel

/-- The job is one of the plan: its idempotency key is that of a step. -/
def Job.Of (plan : ExecutionPlan) (job : Job) : Prop :=
  ∃ step ∈ plan.steps, job.idempotencyKey = (jobOf plan.digest step).idempotencyKey

instance (plan : ExecutionPlan) (job : Job) : Decidable (job.Of plan) :=
  inferInstanceAs (Decidable (∃ step ∈ plan.steps, _))

/-- The moves that an exception may end. -/
def ExecutionMove.throws : ExecutionMove → Bool
  | .begin | .deny _ | .finalize _ | .complete | .raise => true
  | _ => false

/-! ## The drain of a call -/

/-- What `run_to_completion` answers to a decision of the gate. -/
def StopDecision.answer : StopDecision → RunAnswer
  | .paused => .paused
  | .cancelled => .cancelled

/-- What a run may do while its gate is so. -/
def Gate.permits : Gate → RunLabel → Bool
  | gate, .access action => gate.allows action
  | .closed, .exhaust | .closed, .next => true
  | .stopped decision, .stop answer => answer == decision.answer
  | .stopped _, .leave => true
  | _, _ => false

/-- The gate after it. -/
def Gate.afterRun (gate : Gate) : RunLabel → Gate
  | .access action => gate.after action
  | _ => gate

/-- A gate that is reading was reading before. -/
theorem afterRun_signal {gate : Gate} {label : RunLabel} {row : Assessment}
    (h : gate.afterRun label = .signal row) : gate = .signal row := by
  cases label with
  | access action =>
    cases action with
    | submit => cases h
    | _ => exact h
  | _ => exact h

/-- What the pool still does when one of its futures has raised. -/
def RunLabel.inPool : RunLabel → Bool
  | .access (.submit) | .access (.lease _) | .access (.renew _ _) | .access (.report _ _)
  | .stop _ | .leave => true
  | _ => false

/-- The accesses of a drain that raise: the store refuses the lease, the report or the change. -/
def Orchestrator.raises (o : Orchestrator) (backend : Backend) (ttl : Time) (store : JobStore) :
    OrchestratorAction → Bool
  | .lease index =>
    o.submitted[index]?.any fun target =>
      !(store.lease ttl target.1.id leaseOwnerName o.now).isOk
  | .report index outcome =>
    o.running[index]?.any fun target => !(reportOutcome store target.1 outcome).isOk
  | .markReady => o.toMark.head?.any fun id => !(store.markReady backend id).isOk
  | _ => false

/-- A move of a run that raises. -/
def PlanRun.raises (s : PlanRun) (backend : Backend) (ttl : Time) : RunLabel → Bool
  | .access action => s.orchestrator.raises backend ttl s.store action
  | _ => false

/-- The pool has been joined: no worker is on a step. -/
def PlanRun.joined (s : PlanRun) : Bool :=
  s.orchestrator.submitted.isEmpty && s.orchestrator.running.isEmpty

namespace ExecutionCall

/-- An exception leaves the body: `execute_assessment` handles it, `resume_assessment` does not. -/
def thrown (c : ExecutionCall) : ExecutionCall :=
  match c.kind with
  | .execute => { c with stage := .excepting }
  | .resume => { c with stage := .returned }

/-- The call returns, with a last event. -/
def returning (c : ExecutionCall) (repo : Repositories) (event : ExecutionEvent) : ExecutionCall :=
  { c with repo, stage := .returned, events := c.events ++ [event] }

/-- An exception may leave the body: while a drain is on, when the pool has been joined. -/
def mayRaise (c : ExecutionCall) : Bool :=
  match c.stage with
  | .draining _ => c.run.joined
  | .excepting | .returned => false
  | _ => true

/-- `_handle_cancelled`: the unfinished jobs are skipped, and the containers terminated. -/
def abandoned (c : ExecutionCall) (terminationFails : Bool) : ExecutionCall :=
  { c with
    stage := .returned
    run := { c.run with store := skipUnfinished c.run.store }
    events := c.events ++ (if terminationFails then [.terminationFailed] else []) ++ [.cancelled] }

/-- A request that the service accepts. -/
def request (c : ExecutionCall) (answer : Except ServiceError Repositories) : Option ExecutionCall :=
  match answer with
  | .ok repo => if c.stage = .returned then none else some { c with repo }
  | .error _ => none

section Fields

variable {c : ExecutionCall}

@[simp] theorem thrown_repo : c.thrown.repo = c.repo := by
  unfold thrown
  split <;> rfl

@[simp] theorem thrown_events : c.thrown.events = c.events := by
  unfold thrown
  split <;> rfl

@[simp] theorem thrown_pauseRead : c.thrown.pauseRead = c.pauseRead := by
  unfold thrown
  split <;> rfl

@[simp] theorem thrown_kind : c.thrown.kind = c.kind := by
  unfold thrown
  split <;> rfl

@[simp] theorem thrown_run : c.thrown.run = c.run := by
  unfold thrown
  split <;> rfl

@[simp] theorem thrown_findings : c.thrown.findings = c.findings := by
  unfold thrown
  split <;> rfl

theorem thrown_stage (h : c.kind = .execute) : c.thrown.stage = .excepting := by
  unfold thrown
  rw [h]

end Fields

@[simp] theorem returning_stage (c : ExecutionCall) (repo : Repositories) (event : ExecutionEvent) :
    (c.returning repo event).stage = .returned := rfl

@[simp] theorem abandoned_stage (c : ExecutionCall) (terminationFails : Bool) :
    (c.abandoned terminationFails).stage = .returned := rfl

end ExecutionCall

namespace Executor

variable (E : Executor)

/-- `assessment.status`. -/
def statusOf (c : ExecutionCall) : Option AssessmentStatus :=
  (c.repo.assessments.get? E.assessmentId).map Assessment.status

/-- The call before its first access. -/
def call (kind : DrainKind) (repo : Repositories) (store : JobStore) : ExecutionCall where
  kind := kind
  repo := repo
  run := .start E.plan store E.maxWorkers E.now maxRounds

/-- The checks that a stage makes. -/
def checksAt : ExecutionStage → List BlockingCheck
  | .checking => [.emergencyStop, .permitInvalid]
  | .scoping => [.egressDenied, .scopeViolation]
  | _ => []

/-- An exception of a future does not keep the pool from its other targets; with one worker it is
raised at once. -/
def goesOn (c : ExecutionCall) (label : RunLabel) : Bool :=
  !c.broken || (label.inPool && decide (1 < E.maxWorkers))

/-- The findings that a call persists. -/
def found (observations : List Observation) : List Finding :=
  (correlate E.fingerprint observations).map fun finding =>
    { finding with assessmentId := E.assessmentId }

/-- A step of the store has succeeded. -/
def anySucceeded (store : JobStore) : Bool := store.all.any fun job => job.status == .succeeded

/-- One step. -/
def step (c : ExecutionCall) : ExecutionMove → Option ExecutionCall
  | .begin =>
    match c.stage, c.kind with
    | .queued, .execute =>
      match AssessmentService.markRunning c.repo E.assessmentId with
      | .ok repo => some { c with repo, stage := .checking }
      | .error _ => some c.thrown
    -- `resume` has moved the assessment to running before the call was scheduled.
    | .queued, .resume => some { c with stage := .draining .closed }
    | _, _ => none
  | .deny check =>
    if check ∈ checksAt c.stage then
      match AssessmentService.fail c.repo E.assessmentId with
      | .ok repo => some (c.returning repo (.blocked check))
      | .error _ => some c.thrown
    else none
  | .start =>
    match c.stage with
    | .checking => some { c with stage := .scoping, events := c.events ++ [.started] }
    | _ => none
  | .proceed nftFailed =>
    match c.stage with
    | .scoping =>
      -- The drain follows whether or not the packet filter could be set up.
      some { c with
        stage := .draining .closed
        events := c.events ++ if nftFailed then [.hardeningUnavailable] else [] }
    | _ => none
  | .run label =>
    match c.stage with
    | .draining gate =>
      if gate.permits label && E.goesOn c label then
        (c.run.step E.backend E.leaseTtl label).map fun run => { c with
          stage := .draining (gate.afterRun label)
          run
          broken := c.broken || c.run.raises E.backend E.leaseTtl label }
      else none
    | _ => none
  | .crash index =>
    match c.stage with
    | .draining _ =>
      -- The job stays leased: nobody reports its step.
      if index < c.run.orchestrator.running.length then
        some { c with
          run := { c.run with
            orchestrator := { c.run.orchestrator with
              running := c.run.orchestrator.running.eraseIdx index } }
          broken := true }
      else none
    | _ => none
  | .gateRead =>
    match c.stage, c.run.phase with
    | .draining .closed, .executing _ _ =>
      if asksGate c.run.orchestrator && (!c.broken || decide (1 < E.maxWorkers)) then
        match c.repo.assessments.get? E.assessmentId with
        -- An assessment that is gone counts as cancelled.
        | none => some { c with stage := .draining (.stopped .cancelled) }
        | some row =>
          some { c with
            stage := .draining (if row.control = .none then .passed else .signal row) }
      else none
    | _, _ => none
  | .gateClear =>
    match c.stage with
    | .draining (.signal row) =>
      -- The row that was read is written back whole, with its status.
      some { c with
        repo := c.repo.addAssessment { row with control := .none }
        stage := .draining (Gate.ofSignal row.control)
        pauseRead := c.pauseRead || row.control == .pauseRequested }
    | _ => none
  | .settle terminationFails =>
    match c.stage, c.run.phase with
    | .draining _, .returned .cancelled => some (c.abandoned terminationFails)
    | .draining _, .returned .paused => some (c.returning c.repo .paused)
    | .draining _, .returned .completed =>
      some { c with
        stage := .finalizing
        events := c.events ++ c.kind.settledEvents }
    | _, _ => none
  | .finalize observations =>
    match c.stage with
    | .finalizing =>
      -- The jobs that are counted are those of the whole store.
      if (E.found observations).isEmpty && !anySucceeded c.run.store then
        match AssessmentService.fail c.repo E.assessmentId with
        | .ok repo => some (c.returning repo .emptyExecution)
        | .error _ => some c.thrown
      else some { c with stage := .completing, findings := E.found observations }
    | _ => none
  | .complete =>
    match c.stage with
    | .completing =>
      match AssessmentService.complete c.repo E.assessmentId with
      | .ok repo => some { c with repo, stage := .recording }
      | .error _ => some c.thrown
    | _ => none
  | .record =>
    match c.stage with
    | .recording => some (c.returning c.repo .completed)
    | _ => none
  | .raise => if c.mayRaise then some c.thrown else none
  | .handle =>
    match c.stage with
    -- The event is recorded whether or not the table admits the new status.
    | .excepting => some (c.returning (failed c.repo E.assessmentId) .failed)
    | _ => none
  | .pause => c.request (AssessmentService.pause c.repo E.assessmentId)
  | .cancel => c.request (AssessmentService.cancel c.repo E.assessmentId)

/-- The assessment as it is when a call is scheduled: an execution finds it queued, and a resume has
just moved it to running. -/
def Awaits (kind : DrainKind) (repo : Repositories) : Prop :=
  ∃ row, repo.assessments.get? E.assessmentId = some row ∧
    match kind with
    | .execute => row.status = .queued ∧ row.control = .none
    | .resume => row.status = .running ∧ (row.control = .none ∨ row.control = .resumeRequested)

/-! ## What a step does -/

/-- The steps, by what they do. -/
inductive Moved (c : ExecutionCall) : ExecutionMove → ExecutionCall → Prop
  | began (repo : Repositories) : c.stage = .queued → c.kind = .execute →
      AssessmentService.markRunning c.repo E.assessmentId = .ok repo →
      Moved c .begin { c with repo, stage := .checking }
  | resumed : c.stage = .queued → c.kind = .resume →
      Moved c .begin { c with stage := .draining .closed }
  | denied (check : BlockingCheck) (repo : Repositories) : check ∈ checksAt c.stage →
      AssessmentService.fail c.repo E.assessmentId = .ok repo →
      Moved c (.deny check) (c.returning repo (.blocked check))
  | started : c.stage = .checking →
      Moved c .start { c with stage := .scoping, events := c.events ++ [.started] }
  | proceeded (nftFailed : Bool) : c.stage = .scoping →
      Moved c (.proceed nftFailed) { c with
        stage := .draining .closed
        events := c.events ++ if nftFailed then [.hardeningUnavailable] else [] }
  | ran (label : RunLabel) (gate : Gate) (run : PlanRun) : c.stage = .draining gate →
      gate.permits label = true → E.goesOn c label = true →
      c.run.step E.backend E.leaseTtl label = some run →
      Moved c (.run label) { c with
        stage := .draining (gate.afterRun label)
        run
        broken := c.broken || c.run.raises E.backend E.leaseTtl label }
  | crashed (index : ℕ) (gate : Gate) : c.stage = .draining gate →
      Moved c (.crash index) { c with
        run := { c.run with
          orchestrator := { c.run.orchestrator with
            running := c.run.orchestrator.running.eraseIdx index } }
        broken := true }
  | vanished : c.stage = .draining .closed → c.repo.assessments.get? E.assessmentId = none →
      Moved c .gateRead { c with stage := .draining (.stopped .cancelled) }
  | asked (row : Assessment) : c.stage = .draining .closed →
      c.repo.assessments.get? E.assessmentId = some row →
      Moved c .gateRead
        { c with stage := .draining (if row.control = .none then .passed else .signal row) }
  | cleared (row : Assessment) : c.stage = .draining (.signal row) →
      Moved c .gateClear { c with
        repo := c.repo.addAssessment { row with control := .none }
        stage := .draining (Gate.ofSignal row.control)
        pauseRead := c.pauseRead || row.control == .pauseRequested }
  | abandoned (gate : Gate) (terminationFails : Bool) : c.stage = .draining gate →
      c.run.phase = .returned .cancelled →
      Moved c (.settle terminationFails) (c.abandoned terminationFails)
  | paused (gate : Gate) (terminationFails : Bool) : c.stage = .draining gate →
      c.run.phase = .returned .paused →
      Moved c (.settle terminationFails) (c.returning c.repo .paused)
  | drained (gate : Gate) (terminationFails : Bool) (events : List ExecutionEvent) :
      c.stage = .draining gate → c.run.phase = .returned .completed →
      (∀ event ∈ events, event = .resumed) →
      Moved c (.settle terminationFails)
        { c with stage := .finalizing, events := c.events ++ events }
  | emptied (observations : List Observation) (repo : Repositories) : c.stage = .finalizing →
      AssessmentService.fail c.repo E.assessmentId = .ok repo →
      Moved c (.finalize observations) (c.returning repo .emptyExecution)
  | persisted (observations : List Observation) : c.stage = .finalizing →
      E.found observations ≠ [] ∨ anySucceeded c.run.store = true →
      Moved c (.finalize observations)
        { c with stage := .completing, findings := E.found observations }
  | completed (repo : Repositories) : c.stage = .completing →
      AssessmentService.complete c.repo E.assessmentId = .ok repo →
      Moved c .complete { c with repo, stage := .recording }
  | recorded : c.stage = .recording → Moved c .record (c.returning c.repo .completed)
  | threw (move : ExecutionMove) : move.throws = true → c.stage ≠ .excepting →
      c.stage ≠ .returned → Moved c move c.thrown
  | handled : c.stage = .excepting →
      Moved c .handle (c.returning (failed c.repo E.assessmentId) .failed)
  | pauseRequested (repo : Repositories) : c.stage ≠ .returned →
      AssessmentService.pause c.repo E.assessmentId = .ok repo → Moved c .pause { c with repo }
  | cancelRequested (repo : Repositories) : c.stage ≠ .returned →
      AssessmentService.cancel c.repo E.assessmentId = .ok repo → Moved c .cancel { c with repo }

section Moved

variable {E} {c c' : ExecutionCall}

theorem stage_of_check {check : BlockingCheck} (h : check ∈ checksAt c.stage) :
    c.stage = .checking ∨ c.stage = .scoping := by
  cases hs : c.stage with
  | checking => exact .inl rfl
  | scoping => exact .inr rfl
  | _ =>
    rw [hs] at h
    cases h

theorem request_eq_some {answer : Except ServiceError Repositories}
    (h : c.request answer = some c') :
    c.stage ≠ .returned ∧ ∃ repo, answer = .ok repo ∧ c' = { c with repo } := by
  unfold ExecutionCall.request at h
  split at h
  next repo =>
    split at h
    · cases h
    next hstage => exact ⟨hstage, repo, rfl, (Option.some.inj h).symm⟩
  · cases h

/-- **Every step is one of these.** -/
theorem moved_of_step {move : ExecutionMove} (h : E.step c move = some c') : E.Moved c move c' := by
  cases move with
  | begin =>
    simp only [step] at h
    split at h
    next hstage hkind =>
      split at h
      next repo hrunning =>
        cases h
        exact .began repo hstage hkind hrunning
      next =>
        cases h
        exact .threw _ rfl (by simp [hstage]) (by simp [hstage])
    next hstage hkind =>
      cases h
      exact .resumed hstage hkind
    next => cases h
  | deny check =>
    simp only [step] at h
    split at h
    next hcheck =>
      split at h
      next repo hfail =>
        cases h
        exact .denied check repo hcheck hfail
      next =>
        cases h
        rcases stage_of_check hcheck with hstage | hstage
        · exact .threw _ rfl (by simp [hstage]) (by simp [hstage])
        · exact .threw _ rfl (by simp [hstage]) (by simp [hstage])
    next => cases h
  | start =>
    simp only [step] at h
    split at h
    next hstage =>
      cases h
      exact .started hstage
    next => cases h
  | proceed nftFailed =>
    simp only [step] at h
    split at h
    next hstage =>
      cases h
      exact .proceeded nftFailed hstage
    next => cases h
  | run label =>
    simp only [step] at h
    split at h
    next gate hstage =>
      split at h
      next hguard =>
        obtain ⟨hpermits, hgoesOn⟩ := Bool.and_eq_true_iff.mp hguard
        obtain ⟨run, hrun, rfl⟩ := Option.map_eq_some_iff.mp h
        exact .ran label gate run hstage hpermits hgoesOn hrun
      next => cases h
    next => cases h
  | crash index =>
    simp only [step] at h
    split at h
    next gate hstage =>
      split at h
      · cases h
        exact .crashed index gate hstage
      · cases h
    next => cases h
  | gateRead =>
    simp only [step] at h
    split at h
    next hstage hphase =>
      split at h
      next =>
        split at h
        next hrow =>
          cases h
          exact .vanished hstage hrow
        next row hrow =>
          cases h
          exact .asked row hstage hrow
      next => cases h
    next => cases h
  | gateClear =>
    simp only [step] at h
    split at h
    next row hstage =>
      cases h
      exact .cleared row hstage
    next => cases h
  | settle terminationFails =>
    simp only [step] at h
    split at h
    next gate hstage hphase =>
      cases h
      exact .abandoned gate terminationFails hstage hphase
    next gate hstage hphase =>
      cases h
      exact .paused gate terminationFails hstage hphase
    next gate hstage hphase =>
      cases h
      refine .drained gate terminationFails _ hstage hphase ?_
      cases c.kind <;> simp [DrainKind.settledEvents]
    next => cases h
  | finalize observations =>
    simp only [step] at h
    split at h
    next hstage =>
      split at h
      next =>
        split at h
        next repo hfail =>
          cases h
          exact .emptied observations repo hstage hfail
        next =>
          cases h
          exact .threw _ rfl (by simp [hstage]) (by simp [hstage])
      next hfound =>
        cases h
        refine .persisted observations hstage ?_
        simpa [-not_and, not_and_or] using hfound
    next => cases h
  | complete =>
    simp only [step] at h
    split at h
    next hstage =>
      split at h
      next repo hcomplete =>
        cases h
        exact .completed repo hstage hcomplete
      next =>
        cases h
        exact .threw _ rfl (by simp [hstage]) (by simp [hstage])
    next => cases h
  | record =>
    simp only [step] at h
    split at h
    next hstage =>
      cases h
      exact .recorded hstage
    next => cases h
  | raise =>
    simp only [step] at h
    split at h
    next hraise =>
      cases h
      refine .threw _ rfl ?_ ?_ <;> intro hstage <;> simp [ExecutionCall.mayRaise, hstage] at hraise
    next => cases h
  | handle =>
    simp only [step] at h
    split at h
    next hstage =>
      cases h
      exact .handled hstage
    next => cases h
  | pause =>
    obtain ⟨hstage, repo, hpause, rfl⟩ := request_eq_some h
    exact .pauseRequested repo hstage hpause
  | cancel =>
    obtain ⟨hstage, repo, hcancel, rfl⟩ := request_eq_some h
    exact .cancelRequested repo hstage hcancel

/-- A write of the service to the row of the assessment. -/
theorem exists_moved_row {repo repo' : Repositories} {target : AssessmentStatus}
    {control : Option ControlState}
    (h : AssessmentService.moveTo repo E.assessmentId target control = .ok repo') :
    ∃ row, repo.assessments.get? E.assessmentId = some row ∧
      target ∈ allowedTransitions row.status ∧
      repo'.assessments.get? E.assessmentId =
        some { row with status := target, control := control.getD row.control } := by
  obtain ⟨row, hrow, htarget, rfl⟩ := moveTo_ok_iff.mp h
  refine ⟨row, hrow, htarget, ?_⟩
  have hid : E.assessmentId = row.id := (Table.key_of_get? hrow).symm
  rw [Repositories.addAssessment, Table.get?_put, if_pos hid]

end Moved

end Executor

/-- An executor of one step, with one worker. -/
def scanExecutor : Executor where
  assessmentId := "asm-scan"
  plan :=
    { id := "plan-scan"
      assessmentId := "asm-scan"
      version := 1
      steps := World.oneStep
      digest := "scan-digest" }
  maxWorkers := 1
  workers_pos := Nat.one_pos
  now := 0
  fingerprint asset _ _ := asset
  backend := .sqlAlchemy
  leaseTtl := 300

/-- Its assessment, when it is scheduled. -/
def scheduled (status : AssessmentStatus) : Repositories where
  assessments := .put .empty
    { id := "asm-scan"
      projectId := "project-scan"
      scopeSnapshotId := "scope-scan"
      mode := .approval
      status }

/-- A round without targets, which is the last one. -/
def lastRound : List ExecutionMove :=
  [.run (.access .scan), .run (.access .scanSucceeded), .run (.access .scanBlocked), .run .next,
    .settle false]

/-- The only step is executed. -/
def scanRun (outcome : StepOutcome) (meanwhile : List ExecutionMove) : List ExecutionMove :=
  [.run (.access .dispatchStep), .run (.access .scan), .gateRead, .run (.access .submit),
    .run (.access (.lease 0))] ++ meanwhile ++
  [.run (.access (.report 0 outcome)), .run (.access .scanSucceeded), .run (.access .scanBlocked),
    .run .next] ++ lastRound

end SecOpent
