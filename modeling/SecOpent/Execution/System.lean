import SecOpent.Assessments.Service
import SecOpent.Execution.Permits
import SecOpent.Execution.PlanScope
import SecOpent.Jobs.Orchestrator

/-!
# Executions and resumes

`execute_assessment` and `resume_assessment` (`application/execution.py`) as threads on the shared
repositories, the job store, the emergency stop and the permit revoker. `start` and `resume` of the
API each start a thread. Every access to shared state is one step, and the steps of any number of
threads interleave with each other, with service calls and with the emergency stop.

The end of a drain is more permissive than the source: a drain may finish whenever it has nothing
in hand, and an exception may end it at any step.

## Main definitions

* `Shared`: what the threads share
* `Drain`, `Phase`, `Gate`: one thread, where it stands, and what its step gate decided
* `Drain.move`: one step of a thread
* `World`, `World.step`: the system

## Main results

* `Drain.moved_of_move`: all that a step of a thread can do
* `ServeEffect.begun`: an assessment that was started keeps its plan, approval and scope
* `World.Begun.step`: a thread exists only for an assessment that was started
-/

namespace SecOpent

open Python Transition

/-! ## State -/

/-- `execute_assessment` or `resume_assessment`. -/
inductive DrainKind
  | execute | resume
  deriving DecidableEq, Repr

/-- The decision of the step gate to stop. -/
inductive StopDecision
  | paused | cancelled
  deriving DecidableEq, Repr

/-- The step gate: not asked since the last target, passed for the next target, between its read of
a control signal and its write, or stopped. -/
inductive Gate
  | closed
  | passed
  | signal (row : Assessment)
  | stopped (decision : StopDecision)
  deriving DecidableEq

/-- Where a thread stands, with what it has loaded. -/
inductive Phase
  | queued
  | stopCheck
  | load
  | issue (plan : ExecutionPlan) (scope : ScopeSnapshot)
  | register (plan : ExecutionPlan) (scope : ScopeSnapshot) (permit : ExecutionPermit)
  | verify (plan : ExecutionPlan) (scope : ScopeSnapshot) (permit : ExecutionPermit)
  | markUsed (plan : ExecutionPlan) (scope : ScopeSnapshot) (permit : ExecutionPermit)
  | recordNonce (plan : ExecutionPlan) (scope : ScopeSnapshot) (permit : ExecutionPermit)
  | scopeCheck (plan : ExecutionPlan) (scope : ScopeSnapshot)
  | draining (plan : ExecutionPlan) (scope : ScopeSnapshot) (run : Orchestrator) (gate : Gate)
  | finished

/-- A thread. `leased` is a record of the model: it has leased a job. -/
structure Drain where
  assessmentId : String
  kind : DrainKind
  phase : Phase := .queued
  leased : Bool := false

/-- What the threads share; `permitNonces` are those of the audit chain. -/
structure Shared where
  repo : Repositories := {}
  jobs : JobStore := .empty
  stopTriggered : Bool := false
  revoker : PermitRevoker := {}
  permitNonces : List String := []

/-- What a deployment fixes. -/
structure Deployment where
  unicode : Unicode
  digest : CanonicalDigest
  service : AssessmentService
  signature : PermitSignature
  backend : Backend
  leaseTtl : Time
  maxWorkers : ℕ

/-! ## One thread -/

/-- The steps of a thread. -/
inductive DrainMove
  | begin
  | checkStop
  | load (now : Time)
  | issue (nonce : String) (now : Time)
  | register
  | verify (now : Time)
  | markUsed
  | recordNonce
  | checkScope (enforcer : Option ScopeEnforcer) (guard : Option EgressGuard) (hour : ℕ)
      (now : Time)
  | act (action : OrchestratorAction)
  | gateRead
  | gateClear
  /-- The orchestrator is through; `found` says whether what was observed gives a finding. -/
  | finish (found : Bool)
  | raise

/-- `service.fail`, whose own error is suppressed. -/
def failed (repo : Repositories) (assessmentId : String) : Repositories :=
  match AssessmentService.fail repo assessmentId with
  | .ok repo' => repo'
  | .error _ => repo

/-- `service.complete` at the end of an execution; when it raises, an execution fails. -/
def completed (repo : Repositories) (assessmentId : String) (kind : DrainKind) : Repositories :=
  match AssessmentService.complete repo assessmentId with
  | .ok repo' => repo'
  | .error _ =>
    match kind with
    | .execute => failed repo assessmentId
    | .resume => repo

/-- The plan and the scope of an assessment. -/
def loadRun (repo : Repositories) (assessmentId : String) :
    Option (ExecutionPlan × ScopeSnapshot) := do
  let assessment ← repo.assessments.get? assessmentId
  let planId ← assessment.activePlanId
  let plan ← repo.plans.get? planId
  let scope ← repo.scopes.get? assessment.scopeSnapshotId
  pure (plan, scope)

/-- The actions an orchestrator may take while its gate is so: targets past the gate are leased and
run to their end, but a stopped run takes up nothing new. -/
def Gate.allows : Gate → OrchestratorAction → Bool
  | _, .lease _ | _, .renew _ _ | _, .report _ _ => true
  | .closed, .dispatchStep | .closed, .scan | .closed, .scanSucceeded | .closed, .scanBlocked
  | .closed, .markReady => true
  | .passed, .submit => true
  | .stopped .cancelled, .scanUnfinished | .stopped .cancelled, .skipNext => true
  | _, _ => false

/-- Every target asks the gate anew. -/
def Gate.after (gate : Gate) : OrchestratorAction → Gate
  | .submit => .closed
  | _ => gate

/-- What the gate decides from the signal it read. -/
def Gate.ofSignal : ControlState → Gate
  | .pauseRequested => .stopped .paused
  | .cancelRequested => .stopped .cancelled
  | .resumeRequested | .none => .passed

/-- A run that stops drops the targets still before the gate. -/
def Gate.keepTargets (gate : Gate) (run : Orchestrator) : Orchestrator :=
  match gate with
  | .stopped _ => { run with targets := [] }
  | _ => run

/-- The gate is asked when there is a target and its turn has come. -/
def asksGate (run : Orchestrator) : Bool :=
  !run.targets.isEmpty &&
    (decide (1 < run.maxWorkers) || (run.submitted.isEmpty && run.running.isEmpty))

namespace Drain

/-- The thread ends. -/
def finished (d : Drain) : Drain := { d with phase := .finished }

/-- One step of a thread. -/
def move (deployment : Deployment) (s : Shared) (d : Drain) : DrainMove → Option (Shared × Drain)
  | .begin =>
    match d.phase, d.kind with
    | .queued, .execute =>
      match AssessmentService.markRunning s.repo d.assessmentId with
      | .ok repo => some ({ s with repo }, { d with phase := .stopCheck })
      | .error _ => some ({ s with repo := failed s.repo d.assessmentId }, d.finished)
    -- A resumed run checks neither the emergency stop nor a permit.
    | .queued, .resume => some (s, { d with phase := .load })
    | _, _ => none
  | .checkStop =>
    match d.phase with
    | .stopCheck =>
      if s.stopTriggered then some ({ s with repo := failed s.repo d.assessmentId }, d.finished)
      else some (s, { d with phase := .load })
    | _ => none
  | .load now =>
    match d.phase with
    | .load =>
      match loadRun s.repo d.assessmentId, d.kind with
      -- `ExecutionStateError`.
      | none, .execute => some ({ s with repo := failed s.repo d.assessmentId }, d.finished)
      | none, .resume => some (s, d.finished)
      | some (plan, scope), .execute => some (s, { d with phase := .issue plan scope })
      | some (plan, scope), .resume =>
        some (s, { d with
          phase := .draining plan scope (.start plan deployment.maxWorkers now) .closed })
    | _ => none
  | .issue nonce now =>
    match d.phase with
    | .issue plan scope =>
      some (s, { d with
        phase := .register plan scope
          (issuedPermit deployment.signature d.assessmentId scope.digest plan.digest nonce now) })
    | _ => none
  | .register =>
    match d.phase with
    | .register plan scope permit =>
      some ({ s with revoker := s.revoker.recordIssued permit.nonce },
        { d with phase := .verify plan scope permit })
    | _ => none
  | .verify now =>
    match d.phase with
    | .verify plan scope permit =>
      match deployment.signature.verify permit now s.permitNonces permitWorker with
      | .ok _ => some (s, { d with phase := .markUsed plan scope permit })
      | .error _ => some ({ s with repo := failed s.repo d.assessmentId }, d.finished)
    | _ => none
  | .markUsed =>
    match d.phase with
    | .markUsed plan scope permit =>
      some ({ s with revoker := s.revoker.recordUsed permit.nonce },
        { d with phase := .recordNonce plan scope permit })
    | _ => none
  | .recordNonce =>
    match d.phase with
    | .recordNonce plan scope permit =>
      some ({ s with permitNonces := s.permitNonces ++ [permit.nonce] },
        { d with phase := .scopeCheck plan scope })
    | _ => none
  | .checkScope enforcer guard hour now =>
    match d.phase with
    | .scopeCheck plan scope =>
      match checkPlanScope deployment.unicode enforcer guard plan scope true hour with
      | .ok none =>
        some (s, { d with
          phase := .draining plan scope (.start plan deployment.maxWorkers now) .closed })
      | .ok (some _) | .error _ =>
        some ({ s with repo := failed s.repo d.assessmentId }, d.finished)
    | _ => none
  | .act action =>
    match d.phase with
    | .draining plan scope run gate =>
      if gate.allows action then
        match run.act deployment.backend deployment.leaseTtl s.jobs action with
        | some (jobs, run') =>
          some ({ s with jobs },
            { d with
              phase := .draining plan scope run' (gate.after action)
              leased := d.leased || decide (run.running.length < run'.running.length) })
        | none => none
      else none
    | _ => none
  | .gateRead =>
    match d.phase with
    | .draining plan scope run .closed =>
      -- The read of the control signal; its write is a step of its own.
      if asksGate run then
        match s.repo.assessments.get? d.assessmentId with
        | none =>
          some (s, { d with
            phase := .draining plan scope { run with targets := [] } (.stopped .cancelled) })
        | some row =>
          some (s, { d with
            phase := .draining plan scope run
              (if row.control = .none then .passed else .signal row) })
      else none
    | _ => none
  | .gateClear =>
    match d.phase with
    | .draining plan scope run (.signal row) =>
      some ({ s with repo := s.repo.addAssessment { row with control := .none } },
        { d with
          phase := .draining plan scope ((Gate.ofSignal row.control).keepTargets run)
            (Gate.ofSignal row.control) })
    | _ => none
  | .finish found =>
    match d.phase with
    | .draining _ _ run gate =>
      if run.idle && run.undispatched.isEmpty && run.toMark.isEmpty && run.toSkip.isEmpty then
        match gate with
        -- A paused or cancelled run is not finalised.
        | .stopped _ => some (s, d.finished)
        | .closed =>
          -- An empty execution, which is failed.
          if !found && !(s.jobs.all.any fun job => job.status == .succeeded) then
            some ({ s with repo := failed s.repo d.assessmentId }, d.finished)
          else some ({ s with repo := completed s.repo d.assessmentId d.kind }, d.finished)
        | _ => none
      else none
    | _ => none
  | .raise =>
    match d.phase, d.kind with
    | .finished, _ => none
    | _, .execute => some ({ s with repo := failed s.repo d.assessmentId }, d.finished)
    | _, .resume => some (s, d.finished)

end Drain

/-! ## What a step of a thread does -/

/-- The plan and scope of a thread that is not draining yet. -/
def Phase.prepares : Phase → Option (ExecutionPlan × ScopeSnapshot)
  | .issue plan scope | .register plan scope _ | .verify plan scope _ | .markUsed plan scope _
  | .recordNonce plan scope _ | .scopeCheck plan scope => some (plan, scope)
  | _ => none

/-- A step of a thread, by what it does: it advances towards its drain, drains, asks its gate, or
ends. -/
inductive Drain.Moved (deployment : Deployment) (s : Shared) (d : Drain) : Shared → Drain → Prop
  | markedRunning (repo : Repositories) : d.phase = .queued → d.kind = .execute →
      AssessmentService.markRunning s.repo d.assessmentId = .ok repo →
      Moved deployment s d { s with repo } { d with phase := .stopCheck }
  | passedStop : (d.phase = .queued ∧ d.kind = .resume) ∨
        (d.phase = .stopCheck ∧ s.stopTriggered = false) →
      Moved deployment s d s { d with phase := .load }
  | loaded (plan : ExecutionPlan) (scope : ScopeSnapshot) : d.phase = .load → d.kind = .execute →
      loadRun s.repo d.assessmentId = some (plan, scope) →
      Moved deployment s d s { d with phase := .issue plan scope }
  | prepared (plan : ExecutionPlan) (scope : ScopeSnapshot) (revoker : PermitRevoker)
      (permitNonces : List String) (phase : Phase) : d.phase.prepares = some (plan, scope) →
      phase.prepares = some (plan, scope) →
      Moved deployment s d { s with revoker, permitNonces } { d with phase }
  | drained (plan : ExecutionPlan) (scope : ScopeSnapshot) (now : Time) :
      d.phase.prepares = some (plan, scope) ∨ (d.phase = .load ∧ d.kind = .resume ∧
        loadRun s.repo d.assessmentId = some (plan, scope)) →
      Moved deployment s d s
        { d with phase := .draining plan scope (.start plan deployment.maxWorkers now) .closed }
  | acted (plan : ExecutionPlan) (scope : ScopeSnapshot) (run run' : Orchestrator) (gate : Gate)
      (action : OrchestratorAction) (jobs : JobStore) : d.phase = .draining plan scope run gate →
      gate.allows action = true →
      run.act deployment.backend deployment.leaseTtl s.jobs action = some (jobs, run') →
      Moved deployment s d { s with jobs }
        { d with
          phase := .draining plan scope run' (gate.after action)
          leased := d.leased || decide (run.running.length < run'.running.length) }
  | vanished (plan : ExecutionPlan) (scope : ScopeSnapshot) (run : Orchestrator) :
      d.phase = .draining plan scope run .closed →
      s.repo.assessments.get? d.assessmentId = none →
      Moved deployment s d s
        { d with phase := .draining plan scope { run with targets := [] } (.stopped .cancelled) }
  | askedGate (plan : ExecutionPlan) (scope : ScopeSnapshot) (run : Orchestrator)
      (row : Assessment) : d.phase = .draining plan scope run .closed →
      s.repo.assessments.get? d.assessmentId = some row →
      Moved deployment s d s
        { d with
          phase := .draining plan scope run (if row.control = .none then .passed else .signal row) }
  | clearedSignal (plan : ExecutionPlan) (scope : ScopeSnapshot) (run : Orchestrator)
      (row : Assessment) : d.phase = .draining plan scope run (.signal row) →
      Moved deployment s d { s with repo := s.repo.addAssessment { row with control := .none } }
        { d with
          phase := .draining plan scope ((Gate.ofSignal row.control).keepTargets run)
            (Gate.ofSignal row.control) }
  | ended (repo : Repositories) : repo = s.repo ∨
        (∃ target, (target = .failed ∨ target = .completed) ∧
          AssessmentService.moveTo s.repo d.assessmentId target none = .ok repo) →
      Moved deployment s d { s with repo } d.finished

namespace Drain

variable {deployment : Deployment} {s s' : Shared} {d d' : Drain}

theorem failed_cases (repo : Repositories) (assessmentId : String) :
    failed repo assessmentId = repo ∨ AssessmentService.moveTo repo assessmentId .failed none =
      .ok (failed repo assessmentId) := by
  unfold failed
  cases h : AssessmentService.fail repo assessmentId with
  | error e => exact .inl rfl
  | ok repo' => exact .inr h

theorem Moved.of_failed :
    Moved deployment s d { s with repo := failed s.repo d.assessmentId } d.finished := by
  refine .ended _ ?_
  rcases failed_cases s.repo d.assessmentId with h | h
  · exact .inl h
  · exact .inr ⟨.failed, .inl rfl, h⟩

theorem Moved.of_completed :
    Moved deployment s d { s with repo := completed s.repo d.assessmentId d.kind } d.finished := by
  refine .ended _ ?_
  unfold completed
  cases h : AssessmentService.complete s.repo d.assessmentId with
  | ok repo' => exact .inr ⟨.completed, .inr rfl, h⟩
  | error e =>
    cases d.kind with
    | resume => exact .inl rfl
    | execute =>
      rcases failed_cases s.repo d.assessmentId with h | h
      · exact .inl h
      · exact .inr ⟨.failed, .inl rfl, h⟩

/-- **Every step of a thread is one of these.** -/
theorem moved_of_move {move : DrainMove} (h : d.move deployment s move = some (s', d')) :
    Moved deployment s d s' d' := by
  cases move with
  | begin =>
    simp only [Drain.move] at h
    split at h
    next hphase hkind =>
      split at h
      next repo hrunning =>
        cases h
        exact .markedRunning repo hphase hkind hrunning
      next =>
        cases h
        exact .of_failed
    next hphase hkind =>
      cases h
      exact .passedStop (.inl ⟨hphase, hkind⟩)
    next => cases h
  | checkStop =>
    simp only [Drain.move] at h
    split at h
    next hphase =>
      split at h
      next =>
        cases h
        exact .of_failed
      next hstop =>
        cases h
        exact .passedStop (.inr ⟨hphase, by simpa using hstop⟩)
    next => cases h
  | load now =>
    simp only [Drain.move] at h
    split at h
    next hphase =>
      split at h
      next =>
        cases h
        exact .of_failed
      next =>
        cases h
        exact .ended s.repo (.inl rfl)
      next plan scope hload hkind =>
        cases h
        exact .loaded plan scope hphase hkind hload
      next plan scope hload hkind =>
        cases h
        exact .drained plan scope now (.inr ⟨hphase, hkind, hload⟩)
    next => cases h
  | issue nonce now =>
    simp only [Drain.move] at h
    split at h
    next plan scope hphase =>
      cases h
      exact .prepared plan scope s.revoker s.permitNonces _ (by rw [hphase]; rfl) rfl
    next => cases h
  | register =>
    simp only [Drain.move] at h
    split at h
    next plan scope permit hphase =>
      cases h
      exact .prepared plan scope _ s.permitNonces _ (by rw [hphase]; rfl) rfl
    next => cases h
  | verify now =>
    simp only [Drain.move] at h
    split at h
    next plan scope permit hphase =>
      split at h
      next =>
        cases h
        exact .prepared plan scope s.revoker s.permitNonces _ (by rw [hphase]; rfl) rfl
      next =>
        cases h
        exact .of_failed
    next => cases h
  | markUsed =>
    simp only [Drain.move] at h
    split at h
    next plan scope permit hphase =>
      cases h
      exact .prepared plan scope _ s.permitNonces _ (by rw [hphase]; rfl) rfl
    next => cases h
  | recordNonce =>
    simp only [Drain.move] at h
    split at h
    next plan scope permit hphase =>
      cases h
      exact .prepared plan scope s.revoker _ _ (by rw [hphase]; rfl) rfl
    next => cases h
  | checkScope enforcer guard hour now =>
    simp only [Drain.move] at h
    split at h
    next plan scope hphase =>
      split at h
      next =>
        cases h
        exact .drained plan scope now (.inl (by rw [hphase]; rfl))
      next =>
        cases h
        exact .of_failed
      next =>
        cases h
        exact .of_failed
    next => cases h
  | act action =>
    simp only [Drain.move] at h
    split at h
    next plan scope run gate hphase =>
      split at h
      next hallows =>
        split at h
        next jobs run' hact =>
          cases h
          exact .acted plan scope run run' gate action jobs hphase hallows hact
        next => cases h
      next => cases h
    next => cases h
  | gateRead =>
    simp only [Drain.move] at h
    split at h
    next plan scope run hphase =>
      split at h
      next =>
        split at h
        next hnone =>
          cases h
          exact .vanished plan scope run hphase hnone
        next row hrow =>
          cases h
          exact .askedGate plan scope run row hphase hrow
      next => cases h
    next => cases h
  | gateClear =>
    simp only [Drain.move] at h
    split at h
    next plan scope run row hphase =>
      cases h
      exact .clearedSignal plan scope run row hphase
    next => cases h
  | finish found =>
    simp only [Drain.move] at h
    split at h
    next plan scope run gate hphase =>
      split at h
      next =>
        split at h
        next =>
          cases h
          exact .ended s.repo (.inl rfl)
        next =>
          split at h
          next =>
            cases h
            exact .of_failed
          next =>
            cases h
            exact .of_completed
        next => cases h
      next => cases h
    next => cases h
  | raise =>
    simp only [Drain.move] at h
    split at h
    next => cases h
    next =>
      cases h
      exact .of_failed
    next =>
      cases h
      exact .ended s.repo (.inl rfl)

end Drain

/-! ## Rows of assessments that were started -/

/-- The assessment was started. -/
def AssessmentStatus.begun : AssessmentStatus → Bool
  | .draft | .planned | .awaitingApproval | .approved | .rejected => false
  | .queued | .running | .paused | .completed | .partially | .failed | .cancelled => true

theorem begun_of_allowed {current target : AssessmentStatus} (h : current.begun = true)
    (htarget : target ∈ allowedTransitions current) : target.begun = true := by
  cases current <;> revert htarget h <;> cases target <;> decide

/-- Two rows of one assessment with the same plan, approval and scope. -/
structure SamePins (row row' : Assessment) : Prop where
  id : row'.id = row.id
  plan : row'.activePlanId = row.activePlanId
  approval : row'.approvalId = row.approvalId
  scope : row'.scopeSnapshotId = row.scopeSnapshotId

theorem SamePins.refl (row : Assessment) : SamePins row row := ⟨rfl, rfl, rfl, rfl⟩

theorem SamePins.trans {row row' row'' : Assessment} (h : SamePins row row')
    (h' : SamePins row' row'') : SamePins row row'' :=
  ⟨h'.id.trans h.id, h'.plan.trans h.plan, h'.approval.trans h.approval, h'.scope.trans h.scope⟩

theorem SamePins.symm {row row' : Assessment} (h : SamePins row row') : SamePins row' row :=
  ⟨h.id.symm, h.plan.symm, h.approval.symm, h.scope.symm⟩

theorem ServeEffect.refl (call : Option ServiceCall) (repo : Repositories) :
    ServeEffect call repo repo :=
  ⟨.refl _, .refl _, .refl _, .inl rfl⟩

/-- **An assessment that was started stays started, with its plan, approval and scope.** -/
theorem ServeEffect.begun {call : Option ServiceCall} {repo repo' : Repositories}
    (h : ServeEffect call repo repo') {id : String} {row : Assessment}
    (hrow : repo.assessments.get? id = some row) (hbegun : row.status.begun = true) :
    ∃ row', repo'.assessments.get? id = some row' ∧ row'.status.begun = true ∧ SamePins row row' := by
  -- The call wrote at most one row: of another assessment, or of this one.
  rcases h.assessments with heq | ⟨written, hwritten, heq⟩
  · exact ⟨row, by rw [heq, hrow], hbegun, .refl row⟩
  rw [heq]
  by_cases hid : id = written.id
  · subst hid
    refine ⟨written, by simp, ?_⟩
    cases hwritten with
    | created written hstatus hplan hnone =>
      rw [hnone] at hrow
      cases hrow
    | planned found plan hfound hstatus hne =>
      rw [show _ = some found from hfound] at hrow
      cases hrow
      exact absurd (begun_of_allowed hbegun hstatus) (by decide)
    | approved found plan approval token args now hcall hargs hrisks hdigest hfound hstatus =>
      rw [show _ = some found from hfound] at hrow
      cases hrow
      simp [hstatus, AssessmentStatus.begun] at hbegun
    | moved found target control hfound htarget =>
      rw [show _ = some found from hfound] at hrow
      cases hrow
      exact ⟨begun_of_allowed hbegun htarget, ⟨rfl, rfl, rfl, rfl⟩⟩
  · refine ⟨row, ?_, hbegun, .refl row⟩
    rw [Table.get?_put, if_neg hid, hrow]

/-- A step of a thread writes rows as the service does, but for the gate, which writes back the row
it read. -/
theorem Drain.Moved.repo_effect {deployment : Deployment} {s s' : Shared} {d d' : Drain}
    (h : d.Moved deployment s s' d') : ServeEffect none s.repo s'.repo ∨
      ∃ plan scope run row, d.phase = .draining plan scope run (.signal row) ∧
        d'.phase = .draining plan scope ((Gate.ofSignal row.control).keepTargets run)
          (Gate.ofSignal row.control) ∧
        s'.repo = s.repo.addAssessment { row with control := .none } := by
  cases h with
  | markedRunning repo hphase hkind hrunning =>
    exact .inl (moveTo_effect hrunning (by decide) (by decide) (by decide) _)
  | clearedSignal plan scope run row hphase =>
    exact .inr ⟨plan, scope, run, row, hphase, rfl, rfl⟩
  | ended repo hrepo =>
    left
    rcases hrepo with rfl | ⟨target, rfl | rfl, hmove⟩
    · exact .refl _ _
    · exact moveTo_effect hmove (by decide) (by decide) (by decide) _
    · exact moveTo_effect hmove (by decide) (by decide) (by decide) _
  -- The other steps leave the repositories alone.
  | _ => exact .inl (.refl _ _)

theorem Drain.Moved.assessmentId {deployment : Deployment} {s s' : Shared} {d d' : Drain}
    (h : d.Moved deployment s s' d') : d'.assessmentId = d.assessmentId := by
  cases h <;> rfl

/-- A gate between its read and its write was there before, or has read the row just now. -/
theorem Drain.Moved.signal {deployment : Deployment} {s s' : Shared} {d d' : Drain}
    (h : d.Moved deployment s s' d') {plan : ExecutionPlan} {scope : ScopeSnapshot}
    {run : Orchestrator} {read : Assessment}
    (hphase : d'.phase = .draining plan scope run (.signal read)) :
    (∃ run', d.phase = .draining plan scope run' (.signal read)) ∨
      (s.repo.assessments.get? d.assessmentId = some read ∧ s' = s ∧ read.control ≠ .none) := by
  cases h with
  | acted plan' scope' run' run'' gate action jobs hdraining hallows hact =>
    left
    cases gate with
    | signal row =>
      -- With a signal read, only targets past the gate go on, and the gate stays as it is.
      cases action <;> cases hallows <;> cases hphase <;> exact ⟨run', hdraining⟩
    | closed | passed | stopped => cases action <;> cases hphase
  | askedGate plan' scope' run' row hdraining hrow =>
    right
    dsimp only at hphase
    split at hphase
    next => cases hphase
    next hcontrol =>
      cases hphase
      exact ⟨hrow, rfl, hcontrol⟩
  | clearedSignal plan' scope' run' row hdraining =>
    exfalso
    dsimp only at hphase
    -- No signal decides on a gate that is still reading.
    cases hc : row.control <;> rw [hc] at hphase <;> cases hphase
  | prepared plan' scope' revoker permitNonces phase hprepares hprepares' =>
    dsimp only at hphase
    rw [hphase] at hprepares'
    cases hprepares'
  | _ => cases hphase

/-! ## The system -/

/-- The threads, in the order in which they were started, and what they share. -/
structure World where
  shared : Shared := {}
  drains : List Drain := []

/-- A service call, the emergency stop, or a step of a thread. -/
inductive WorldLabel
  | serve (call : ServiceCall)
  | trigger
  | drain (index : ℕ) (move : DrainMove)

/-- The calls that come from outside; the others are made by the threads. -/
def ServiceCall.isExternal : ServiceCall → Bool
  | .markRunning _ | .complete _ | .fail _ => false
  | _ => true

/-- The thread that a call starts. -/
def ServiceCall.spawned : ServiceCall → List Drain
  | .start assessmentId _ _ _ => [{ assessmentId, kind := .execute }]
  | .resume assessmentId => [{ assessmentId, kind := .resume }]
  | _ => []

namespace World

/-- One step of the system. A call that raises changes nothing and is no step. -/
def step (deployment : Deployment) (w : World) : WorldLabel → Option World
  | .serve call =>
    if call.isExternal = true ∧ call.TokenFresh w.shared.repo then
      match serve deployment.unicode deployment.digest deployment.service w.shared.repo call with
      | .ok repo =>
        some { shared := { w.shared with repo }, drains := w.drains ++ call.spawned }
      | .error _ => none
    else none
  | .trigger =>
    some { w with
      shared := { w.shared with
        stopTriggered := true, revoker := w.shared.revoker.revokeUnused } }
  | .drain index move => do
    let d ← w.drains[index]?
    let (shared, d') ← d.move deployment w.shared move
    some { shared, drains := w.drains.set index d' }

/-! ## Assessments that were started -/

section Begun

variable {deployment : Deployment} {w u : World}

theorem step_serve {call : ServiceCall} (h : w.step deployment (.serve call) = some u) :
    call.isExternal = true ∧ call.TokenFresh w.shared.repo ∧
      serve deployment.unicode deployment.digest deployment.service w.shared.repo call =
        .ok u.shared.repo ∧
      u = { shared := { w.shared with repo := u.shared.repo },
            drains := w.drains ++ call.spawned } := by
  simp only [step] at h
  split at h
  next hguard =>
    split at h
    next repo hserve =>
      cases h
      exact ⟨hguard.1, hguard.2, hserve, rfl⟩
    next => cases h
  next => cases h

theorem step_drain {index : ℕ} {move : DrainMove}
    (h : w.step deployment (.drain index move) = some u) :
    ∃ d s' d', w.drains[index]? = some d ∧ d.move deployment w.shared move = some (s', d') ∧
      u = ⟨s', w.drains.set index d'⟩ := by
  simp only [step, Option.bind_eq_bind, Option.bind_eq_some_iff, Option.some.injEq,
    Prod.exists] at h
  obtain ⟨d, hd, s', d', hmove, rfl⟩ := h
  exact ⟨d, s', d', hd, hmove, rfl⟩

/-- Threads exist only for assessments that were started, and a gate that read a row read one with
the plan, approval and scope that the assessment still has. -/
def Begun (w : World) : Prop :=
  ∀ d ∈ w.drains, ∃ row, w.shared.repo.assessments.get? d.assessmentId = some row ∧
    row.status.begun = true ∧
    ∀ plan scope run read, d.phase = .draining plan scope run (.signal read) →
      read.status.begun = true ∧ SamePins row read

theorem begun_init (scopes : Table ScopeSnapshot ScopeSnapshot.id) :
    Begun { shared := { repo := { scopes } } } := by
  intro d hd
  cases hd

/-- A started assessment stays so over every step. -/
theorem Begun.kept (hinv : w.Begun) {l : WorldLabel} (hstep : w.step deployment l = some u)
    {id : String} {row : Assessment} (hrow : w.shared.repo.assessments.get? id = some row)
    (hbegun : row.status.begun = true) :
    ∃ row', u.shared.repo.assessments.get? id = some row' ∧ row'.status.begun = true ∧
      SamePins row row' := by
  cases l with
  | serve call =>
    obtain ⟨-, hfresh, hserve, -⟩ := step_serve hstep
    exact (serve_effect hserve hfresh).begun hrow hbegun
  | trigger =>
    cases hstep
    exact ⟨row, hrow, hbegun, .refl row⟩
  | drain index move =>
    obtain ⟨d, s', d', hd, hmove, rfl⟩ := step_drain hstep
    rcases (Drain.moved_of_move hmove).repo_effect with heffect |
      ⟨plan, scope, run, read, hphase, -, heq⟩
    · exact heffect.begun hrow hbegun
    · -- The gate writes the row back that it read.
      obtain ⟨found, hfound, -, hread⟩ := hinv d (List.mem_of_getElem? hd)
      obtain ⟨hreadBegun, hpins⟩ := hread plan scope run read hphase
      dsimp only
      rw [heq]
      by_cases hid : id = read.id
      -- It is the row of the assessment that was followed, as both have its id.
      · have hself : found = row := by
          have hkey := Table.key_of_get? hfound
          rw [hid, hpins.id, hkey, hfound] at hrow
          exact Option.some.inj hrow
        subst hself
        refine ⟨{ read with control := .none }, by simp [Repositories.addAssessment, hid],
          hreadBegun, ⟨hpins.id, hpins.plan, hpins.approval, hpins.scope⟩⟩
      · refine ⟨row, ?_, hbegun, .refl row⟩
        rw [Repositories.addAssessment, Table.get?_put, if_neg hid, hrow]

/-- A call that starts a thread found an assessment that it could move, and left it started. -/
theorem spawned_row {call : ServiceCall} {repo repo' : Repositories} {d : Drain}
    (hserve : serve deployment.unicode deployment.digest deployment.service repo call = .ok repo')
    (hd : d ∈ call.spawned) :
    d.phase = .queued ∧ d.leased = false ∧
      ∃ row target control, repo.assessments.get? d.assessmentId = some row ∧
        target ∈ allowedTransitions row.status ∧
        repo' = repo.addAssessment { row with status := target, control } ∧
        ((target = .queued ∧ d.kind = .execute) ∨
          (target = .running ∧ d.kind = .resume ∧ call = .resume d.assessmentId)) := by
  cases call with
  | start assessmentId actorRole grantId now =>
    obtain rfl := List.mem_singleton.mp hd
    obtain ⟨row, hrow, htarget, rfl⟩ := moveTo_ok_iff.mp (start_ok hserve)
    exact ⟨rfl, rfl, row, .queued, _, hrow, htarget, rfl, .inl ⟨rfl, rfl⟩⟩
  | resume assessmentId =>
    obtain rfl := List.mem_singleton.mp hd
    obtain ⟨row, hrow, htarget, rfl⟩ := moveTo_ok_iff.mp hserve
    exact ⟨rfl, rfl, row, .running, _, hrow, htarget, rfl, .inr ⟨rfl, rfl, rfl⟩⟩
  | _ => simp [ServiceCall.spawned] at hd

theorem Begun.step (hinv : w.Begun) {l : WorldLabel} (hstep : w.step deployment l = some u) :
    u.Begun := by
  have hkept : ∀ d ∈ w.drains, ∃ row, u.shared.repo.assessments.get? d.assessmentId = some row ∧
      row.status.begun = true ∧
      ∀ plan scope run read, d.phase = .draining plan scope run (.signal read) →
        read.status.begun = true ∧ SamePins row read := by
    intro d hd
    obtain ⟨row, hrow, hbegun, hread⟩ := hinv d hd
    obtain ⟨row', hrow', hbegun', hpins⟩ := hinv.kept hstep hrow hbegun
    refine ⟨row', hrow', hbegun', ?_⟩
    intro plan scope run read hphase
    obtain ⟨hreadBegun, hreadPins⟩ := hread plan scope run read hphase
    exact ⟨hreadBegun, hpins.symm.trans hreadPins⟩
  cases l with
  | serve call =>
    obtain ⟨-, -, hserve, hu⟩ := step_serve hstep
    intro d hd
    rw [hu] at hd
    rcases List.mem_append.mp hd with hd | hd
    · exact hkept d hd
    · obtain ⟨hphase, -, row, target, control, hrow, -, hrepo, htarget⟩ := spawned_row hserve hd
      refine ⟨{ row with status := target, control }, ?_, ?_, ?_⟩
      · rw [hrepo, Repositories.addAssessment, Table.get?_put, if_pos (Table.key_of_get? hrow).symm]
      · rcases htarget with ⟨rfl, -⟩ | ⟨rfl, -⟩
        · rfl
        · rfl
      · intro plan scope run read hdraining
        rw [hphase] at hdraining
        cases hdraining
  | trigger =>
    cases hstep
    exact hinv
  | drain index move =>
    obtain ⟨d, s', d', hd, hmove, rfl⟩ := step_drain hstep
    intro x hx
    rcases mem_set_cases hx with rfl | hx
    · have hmoved := Drain.moved_of_move hmove
      obtain ⟨row, hrow, hbegun, hread⟩ := hkept d (List.mem_of_getElem? hd)
      rw [hmoved.assessmentId]
      refine ⟨row, hrow, hbegun, ?_⟩
      intro plan scope run read hphase
      rcases hmoved.signal hphase with ⟨run', hdraining⟩ | ⟨hfound, rfl, -⟩
      · exact hread plan scope run' read hdraining
      · rw [show _ = some read from hfound] at hrow
        cases hrow
        exact ⟨hbegun, .refl _⟩
    · exact hkept x hx

end Begun

/-! ## A deployment for examples -/

/-- One worker, and a signature that always verifies. -/
def sampleDeployment : Deployment where
  unicode := .ascii
  digest := sampleDigest
  service := {}
  signature := ⟨fun _ => "signature", fun _ => true⟩
  backend := .sqlAlchemy
  leaseTtl := 300000000
  maxWorkers := 1

/-- The scopes of one project, and nothing else. -/
def sampleWorld : World := { shared := { repo := { scopes := projectScopes } } }

/-- A passive step. -/
def oneStep : List PlanStep := [⟨"scan", "nmap", .passive, .empty, []⟩]

/-- An assessment is created, planned, approved by a human and started. -/
def startCalls (steps : List PlanStep) (approvedRisks : Finset RiskClass) : List WorldLabel :=
  [.serve (.create "a" "project-a" "scope-a" .approval),
    .serve (.attachPlan "p" "asm-a" steps),
    .serve (.approve "r" ⟨"asm-a", "operator", approvedRisks, ∅, "digest-a", "human", none⟩ 1),
    .serve (.start "asm-a" "human" none 1)]

/-- The first thread runs up to its stop check. -/
def beginMoves : List WorldLabel := [.drain 0 .begin, .drain 0 .checkStop]

/-- The first thread goes on from its stop check to its drain. -/
def prepareMoves : List WorldLabel :=
  [.drain 0 (.load 1), .drain 0 (.issue "nonce" 1), .drain 0 .register, .drain 0 (.verify 2),
    .drain 0 .markUsed, .drain 0 .recordNonce, .drain 0 (.checkScope none none 0 2)]

end World

end SecOpent
