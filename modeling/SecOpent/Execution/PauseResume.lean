import SecOpent.Execution.System
import SecOpent.Jobs.Board

/-!
# Paused and resumed executions

The drains of one assessment, with the findings they leave: `execute_assessment` and
`resume_assessment` from the dispatch of the plan to `_finalize_execution`
(`application/execution.py`), with one worker. Pauses and resumes are requested at any time. Every
drain has a step runner of its own (`step_runner_factory`), so what a drain has observed is gone
when it stops for a pause.

What comes before the dispatch (permit and scope checks) is in `System`; here it has passed.

## Main definitions

* `Engagement`: the plan, the output of every step at every attempt, and the deployment
* `Stage`, `RunThread`, `Engagement.advance`: one drain and its next move
* `PausableRun`, `Engagement.step`: the assessment, its drains, and the calls of the API
* `Engagement.Undisturbed`: the pauses that lose nothing
* `Engagement.Uninterrupted`: no pause is requested

## Main results

* `advance_dispatch`, `advance_gate_passed`, `advance_running` and the like: the moves of a drain, one
  lemma for each stage
-/

namespace SecOpent

open Python Transition

/-! ## One assessment and its drains -/

/-- What the drains of an assessment are given: its plan, what each step gives at its first, second,
third attempt, and what finalising uses. `oraclePass` is what the oracle writes to the findings. -/
structure Engagement where
  assessmentId : String
  plan : ExecutionPlan
  outputs : PlanStep → ℕ → Except FailureClass (List Observation)
  resultDigest : List Observation → String
  fingerprint : FingerprintDigest
  oraclePass : List Finding → Table Finding Finding.id → Table Finding Finding.id
  backend : Backend
  leaseTtl : Time

/-- `max_rounds`. -/
def maxRounds : ℕ := 100

/-- Where a drain stands; `rounds` are the rounds it has left. -/
inductive Stage
  | queued
  | dispatch
  | scan (rounds : ℕ)
  /-- Before the gate of the next target; `executed` says whether the round has run a step. -/
  | gate (rounds : ℕ) (executed : Bool) (targets : List (Job × PlanStep))
  | running (rounds : ℕ) (leased : Job) (step : PlanStep) (targets : List (Job × PlanStep))
  | finalize
  /-- The findings are persisted. -/
  | complete
  | finished
  deriving DecidableEq

/-- A drain: its reading of the clock, and the observations of its step runner. -/
structure RunThread where
  kind : DrainKind
  stage : Stage := .queued
  now : Time := 0
  observations : Dict String (List Observation) := .empty

/-- The thread ends. -/
def RunThread.ended (d : RunThread) : RunThread := { d with stage := .finished }

/-- What the drains share. `rounds` is a record of the model: the rounds that were brought to their
end, by whichever drain. -/
structure RunState where
  repo : Repositories
  jobs : JobStore
  findings : Table Finding Finding.id
  rounds : ℕ := 0

/-- The assessment with all its drains. -/
structure PausableRun where
  shared : RunState
  threads : List RunThread

/-- The gate of `_make_control_gate`: the signal is consumed when it is read. -/
def readGate (repo : Repositories) (assessmentId : String) : Repositories × Option StopDecision :=
  match repo.assessments.get? assessmentId with
  | none => (repo, some .cancelled)
  | some row =>
    match row.control with
    | .none => (repo, none)
    | .pauseRequested => (repo.addAssessment { row with control := .none }, some .paused)
    | .cancelRequested => (repo.addAssessment { row with control := .none }, some .cancelled)
    | .resumeRequested => (repo.addAssessment { row with control := .none }, none)

/-- `_handle_cancelled`: the unfinished jobs are skipped. -/
def skipUnfinished (store : JobStore) : JobStore :=
  (store.all.filter fun job => job.status ∈ unfinishedStatuses).foldl
    (fun store job => orElseStore store (store.skip job.id)) store

namespace Engagement

variable (E : Engagement)

/-- What the orchestrator is told about a step. -/
def outcome : Except FailureClass (List Observation) → StepOutcome
  | .ok observations => .result (E.resultDigest observations)
  | .error failure => .failure failure

/-- `self._observations[step.key] = stored`, when the step did not fail. -/
def record (observations : Dict String (List Observation)) (step : PlanStep) :
    Except FailureClass (List Observation) → Dict String (List Observation)
  | .ok stored => observations.set step.key stored
  | .error _ => observations

/-- The findings of a drain: those of its own step runner's observations. -/
def found (d : RunThread) : List Finding :=
  correlate E.fingerprint d.observations.values.flatten

/-- Nothing was found, and no step has succeeded. -/
def isEmptyExecution (s : RunState) (d : RunThread) : Bool :=
  (E.found d).isEmpty && !(s.jobs.all.any fun job => job.status == .succeeded)

/-- The findings are added under the assessment's id, and the oracle verifies them if there are
any. -/
def persist (findings : List Finding) (table : Table Finding Finding.id) :
    Table Finding Finding.id :=
  let added := findings.foldl
    (fun table finding => table.put { finding with assessmentId := E.assessmentId }) table
  if findings.isEmpty then added else E.oraclePass findings added

/-- An exception ends the thread; `execute_assessment` tries to fail the assessment. -/
def raised (s : RunState) (d : RunThread) : RunState × RunThread :=
  match d.kind with
  | .execute => ({ s with repo := failed s.repo E.assessmentId }, d.ended)
  | .resume => (s, d.ended)

/-- The next move of a drain. The clock is read once, when the drain starts to run. -/
def advance (s : RunState) (d : RunThread) (clock : Time) : Option (RunState × RunThread) :=
  match d.stage with
  | .queued =>
    match d.kind with
    -- The request to resume has moved the status, so only `execute_assessment` moves it here.
    | .execute =>
      match AssessmentService.markRunning s.repo E.assessmentId with
      | .ok repo => some ({ s with repo }, { d with stage := .dispatch })
      | .error _ => some (E.raised s d)
    | .resume => some (s, { d with stage := .dispatch })
  | .dispatch =>
    some ({ s with jobs := Orchestrator.dispatch E.plan s.jobs },
      { d with stage := .scan maxRounds, now := clock })
  -- `for _ in range(max_rounds)` is through.
  | .scan 0 => some (s, { d with stage := .finalize })
  | .scan (rounds + 1) =>
    some (s, { d with stage := .gate rounds false (Orchestrator.roundTargets E.plan s.jobs d.now) })
  -- The round is over; one that has run no step is the last.
  | .gate rounds executed [] =>
    some ({ s with
        jobs := Orchestrator.resolveDependencies E.backend s.jobs
        rounds := s.rounds + 1 },
      { d with stage := if executed then .scan rounds else .finalize })
  | .gate rounds _ ((job, step) :: targets) =>
    match readGate s.repo E.assessmentId with
    -- A paused drain returns without `_finalize_execution`: what it observed is not persisted.
    | (repo, some .paused) => some ({ s with repo }, d.ended)
    | (repo, some .cancelled) => some ({ s with repo, jobs := skipUnfinished s.jobs }, d.ended)
    | (repo, none) =>
      match s.jobs.lease E.leaseTtl job.id leaseOwnerName d.now with
      | .ok (jobs, leased) =>
        some ({ s with repo, jobs }, { d with stage := .running rounds leased step targets })
      | .error _ => some (E.raised { s with repo } d)
  | .running rounds leased step targets =>
    let output := E.outputs step leased.attempt
    match Orchestrator.reportOutcome s.jobs leased (E.outcome output) with
    | .ok jobs =>
      some ({ s with jobs },
        { d with
          stage := .gate rounds true targets
          observations := record d.observations step output })
    | .error _ => some (E.raised s d)
  | .finalize =>
    if E.isEmptyExecution s d then
      match AssessmentService.fail s.repo E.assessmentId with
      | .ok repo => some ({ s with repo }, d.ended)
      | .error _ => some (E.raised s d)
    else
      some ({ s with findings := E.persist (E.found d) s.findings }, { d with stage := .complete })
  | .complete =>
    match AssessmentService.complete s.repo E.assessmentId with
    | .ok repo => some ({ s with repo }, d.ended)
    | .error _ => some (E.raised s d)
  | .finished => none

section Moves

variable {E} {s : RunState} {d : RunThread} {clock : Time} {rounds : ℕ} {executed : Bool}

theorem advance_dispatch (h : d.stage = .dispatch) :
    E.advance s d clock = some ({ s with jobs := Orchestrator.dispatch E.plan s.jobs },
      { d with stage := .scan maxRounds, now := clock }) := by
  simp only [advance, h]

theorem advance_started {repo : Repositories} (h : d.stage = .queued) (hkind : d.kind = .execute)
    (hok : AssessmentService.markRunning s.repo E.assessmentId = .ok repo) :
    E.advance s d clock = some ({ s with repo }, { d with stage := .dispatch }) := by
  simp only [advance, h, hkind, hok]

theorem advance_resumed (h : d.stage = .queued) (hkind : d.kind = .resume) :
    E.advance s d clock = some (s, { d with stage := .dispatch }) := by
  simp only [advance, h, hkind]

theorem advance_scan_zero (h : d.stage = .scan 0) :
    E.advance s d clock = some (s, { d with stage := .finalize }) := by
  simp only [advance, h]

theorem advance_scan_succ (h : d.stage = .scan (rounds + 1)) :
    E.advance s d clock = some (s, { d with
      stage := .gate rounds false (Orchestrator.roundTargets E.plan s.jobs d.now) }) := by
  simp only [advance, h]

theorem advance_gate_nil (h : d.stage = .gate rounds executed []) :
    E.advance s d clock = some
      ({ s with
        jobs := Orchestrator.resolveDependencies E.backend s.jobs
        rounds := s.rounds + 1 },
      { d with stage := if executed then .scan rounds else .finalize }) := by
  simp only [advance, h]

theorem advance_gate_paused {target : Job × PlanStep} {targets : List (Job × PlanStep)}
    {repo : Repositories} (h : d.stage = .gate rounds executed (target :: targets))
    (hgate : readGate s.repo E.assessmentId = (repo, some .paused)) :
    E.advance s d clock = some ({ s with repo }, d.ended) := by
  simp only [advance, h, hgate]

theorem advance_gate_passed {job leased : Job} {step : PlanStep}
    {targets : List (Job × PlanStep)} {repo : Repositories} {jobs : JobStore}
    (h : d.stage = .gate rounds executed ((job, step) :: targets))
    (hgate : readGate s.repo E.assessmentId = (repo, none))
    (hlease : s.jobs.lease E.leaseTtl job.id leaseOwnerName d.now = .ok (jobs, leased)) :
    E.advance s d clock =
      some ({ s with repo, jobs }, { d with stage := .running rounds leased step targets }) := by
  simp only [advance, h, hgate, hlease]

theorem advance_running {leased : Job} {step : PlanStep} {targets : List (Job × PlanStep)}
    {jobs : JobStore} (h : d.stage = .running rounds leased step targets)
    (hreport : Orchestrator.reportOutcome s.jobs leased
      (E.outcome (E.outputs step leased.attempt)) = .ok jobs) :
    E.advance s d clock = some ({ s with jobs },
      { d with
        stage := .gate rounds true targets
        observations := record d.observations step (E.outputs step leased.attempt) }) := by
  simp only [advance, h, hreport]

theorem advance_finalize_found (h : d.stage = .finalize) (hfound : E.isEmptyExecution s d = false) :
    E.advance s d clock =
      some ({ s with findings := E.persist (E.found d) s.findings },
        { d with stage := .complete }) := by
  simp [advance, h, hfound]

theorem advance_finalize_empty (h : d.stage = .finalize) (hempty : E.isEmptyExecution s d = true) :
    E.advance s d clock =
      match AssessmentService.fail s.repo E.assessmentId with
      | .ok repo => some ({ s with repo }, d.ended)
      | .error _ => some (E.raised s d) := by
  simp only [advance, h, hempty, if_true]

theorem advance_complete (h : d.stage = .complete) :
    E.advance s d clock =
      match AssessmentService.complete s.repo E.assessmentId with
      | .ok repo => some ({ s with repo }, d.ended)
      | .error _ => some (E.raised s d) := by
  simp only [advance, h]

theorem raised_eq (h : failed s.repo E.assessmentId = s.repo) : E.raised s d = (s, d.ended) := by
  rw [raised]
  cases d.kind with
  | execute => simp only [h]
  | resume => rfl

theorem advance_finished (h : d.stage = .finished) : E.advance s d clock = none := by
  simp only [advance, h]

end Moves

/-- The calls of the API, and the moves of the threads. -/
inductive RunCall
  | pause
  | resume
  | advance (index : ℕ) (clock : Time)
  deriving DecidableEq

/-- One step of the assessment. `resume` starts a thread. -/
def step (s : PausableRun) : RunCall → Option PausableRun
  | .pause =>
    match AssessmentService.pause s.shared.repo E.assessmentId with
    | .ok repo => some { s with shared := { s.shared with repo } }
    | .error _ => none
  | .resume =>
    match AssessmentService.resume s.shared.repo E.assessmentId with
    | .ok repo => some ⟨{ s.shared with repo }, s.threads ++ [{ kind := .resume }]⟩
    | .error _ => none
  | .advance index clock =>
    match s.threads[index]? with
    | none => none
    | some d =>
      (E.advance s.shared d clock).map fun (shared, d') => ⟨shared, s.threads.set index d'⟩

/-- A pause request waits at the gate. -/
def pausePending (repo : Repositories) : Bool :=
  (readGate repo E.assessmentId).2 == some .paused

/-- The next move of a drain loses nothing. A pause takes effect only in a drain that has observed
nothing, and in a round in which no step waits for another attempt: the jobs left to lease are the
targets that the round has not reached. A resumed drain starts no round beyond those of one drain,
unless there is nothing to lease. -/
def LosesNothing (s : RunState) (d : RunThread) : Prop :=
  match d.stage with
  | .scan _ => d.kind = .resume → s.rounds < maxRounds ∨
      Orchestrator.roundTargets E.plan s.jobs d.now = []
  | .gate _ _ (target :: targets) => E.pausePending s.repo = true →
      d.observations.values.flatten = [] ∧
        Orchestrator.roundTargets E.plan s.jobs d.now = target :: targets
  | _ => True

instance (s : RunState) (d : RunThread) : Decidable (E.LosesNothing s d) :=
  match h : d.stage with
  | .scan _ =>
    decidable_of_iff (d.kind = .resume → s.rounds < maxRounds ∨
      Orchestrator.roundTargets E.plan s.jobs d.now = []) (by simp only [LosesNothing, h])
  | .gate _ _ (target :: targets) =>
    decidable_of_iff (E.pausePending s.repo = true → d.observations.values.flatten = [] ∧
      Orchestrator.roundTargets E.plan s.jobs d.now = target :: targets)
      (by simp only [LosesNothing, h])
  | .gate _ _ [] | .queued | .dispatch | .running .. | .finalize | .complete | .finished =>
    .isTrue (by simp only [LosesNothing, h])

/-- The steps under which nothing is lost; and a resume is requested when the drain before it has
ended. -/
def Undisturbed (s : PausableRun) : RunCall → Prop
  | .pause => True
  | .resume => ∀ d ∈ s.threads, d.stage = .finished
  | .advance index _ => ∀ d ∈ s.threads[index]?, E.LosesNothing s.shared d

instance (s : PausableRun) : (call : RunCall) → Decidable (E.Undisturbed s call)
  | .pause => .isTrue trivial
  | .resume => inferInstanceAs (Decidable (∀ d ∈ s.threads, d.stage = .finished))
  | .advance index _ =>
    inferInstanceAs (Decidable (∀ d ∈ s.threads[index]?, E.LosesNothing s.shared d))

/-- The steps of a run that is not interrupted. -/
def Uninterrupted (_ : PausableRun) : RunCall → Prop
  | .advance _ _ => True
  | .pause | .resume => False

/-- `assessment.status`. -/
def statusOf (s : PausableRun) : Option AssessmentStatus :=
  (s.shared.repo.assessments.get? E.assessmentId).map Assessment.status

end Engagement

end SecOpent
