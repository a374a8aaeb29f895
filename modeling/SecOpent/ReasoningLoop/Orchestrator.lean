import SecOpent.Oracle.EntryPoints
import SecOpent.ReasoningLoop.PauseControl

/-!
# The orchestrator of a reasoning loop

`application/reasoning_loop/orchestrator.py`: a step builds the context of a loop, asks the budget
gate, the proposer and the three gates, executes what passed, and ends with the feedback and the
phase that follows. A human stops a loop directly, whatever its phase.

## Main definitions

* `StepAnswers`: what the collaborators of a step answer
* `ReasoningLoopOrchestrator.runStep`, `emergencyStop`, `resumeLoop`
* `LoopOp`, `LoopCall`, `LoopDeployment.act`: the operations on a loop

## Main results

* `runStep_saves`: a step that writes found a loop that runs, and leaves it running or ended
* `runStep_writesIf`: when a step writes
* `emergencyStop_saves`, `resumeLoop_saves`: what the other two write
* `act_saves`: every operation writes a record of the loop that it read
-/

namespace SecOpent

open Python

/-! ## Running a step -/

/-- `_MOCK_STEP_TOKENS`. -/
def mockStepTokens : ℤ := 100

/-- What the collaborators of a step answer: the context builder, the proposer, the three gates and
the loop oracle; and what the clock, `secrets` and `uuid` give. -/
structure StepAnswers where
  context : Except LoopError LoopContext
  proposed : Except LoopError (Option ProposeAction)
  schemaVerdict : Except LoopError GateVerdict
  policyVerdict : Except LoopError GateVerdict
  permitVerdict : Except LoopError GateVerdict
  oracleOutcome : Except LoopError OracleOutcome
  timestamp : Time
  now : Time
  stepToken : String
  stepNumber : ℕ
  correlationToken : String

/-- `StepResult`. -/
structure StepResult where
  loopId : LoopId
  phase : LoopPhase
  stepRecorded : Option LoopStep
  signalsCount : ℕ

/-- An inert action, for a step without a proposal. -/
def inertAction (rationale : String) (h : 50 ≤ rationale.length ∧ rationale.length ≤ 500) :
    ProposeAction where
  actionType := .abortStep
  payload := .empty
  rationale := rationale
  confidence := .zero
  payload_valid := rfl
  rationale_length := h

/-- `_budget_rejected_action`. -/
def budgetRejectedAction : ProposeAction :=
  inertAction ("(budget gate rejected before proposal)" ++ String.ofList (List.replicate 50 ' '))
    (by decide)

/-- The action of a placeholder without a proposal. -/
def noProposalAction : ProposeAction :=
  inertAction ("(no proposer output)" ++ String.ofList (List.replicate 60 ' ')) (by decide)

/-- The steps of `_mock_execute`, `_execute_oracle_step` and `_placeholder_step` have these fields in
common. -/
def bareStep (loopId : LoopId) (H : Sha256) (context : LoopContext) (action : ProposeAction)
    (answers : StepAnswers) : LoopStep where
  stepId := "step-" ++ answers.stepToken
  loopId := loopId
  stepNumber := answers.stepNumber % 2 ^ 32
  timestamp := answers.timestamp
  contextHashBefore := String.ofList (context.contextHash H)
  proposedAction := action
  proposeTokensUsed := mockStepTokens
  proposeLatencyMs := 50
  proposeRationale := action.rationale
  schemaCheckPassed := true
  policyDecision := ⟨"allow", "ok", none⟩
  permitId := none
  toolOrCaseId := none
  executionResultDigest := ""
  evidenceRefs := []
  observationSignals := []
  catalogClassMatched := ∅
  oracleProgressed := false
  correlationId := "corr-" ++ answers.correlationToken

/-- `_placeholder_step`; every caller passes no signals and no tokens. -/
def placeholderStep (loopId : LoopId) (H : Sha256) (context : LoopContext)
    (action : Option ProposeAction) (schemaPassed policyPassed : Bool) (answers : StepAnswers) :
    LoopStep :=
  { bareStep loopId H context (action.getD noProposalAction) answers with
    proposeTokensUsed := 0
    proposeLatencyMs := 0
    schemaCheckPassed := schemaPassed
    policyDecision :=
      ⟨if policyPassed then "allow" else "deny", "mock",
        if policyPassed then none else some "MOCK_DENIED"⟩ }

/-- `_mock_execute`. -/
def mockExecute (loopId : LoopId) (H : Sha256) (context : LoopContext) (action : ProposeAction)
    (permitId : String) (answers : StepAnswers) : LoopStep :=
  let body : Json := .object [("mock", .bool true), ("loop_id", .text loopId.value)]
  { bareStep loopId H context action answers with
    permitId := some permitId
    toolOrCaseId :=
      match action.toolId with
      | some "" => action.text? "case_id"
      | some toolId => some toolId
      | none => action.text? "case_id"
    executionResultDigest := String.ofList (sha256Tag ++ H.hexdigest body.dumps) }

/-- `OracleOutcome.resolved`. -/
def OracleOutcome.resolved (outcome : OracleOutcome) : Bool :=
  outcome.status ∈ [VerificationStatus.confirmed, .refuted]

/-- `_execute_oracle_step`, with the outcome of the oracle. -/
def executeOracleStep (loopId : LoopId) (H : Sha256) (context : LoopContext)
    (action : ProposeAction) (permitId : String) (outcome : OracleOutcome) (answers : StepAnswers) :
    LoopStep :=
  { bareStep loopId H context action answers with
    permitId := some permitId
    toolOrCaseId := some ((action.text? "candidate_id").getD "")
    executionResultDigest :=
      "oracle:" ++ outcome.status.value ++ "(" ++ intText outcome.successes ++ "/" ++
        intText outcome.attempts ++ ")"
    oracleProgressed := outcome.resolved }

/-- The event of a loop that ends. -/
def recordTermination (loopId : LoopId) (phase : LoopPhase) (terminatedBy : String × Json) :
    LoopActing Unit :=
  if phase.Terminal then
    record "reasoning_loop" "loop.terminated" loopId
      [("final_phase", .text phase.value), terminatedBy]
  else pure ()

/-- The end of a step: the feedback, the phase that follows, and the event of a loop that ends. -/
def advance (loopId : LoopId) (state : LoopState) (step : LoopStep) (policyDecisionPassed : Bool)
    (now : Time) (terminatedBy : String × Json) : LoopActing LoopPhase := do
  let newState := LoopFeedback.apply state step policyDecisionPassed step.observationSignals.length now
  let newPhase := evaluateTermination newState .default
  save { newState with phase := newPhase }
  recordTermination loopId newPhase terminatedBy
  pure newPhase

/-- `_record_backend_unavailable`. -/
def recordBackendUnavailable (H : Sha256) (loopId : LoopId) (state : LoopState)
    (context : LoopContext) (answers : StepAnswers) : LoopActing StepResult := do
  record "reasoning_loop" "loop.backend_unavailable" loopId
    [("context_hash", .text (String.ofList (context.contextHash H)))]
  let placeholder := placeholderStep loopId H context none false true answers
  let newPhase ← advance loopId state placeholder true answers.now
    ("via", .text "backend_unavailable")
  pure ⟨loopId, newPhase, none, 0⟩

/-- `_record_gate_rejected`. -/
def recordGateRejected (H : Sha256) (loopId : LoopId) (state : LoopState) (context : LoopContext)
    (proposed : ProposeAction) (gateName denyCode reason : String) (answers : StepAnswers) :
    LoopActing StepResult := do
  record "reasoning_loop" "loop.gate_rejected" loopId
    [("gate", .text gateName), ("deny_code", .text denyCode), ("reason", .text reason),
      ("action_type", .text proposed.actionType.value)]
  let placeholder := placeholderStep loopId H context (some proposed) (gateName != "schema")
    (gateName == "permit") answers
  let newPhase ← advance loopId state placeholder (gateName != "policy") answers.now
    ("via", .text "gate_rejected")
  pure ⟨loopId, newPhase, none, 0⟩

/-- `verdict.deny_code or default`. -/
def GateVerdict.denyCodeOr (verdict : GateVerdict) (default : String) : String :=
  ProposeAction.orText verdict.denyCode default

/-- `self._loop_oracle is not None and action_type is REQUEST_ORACLE`, and the step that is run. -/
def executeStep (H : Sha256) (loopOracle : Bool) (loopId : LoopId) (context : LoopContext)
    (proposed : ProposeAction) (permitId : String) (answers : StepAnswers) : LoopActing LoopStep :=
  if proposed.actionType = .requestOracle ∧ loopOracle = true then do
    let outcome ← .ofExcept answers.oracleOutcome
    pure (executeOracleStep loopId H context proposed permitId outcome answers)
  else pure (mockExecute loopId H context proposed permitId answers)

/-- The events of a step that was executed. -/
def recordStep (loopId : LoopId) (step : LoopStep) : LoopActing Unit := do
  record "reasoning_loop" "loop.step_proposed" loopId
    [("step_id", .text step.stepId), ("action_type", .text step.proposedAction.actionType.value),
      ("permit_id", step.permitId.elim .null .text), ("tokens_used", .int step.proposeTokensUsed)]
  record "reasoning_loop" "loop.step_executed" loopId
    ([("step_id", .text step.stepId), ("tool_or_case_id", step.toolOrCaseId.elim .null .text),
      ("result_digest", .text step.executionResultDigest),
      ("signals", textsJson step.observationSignals)] ++
      if step.proposedAction.actionType = .requestOracle then
        [("oracle_progressed", .bool step.oracleProgressed)]
      else [])

/-- `ReasoningLoopOrchestrator`: the optional collaborators that are wired. -/
structure ReasoningLoopOrchestrator where
  budgetGate : Bool := false
  loopOracle : Bool := false
  pauseControl : Option PauseControl := none

/-- `repr` of the value of a loop id. -/
def LoopId.repr (loopId : LoopId) : String := "'" ++ loopId.value ++ "'"

/-- `LoopNotFoundError`. -/
def loopNotFound (loopId : LoopId) : LoopError :=
  .loopNotFound ("loop_id " ++ loopId.repr ++ " not found")

namespace ReasoningLoopOrchestrator

variable (orchestrator : ReasoningLoopOrchestrator) (H : Sha256) (loopId : LoopId)

/-- Steps 7 and 8 of `run_step`: what passed all gates is executed. -/
def executeAndAdvance (state : LoopState) (context : LoopContext) (proposed : ProposeAction)
    (permitId : String) (answers : StepAnswers) : LoopActing StepResult := do
  let step ← executeStep H orchestrator.loopOracle loopId context proposed permitId answers
  addStep step
  recordStep loopId step
  let newPhase ← advance loopId state step true answers.now ("step_id", .text step.stepId)
  pure ⟨loopId, newPhase, some step, step.observationSignals.length⟩

/-- Steps 4 to 8 of `run_step`: the schema, the policy and the permit gate. -/
def gateAndExecute (state : LoopState) (context : LoopContext) (proposed : ProposeAction)
    (answers : StepAnswers) : LoopActing StepResult := do
  let sv ← .ofExcept answers.schemaVerdict
  if !sv.passed then
    recordGateRejected H loopId state context proposed "schema" (sv.denyCodeOr "SCHEMA_DENIED")
      sv.reason answers
  else do
    let pv ← .ofExcept answers.policyVerdict
    if !pv.passed then
      recordGateRejected H loopId state context proposed "policy" (pv.denyCodeOr "POLICY_DENIED")
        pv.reason answers
    else do
      let permit ← .ofExcept answers.permitVerdict
      if !permit.passed then
        recordGateRejected H loopId state context proposed "permit"
          (permit.denyCodeOr "PERMIT_DENIED") permit.reason answers
      else
        executeAndAdvance orchestrator H loopId state context proposed (permit.permitId.getD "")
          answers

/-- Steps 1 to 8 of `run_step`, on a loop that steps. -/
def stepLoop (state : LoopState) (answers : StepAnswers) : LoopActing StepResult := do
  let context ← .ofExcept answers.context
  let bvd := budgetGateCheck state.budget mockStepTokens
  if orchestrator.budgetGate && !bvd.passed then
    recordGateRejected H loopId state context budgetRejectedAction "budget"
      (bvd.denyCodeOr "BUDGET_DENIED") bvd.reason answers
  else do
    match ← (.ofExcept answers.proposed : LoopActing _) with
    | none => recordBackendUnavailable H loopId state context answers
    | some proposed => gateAndExecute orchestrator H loopId state context proposed answers

/-- `run_step`, on the record that it read. -/
def runStep (answers : StepAnswers) (read : Option LoopState) : LoopActing StepResult :=
  match read with
  | none => .raise (loopNotFound loopId)
  | some state =>
    if state.phase.Terminal then
      .raise (.alreadyTerminal ("loop_id " ++ loopId.repr ++ " already terminal in phase " ++
        state.phase.value))
    else if state.phase ∈ LoopPhase.nonAutoStepPhases then pure ⟨loopId, state.phase, none, 0⟩
    else stepLoop orchestrator H loopId state answers

/-- The record of a stopped loop. -/
def stoppedState (state : LoopState) (now : Time) : LoopState :=
  { state with phase := .emergencyStopped, lastStepAt := some now }

/-- `emergency_stop`, on the record that it read. -/
def emergencyStop (actor reason : String) (now : Time) (read : Option LoopState) :
    LoopActing LoopState :=
  match read with
  | none => .raise (loopNotFound loopId)
  | some state =>
    if state.phase = .emergencyStopped then pure state
    else do
      save (stoppedState state now)
      record actor "loop.terminated" loopId
        [("final_phase", .text "emergency_stopped"), ("reason", .text "emergency_stop"),
          ("human_reason", .text reason), ("from_phase", .text state.phase.value)]
      pure (stoppedState state now)

/-- The record of a loop that is out of pauses. -/
def blockedState (state : LoopState) (now : Time) : LoopState :=
  { state with phase := .policyBlocked, lastStepAt := some now }

/-- `_force_pause_budget_termination`, on the record that it read. -/
def forcePauseBudgetTermination (detail actor : String) (now : Time) (read : Option LoopState) :
    LoopActing LoopState :=
  match read with
  | none => .raise (loopNotFound loopId)
  | some state => do
    save (blockedState state now)
    record actor "loop.terminated" loopId
      [("final_phase", .text "policy_blocked"), ("reason", .text "pause_budget"),
        ("detail", .text detail)]
    pure (blockedState state now)

/-- `resume_loop`, when nothing comes between its two reads: a resume beyond the pause budget ends
the loop. -/
def resumeLoop (request : ResumeRequest) (now : Time) (read : Option LoopState) :
    LoopActing LoopState :=
  match orchestrator.pauseControl with
  | none =>
    .raise (.domain ("resume_loop() requires the orchestrator to be composed with a " ++
      "PauseControlService (pause_control=...)"))
  | some control =>
    let resumed := control.resume loopId request now read
    match resumed.result with
    | .error (.pauseBudgetExceeded detail) =>
      ⟨resumed.effects ++ (forcePauseBudgetTermination loopId detail request.actor now read).effects,
        (forcePauseBudgetTermination loopId detail request.actor now read).result⟩
    | _ => resumed

end ReasoningLoopOrchestrator

/-! ## What is written -/

section Spec

variable {orchestrator : ReasoningLoopOrchestrator} {H : Sha256} {loopId : LoopId}
  {answers : StepAnswers} {read : Option LoopState} {state : LoopState} {actor reason : String}
  {now : Time} {request : ResumeRequest}

/-- The record of a loop after a step. -/
def afterStep (state : LoopState) (step : LoopStep) (policyDecisionPassed : Bool) (now : Time) :
    LoopState :=
  let newState := LoopFeedback.apply state step policyDecisionPassed step.observationSignals.length now
  { newState with phase := evaluateTermination newState .default }

/-- The record is that of the loop after a step that spent the tokens. -/
def SteppedWith (tokens : ℤ) (now : Time) (state saved : LoopState) : Prop :=
  ∃ step policyDecisionPassed, step.proposeTokensUsed = tokens ∧
    saved = afterStep state step policyDecisionPassed now

/-- The record of a loop after a step: the loop runs, or has ended in one of three ways. -/
def Advanced (state saved : LoopState) : Prop :=
  saved.loopId = state.loopId ∧
    saved.phase ∈ [LoopPhase.budgetExhausted, .policyBlocked, .converged, .running]

/-- The gate answers, and passes the action. -/
def passes : Except LoopError GateVerdict → Bool
  | .ok verdict => verdict.passed
  | .error _ => false

/-- The step executes an action: the proposer proposes one, and every gate passes it. -/
def StepAnswers.executes (answers : StepAnswers) (orchestrator : ReasoningLoopOrchestrator)
    (state : LoopState) : Bool :=
  !(orchestrator.budgetGate && !(budgetGateCheck state.budget mockStepTokens).passed) &&
    (answers.proposed matches .ok (some _)) && passes answers.schemaVerdict &&
    passes answers.policyVerdict && passes answers.permitVerdict

/-- The tokens that the step spends. -/
def StepAnswers.tokens (answers : StepAnswers) (orchestrator : ReasoningLoopOrchestrator)
    (state : LoopState) : ℤ :=
  if answers.executes orchestrator state then mockStepTokens else 0

theorem SteppedWith.advanced {tokens : ℤ} {saved : LoopState}
    (hstopped : state.phase ≠ .emergencyStopped) (hpaused : state.phase ≠ .paused)
    (h : SteppedWith tokens now state saved) : Advanced state saved := by
  obtain ⟨step, passed, -, rfl⟩ := h
  exact ⟨rfl, evaluateTermination_cases hstopped hpaused⟩

theorem advance_saves {step : LoopStep} {policyDecisionPassed : Bool} {terminatedBy : String × Json} :
    Saves (SteppedWith step.proposeTokensUsed now state)
      (advance loopId state step policyDecisionPassed now terminatedBy) := by
  have hsaved : SteppedWith step.proposeTokensUsed now state
      (afterStep state step policyDecisionPassed now) := ⟨step, policyDecisionPassed, rfl, rfl⟩
  refine (Saves.save hsaved).bind fun _ _ => Saves.bind ?_ fun _ _ => Acting.Only.pure _
  exact Acting.Only.ite (fun _ => Saves.record _ _ _ _) fun _ => Acting.Only.pure _

theorem recordGateRejected_saves {context : LoopContext} {proposed : ProposeAction}
    {gateName denyCode : String} :
    Saves (SteppedWith 0 answers.now state)
      (recordGateRejected H loopId state context proposed gateName denyCode reason answers) :=
  (Saves.record _ _ _ _).bind fun _ _ => Saves.bind advance_saves fun _ _ => Acting.Only.pure _

/-- The execution of a step has no effects. -/
theorem executeStep_only {P : LoopEffect → Prop} {loopOracle : Bool} {context : LoopContext}
    {proposed : ProposeAction} {permitId : String} :
    (executeStep H loopOracle loopId context proposed permitId answers).Only P := by
  refine Acting.Only.ite (fun _ => ?_) fun _ => Acting.Only.pure _
  exact Acting.Only.bind (Acting.Only.ofExcept _) fun _ _ => Acting.Only.pure _

/-- A step is executed in one of two ways. -/
theorem executeStep_eq_ok {loopOracle : Bool} {context : LoopContext} {proposed : ProposeAction}
    {permitId : String} {step : LoopStep}
    (h : (executeStep H loopOracle loopId context proposed permitId answers).result = .ok step) :
    (∃ outcome, step = executeOracleStep loopId H context proposed permitId outcome answers) ∨
      step = mockExecute loopId H context proposed permitId answers := by
  unfold executeStep at h
  split at h
  · obtain ⟨outcome, -, hstep⟩ := Acting.bind_result_eq_ok h
    cases hstep
    exact .inl ⟨outcome, rfl⟩
  · cases h
    exact .inr rfl

theorem executeAndAdvance_saves {context : LoopContext} {proposed : ProposeAction}
    {permitId : String} :
    Saves (SteppedWith mockStepTokens answers.now state)
      (orchestrator.executeAndAdvance H loopId state context proposed permitId answers) := by
  refine Saves.bind executeStep_only fun step hstep => ?_
  -- Both ways to execute a step spend the same tokens.
  have htokens : step.proposeTokensUsed = mockStepTokens := by
    rcases executeStep_eq_ok hstep with ⟨_, rfl⟩ | rfl <;> rfl
  refine (Saves.addStep step).bind fun _ _ => Saves.bind ?_ fun _ _ => ?_
  · exact (Saves.record _ _ _ _).bind fun _ _ => Saves.record _ _ _ _
  · rw [← htokens]
    exact Saves.bind advance_saves fun _ _ => Acting.Only.pure _

theorem gateAndExecute_saves {context : LoopContext} {proposed : ProposeAction} :
    Saves (SteppedWith
        (if passes answers.schemaVerdict && passes answers.policyVerdict &&
          passes answers.permitVerdict then mockStepTokens else 0) answers.now state)
      (orchestrator.gateAndExecute H loopId state context proposed answers) := by
  have hrejected : ∀ {gateName denyCode reason : String}, Saves (SteppedWith 0 answers.now state)
      (recordGateRejected H loopId state context proposed gateName denyCode reason answers) :=
    recordGateRejected_saves
  refine Saves.bind (Acting.Only.ofExcept _) fun sv hsv => ?_
  rw [Acting.ofExcept_result] at hsv
  refine Saves.ite (fun hdenied => ?_) fun hschema => ?_
  · simp only [hsv, passes, Bool.not_eq_true'] at hdenied ⊢
    simpa [hdenied] using hrejected
  refine Saves.bind (Acting.Only.ofExcept _) fun pv hpv => ?_
  rw [Acting.ofExcept_result] at hpv
  refine Saves.ite (fun hdenied => ?_) fun hpolicy => ?_
  · simp only [hpv, passes, Bool.not_eq_true'] at hdenied ⊢
    simpa [hdenied] using hrejected
  refine Saves.bind (Acting.Only.ofExcept _) fun permit hpermit => ?_
  rw [Acting.ofExcept_result] at hpermit
  refine Saves.ite (fun hdenied => ?_) fun hpermitted => ?_
  · simp only [hpermit, passes, Bool.not_eq_true'] at hdenied ⊢
    simpa [hdenied] using hrejected
  · simp only [Bool.not_eq_true', Bool.not_eq_false] at hschema hpolicy hpermitted
    simpa [hsv, hpv, hpermit, passes, hschema, hpolicy, hpermitted] using executeAndAdvance_saves

/-- What a step may do, it does on a loop that runs. -/
theorem runStep_only {P : LoopEffect → Prop}
    (h : ∀ state, read = some state → ¬state.phase.Terminal →
      state.phase ∉ LoopPhase.nonAutoStepPhases →
        (orchestrator.stepLoop H loopId state answers).Only P) :
    (orchestrator.runStep H loopId answers read).Only P := by
  cases read with
  | none => exact Acting.Only.raise _
  | some state =>
    refine Acting.Only.ite (fun _ => Acting.Only.raise _) fun hterminal => ?_
    exact Acting.Only.ite (fun _ => Acting.Only.pure _) fun hauto => h state rfl hterminal hauto

/-- **A step that writes** found a loop that runs, and writes its record after the step. -/
theorem runStep_saves_stepped :
    Saves (fun saved => ∃ state, read = some state ∧ ¬state.phase.Terminal ∧
        state.phase ∉ LoopPhase.nonAutoStepPhases ∧
        SteppedWith (answers.tokens orchestrator state) answers.now state saved)
      (orchestrator.runStep H loopId answers read) := by
  refine runStep_only fun state hread hterminal hauto => ?_
  refine Saves.mono ?_ fun saved hsaved => ⟨state, hread, hterminal, hauto, hsaved⟩
  refine Saves.bind (Acting.Only.ofExcept _) fun context _ => ?_
  unfold StepAnswers.tokens StepAnswers.executes
  refine Saves.ite (fun hbudget => ?_) fun hbudget => ?_
  · simpa only [hbudget, Bool.not_true, Bool.false_and, Bool.false_eq_true, if_false] using
      recordGateRejected_saves
  · rw [Bool.not_eq_true] at hbudget
    refine Saves.bind (Acting.Only.ofExcept _) fun proposed hproposed => ?_
    rw [Acting.ofExcept_result] at hproposed
    cases proposed with
    | none =>
      simp only [hproposed, hbudget, Bool.not_false, Bool.true_and, Bool.false_and,
        Bool.false_eq_true, if_false]
      exact (Saves.record _ _ _ _).bind fun _ _ =>
        Saves.bind advance_saves fun _ _ => Acting.Only.pure _
    | some proposed =>
      simp only [hproposed, hbudget, Bool.not_false, Bool.true_and]
      exact gateAndExecute_saves

/-- A step that writes leaves the loop running or ended. -/
theorem runStep_saves :
    Saves (fun saved => ∃ state, read = some state ∧ ¬state.phase.Terminal ∧
        state.phase ∉ LoopPhase.nonAutoStepPhases ∧ Advanced state saved)
      (orchestrator.runStep H loopId answers read) := by
  refine Saves.mono runStep_saves_stepped fun saved h => ?_
  obtain ⟨state, hread, hterminal, hauto, hsaved⟩ := h
  exact ⟨state, hread, hterminal, hauto,
    hsaved.advanced (LoopPhase.ne_emergencyStopped hterminal) (LoopPhase.ne_paused hauto)⟩

/-- A stop that writes found a loop that is not stopped, and stops it. -/
theorem emergencyStop_saves :
    Saves (fun saved => ∃ state, read = some state ∧ state.phase ≠ .emergencyStopped ∧
        saved = ReasoningLoopOrchestrator.stoppedState state now)
      (ReasoningLoopOrchestrator.emergencyStop loopId actor reason now read) := by
  unfold ReasoningLoopOrchestrator.emergencyStop
  cases read with
  | none => exact Acting.Only.raise _
  | some state =>
    refine Acting.Only.ite (fun _ => Acting.Only.pure _) fun hstopped => ?_
    refine (Saves.save ⟨state, rfl, hstopped, rfl⟩).bind fun _ _ => ?_
    exact (Saves.record _ _ _ _).bind fun _ _ => Acting.Only.pure _

/-- A resume that writes resumes a loop that is not dead, or blocks it. -/
theorem resumeLoop_saves :
    Saves (fun saved =>
        (∃ control state, orchestrator.pauseControl = some control ∧ read = some state ∧
          state.phase ∉ deadPhases ∧ control.ResumeAdmitted loopId request state ∧
          saved = PauseControl.resumedState state now) ∨
        ∃ state, read = some state ∧ saved = ReasoningLoopOrchestrator.blockedState state now)
      (orchestrator.resumeLoop loopId request now read) := by
  unfold ReasoningLoopOrchestrator.resumeLoop
  cases hcontrol : orchestrator.pauseControl with
  | none => exact Acting.Only.raise _
  | some control =>
    have hresume : Saves (fun saved =>
        (∃ control' state, some control = some control' ∧ read = some state ∧
          state.phase ∉ deadPhases ∧ control'.ResumeAdmitted loopId request state ∧
          saved = PauseControl.resumedState state now) ∨
        ∃ state, read = some state ∧ saved = ReasoningLoopOrchestrator.blockedState state now)
        (control.resume loopId request now read) :=
      PauseControl.resume_saves.mono fun saved h => by
        obtain ⟨state, hread, hdead, hadmitted, hsaved⟩ := h
        exact .inl ⟨control, state, rfl, hread, hdead, hadmitted, hsaved⟩
    simp only
    split
    next detail _ =>
      have hforced : Saves (fun saved =>
          ∃ state, read = some state ∧ saved = ReasoningLoopOrchestrator.blockedState state now)
          (ReasoningLoopOrchestrator.forcePauseBudgetTermination loopId detail request.actor now
            read) := by
        unfold ReasoningLoopOrchestrator.forcePauseBudgetTermination
        cases read with
        | none => exact Acting.Only.raise _
        | some state =>
          refine Saves.bind (Saves.save ⟨state, rfl, rfl⟩) fun _ _ => ?_
          exact (Saves.record _ _ _ _).bind fun _ _ => Acting.Only.pure _
      intro e he
      rcases List.mem_append.mp he with he | he
      · exact hresume e he
      · exact fun saved heq => .inr (hforced e he saved heq)
    next => exact hresume

/-! ## When a step writes -/

/-- A REQUEST_ORACLE that is verified by an oracle gets an answer. -/
def OracleAnswers (orchestrator : ReasoningLoopOrchestrator) (proposed : ProposeAction)
    (answers : StepAnswers) : Prop :=
  proposed.actionType = .requestOracle → orchestrator.loopOracle = true →
    ∃ outcome, answers.oracleOutcome = .ok outcome

/-- The gates that are asked answer, and so does the oracle. -/
def GatesAnswer (orchestrator : ReasoningLoopOrchestrator) (proposed : ProposeAction)
    (answers : StepAnswers) : Prop :=
  ∃ sv, answers.schemaVerdict = .ok sv ∧ (sv.passed = true →
    ∃ pv, answers.policyVerdict = .ok pv ∧ (pv.passed = true →
      ∃ permit, answers.permitVerdict = .ok permit ∧ (permit.passed = true →
        OracleAnswers orchestrator proposed answers)))

/-- The loop steps, and none of the collaborators that the step asks raises. -/
def StepAnswers.Complete (answers : StepAnswers) (orchestrator : ReasoningLoopOrchestrator)
    (state : LoopState) : Prop :=
  ¬state.phase.Terminal ∧ state.phase ∉ LoopPhase.nonAutoStepPhases ∧
    ∃ context, answers.context = .ok context ∧
      (¬(orchestrator.budgetGate && !(budgetGateCheck state.budget mockStepTokens).passed) = true →
        ∃ proposed, answers.proposed = .ok proposed ∧
          ∀ action, proposed = some action → GatesAnswer orchestrator action answers)

/-- The end of a step always writes. -/
theorem advance_writes {step : LoopStep} {policyDecisionPassed : Bool}
    {terminatedBy : String × Json} :
    Writes (advance loopId state step policyDecisionPassed now terminatedBy) := by
  unfold advance recordTermination
  refine Writes.bind_left ⟨⟨(), rfl⟩, _, List.mem_cons_self⟩ fun _ => ?_
  split
  · exact ⟨_, rfl⟩
  · exact ⟨_, rfl⟩

theorem recordGateRejected_writes {context : LoopContext} {proposed : ProposeAction}
    {gateName denyCode : String} :
    Writes (recordGateRejected H loopId state context proposed gateName denyCode reason answers) :=
  Writes.bind_right ⟨(), rfl⟩ fun _ => advance_writes.bind_left fun _ => ⟨_, rfl⟩

theorem executeAndAdvance_writesIf {context : LoopContext} {proposed : ProposeAction}
    {permitId : String} :
    WritesIf (OracleAnswers orchestrator proposed answers)
      (orchestrator.executeAndAdvance H loopId state context proposed permitId answers) := by
  have hrest : ∀ step, Writes (do
      addStep step
      recordStep loopId step
      let newPhase ← advance loopId state step true answers.now ("step_id", .text step.stepId)
      pure (⟨loopId, newPhase, some step, step.observationSignals.length⟩ : StepResult)) :=
    fun step => Writes.bind_right ⟨(), rfl⟩ fun _ => Writes.bind_right ⟨(), rfl⟩ fun _ =>
      advance_writes.bind_left fun _ => ⟨_, rfl⟩
  unfold ReasoningLoopOrchestrator.executeAndAdvance executeStep
  by_cases horacle : proposed.actionType = .requestOracle ∧ orchestrator.loopOracle = true
  · rw [if_pos horacle]
    cases houtcome : answers.oracleOutcome with
    | error error =>
      refine ⟨fun h => ?_, fun _ => rfl⟩
      obtain ⟨outcome, hanswer⟩ := h horacle.1 horacle.2
      rw [houtcome] at hanswer
      cases hanswer
    | ok outcome =>
      exact (Writes.bind_right ⟨_, rfl⟩ hrest).writesIf fun _ _ => ⟨outcome, houtcome⟩
  · rw [if_neg horacle]
    refine (Writes.bind_right ⟨_, rfl⟩ hrest).writesIf fun htype hwired => ?_
    exact absurd ⟨htype, hwired⟩ horacle

theorem gateAndExecute_writesIf {context : LoopContext} {proposed : ProposeAction} :
    WritesIf (GatesAnswer orchestrator proposed answers)
      (orchestrator.gateAndExecute H loopId state context proposed answers) := by
  refine WritesIf.ofExcept_bind fun sv _ => WritesIf.ite (fun hdenied => ?_) fun hsv => ?_
  · exact recordGateRejected_writes.writesIf fun h => by simp [h] at hdenied
  refine WritesIf.congr ?_ (forall_prop_of_true (by simpa using hsv)).symm
  refine WritesIf.ofExcept_bind fun pv _ => WritesIf.ite (fun hdenied => ?_) fun hpv => ?_
  · exact recordGateRejected_writes.writesIf fun h => by simp [h] at hdenied
  refine WritesIf.congr ?_ (forall_prop_of_true (by simpa using hpv)).symm
  refine WritesIf.ofExcept_bind fun permit _ => WritesIf.ite (fun hdenied => ?_) fun hpermit => ?_
  · exact recordGateRejected_writes.writesIf fun h => by simp [h] at hdenied
  have hpassed : permit.passed = true := by simpa using hpermit
  exact executeAndAdvance_writesIf.congr ⟨fun h _ => h, fun h => h hpassed⟩

/-- **When a step writes**: the loop steps, and nothing that the step asks raises. -/
theorem runStep_writesIf :
    WritesIf (∃ state, read = some state ∧ answers.Complete orchestrator state)
      (orchestrator.runStep H loopId answers read) := by
  unfold ReasoningLoopOrchestrator.runStep
  cases read with
  | none => exact .raise _ fun h => by simp at h
  | some state =>
    have hread : answers.Complete orchestrator state ↔
        ∃ state', some state = some state' ∧ answers.Complete orchestrator state' := by simp
    refine WritesIf.congr ?_ hread
    refine WritesIf.ite (fun hterminal => .raise _ fun h => h.1 hterminal) fun hterminal => ?_
    refine WritesIf.ite (fun hauto => ⟨fun h => absurd hauto h.2.1, fun _ => rfl⟩) fun hauto => ?_
    refine WritesIf.congr ?_
      (⟨fun h => ⟨hterminal, hauto, h⟩, fun h => h.2.2⟩ :
        _ ↔ answers.Complete orchestrator state)
    refine WritesIf.ofExcept_bind fun context _ => WritesIf.ite (fun hbudget => ?_) fun hbudget => ?_
    · exact recordGateRejected_writes.writesIf fun h => absurd hbudget h
    refine WritesIf.congr ?_ (forall_prop_of_true hbudget).symm
    refine WritesIf.ofExcept_bind fun proposed _ => ?_
    cases proposed with
    | none =>
      have hwrites : Writes (recordBackendUnavailable H loopId state context answers) :=
        Writes.bind_right ⟨(), rfl⟩ fun _ => advance_writes.bind_left fun _ => ⟨_, rfl⟩
      exact hwrites.writesIf fun action h => by cases h
    | some proposed =>
      refine gateAndExecute_writesIf.congr ⟨fun h action haction => ?_, fun h => h _ rfl⟩
      cases haction
      exact h

/-- A step that returns on a loop that steps goes through. -/
theorem complete_of_ok {result : StepResult} (hlive : ¬state.phase.Terminal)
    (hauto : state.phase ∉ LoopPhase.nonAutoStepPhases)
    (h : (orchestrator.runStep H loopId answers (some state)).result = .ok result) :
    answers.Complete orchestrator state := by
  simp only [ReasoningLoopOrchestrator.runStep, if_neg hlive, if_neg hauto] at h
  obtain ⟨context, hcontext, h⟩ := Acting.bind_result_eq_ok h
  refine ⟨hlive, hauto, context, hcontext, fun hbudget => ?_⟩
  rw [if_neg hbudget] at h
  obtain ⟨proposed, hproposed, h⟩ := Acting.bind_result_eq_ok h
  refine ⟨proposed, hproposed, ?_⟩
  rintro action rfl
  obtain ⟨sv, hsv, h⟩ := Acting.bind_result_eq_ok h
  refine ⟨sv, hsv, fun hschema => ?_⟩
  simp only [hschema, Bool.not_true, Bool.false_eq_true, if_false] at h
  obtain ⟨pv, hpv, h⟩ := Acting.bind_result_eq_ok h
  refine ⟨pv, hpv, fun hpolicy => ?_⟩
  simp only [hpolicy, Bool.not_true, Bool.false_eq_true, if_false] at h
  obtain ⟨permit, hpermit, h⟩ := Acting.bind_result_eq_ok h
  refine ⟨permit, hpermit, fun hpermitted => ?_⟩
  simp only [hpermitted, Bool.not_true, Bool.false_eq_true, if_false] at h
  obtain ⟨step, hstep, -⟩ := Acting.bind_result_eq_ok h
  intro htype hwired
  rw [executeStep, if_pos ⟨htype, hwired⟩] at hstep
  obtain ⟨outcome, houtcome, -⟩ := Acting.bind_result_eq_ok hstep
  exact ⟨outcome, houtcome⟩

/-- When a stop writes. -/
theorem emergencyStop_writesIf :
    WritesIf (∃ state, read = some state ∧ state.phase ≠ .emergencyStopped)
      (ReasoningLoopOrchestrator.emergencyStop loopId actor reason now read) := by
  unfold ReasoningLoopOrchestrator.emergencyStop
  cases read with
  | none => exact .raise _ fun h => by simp at h
  | some state =>
    refine WritesIf.ite (fun hstopped => ⟨?_, fun _ => rfl⟩) fun hstopped => ?_
    · rintro ⟨found, hread, hnot⟩
      cases hread
      exact absurd hstopped hnot
    · have hwrites : Writes (do
          save (ReasoningLoopOrchestrator.stoppedState state now)
          record actor "loop.terminated" loopId
            [("final_phase", .text "emergency_stopped"), ("reason", .text "emergency_stop"),
              ("human_reason", .text reason), ("from_phase", .text state.phase.value)]
          pure (ReasoningLoopOrchestrator.stoppedState state now)) :=
        ⟨⟨_, rfl⟩, _, List.mem_cons_self⟩
      exact hwrites.writesIf ⟨state, rfl, hstopped⟩

end Spec

/-! ## Calls -/

/-- The operations on a loop. -/
inductive LoopOp
  | runStep (answers : StepAnswers)
  | pause (actor reason actorRole : String) (now : Time)
  | resume (request : ResumeRequest) (now : Time)
  | resumeLoop (request : ResumeRequest) (now : Time)
  | emergencyStop (actor reason : String) (now : Time)

/-- An operation on a loop, in a unit of work or not, with the events that the audit recorder takes. -/
structure LoopCall where
  loopId : LoopId
  op : LoopOp
  session : Bool := true
  accepts : LoopEvent → Bool := fun _ => true

/-- An orchestrator, and the pause control that the interfaces call. -/
structure LoopDeployment where
  orchestrator : ReasoningLoopOrchestrator
  control : PauseControl

/-- An operation without the value that it returns. -/
def discard {α : Type} (x : LoopActing α) : LoopActing Unit :=
  ⟨x.effects, x.result.map fun _ => ()⟩

theorem writesIf_discard {α : Type} {c : Prop} {x : LoopActing α} (h : WritesIf c x) :
    WritesIf c (discard x) := by
  refine ⟨fun hc => ?_, h.2⟩
  obtain ⟨⟨a, ha⟩, hsave⟩ := h.1 hc
  exact ⟨⟨(), by rw [discard, ha]; rfl⟩, hsave⟩

/-- What the operation does, on the record that it read. -/
def LoopDeployment.act (d : LoopDeployment) (H : Sha256) (loopId : LoopId) (read : Option LoopState) :
    LoopOp → LoopActing Unit
  | .runStep answers => discard (d.orchestrator.runStep H loopId answers read)
  | .pause actor reason actorRole now =>
    discard (PauseControl.pause loopId actor reason actorRole now read)
  | .resume request now => discard (d.control.resume loopId request now read)
  | .resumeLoop request now => discard (d.orchestrator.resumeLoop loopId request now read)
  | .emergencyStop actor reason now =>
    discard (ReasoningLoopOrchestrator.emergencyStop loopId actor reason now read)

/-- The phase in which an operation leaves a loop whose record it writes. -/
def LoopOp.Leaves : LoopOp → LoopPhase → Prop
  | .runStep _, phase => phase ∈ [LoopPhase.budgetExhausted, .policyBlocked, .converged, .running]
  | .pause .., phase => phase = .paused
  | .resume .., phase => phase = .resumed
  | .resumeLoop .., phase => phase = .resumed ∨ phase = .policyBlocked
  | .emergencyStop .., phase => phase = .emergencyStopped

/-- **What an operation writes** is a record of the loop that it read. -/
theorem act_saves {d : LoopDeployment} {H : Sha256} {loopId : LoopId} {read : Option LoopState}
    (op : LoopOp) :
    Saves (fun saved => (∃ state, read = some state ∧ saved.loopId = state.loopId) ∧
        op.Leaves saved.phase) (d.act H loopId read op) := by
  cases op with
  | runStep answers =>
    refine Saves.mono runStep_saves fun saved h => ?_
    obtain ⟨state, hread, -, -, hid, hphase⟩ := h
    exact ⟨⟨state, hread, hid⟩, hphase⟩
  | pause actor reason actorRole now =>
    refine Saves.mono PauseControl.pause_saves fun saved h => ?_
    obtain ⟨state, hread, -, -, -, rfl⟩ := h
    exact ⟨⟨state, hread, rfl⟩, rfl⟩
  | resume request now =>
    refine Saves.mono PauseControl.resume_saves fun saved h => ?_
    obtain ⟨state, hread, -, -, rfl⟩ := h
    exact ⟨⟨state, hread, rfl⟩, rfl⟩
  | resumeLoop request now =>
    refine Saves.mono resumeLoop_saves fun saved h => ?_
    rcases h with ⟨control, state, -, hread, -, -, rfl⟩ | ⟨state, hread, rfl⟩
    · exact ⟨⟨state, hread, rfl⟩, .inl rfl⟩
    · exact ⟨⟨state, hread, rfl⟩, .inr rfl⟩
  | emergencyStop actor reason now =>
    refine Saves.mono emergencyStop_saves fun saved h => ?_
    obtain ⟨state, hread, -, rfl⟩ := h
    exact ⟨⟨state, hread, rfl⟩, rfl⟩

end SecOpent
