import SecOpent.Python.Json
import SecOpent.ReasoningLoop.Actions
import SecOpent.Scope.Snapshot

/-!
# States of a reasoning loop

`domain/reasoning_loop/models.py` and `policies.py`, with `application/reasoning_loop/feedback.py` and
`budget_gate.py`: the record of one loop, what a step does to it, and the phase that follows. A loop
ends when a budget is used up, when too many actions were denied in a row, when too many steps in a
row brought no signal, or when it is stopped.

## Main definitions

* `LoopPhase`, `LoopPhase.Terminal`
* `LoopBudget`, `LoopState`, `LoopStep`, `LoopTerminationPolicy`
* `budgetGateCheck`, `LoopFeedback.apply`, `evaluateTermination`

## Main results

* `evaluateTermination_cases`: the phase after a step
-/

namespace SecOpent

open Python

/-! ## Phases -/

/-- `LoopPhase`. -/
inductive LoopPhase
  | initializing | running | converged | catalogFloorDone | paused | resumed | budgetExhausted
  | policyBlocked | emergencyStopped | completed
  deriving DecidableEq, Repr

namespace LoopPhase

/-- `LoopPhase.value`. -/
def value : LoopPhase → String
  | .initializing => "initializing"
  | .running => "running"
  | .converged => "converged"
  | .catalogFloorDone => "catalog_floor_done"
  | .paused => "paused"
  | .resumed => "resumed"
  | .budgetExhausted => "budget_exhausted"
  | .policyBlocked => "policy_blocked"
  | .emergencyStopped => "emergency_stopped"
  | .completed => "completed"

/-- `_TERMINAL_PHASES` of the orchestrator. -/
def terminalPhases : List LoopPhase :=
  [.completed, .budgetExhausted, .policyBlocked, .converged, .emergencyStopped]

/-- `_NON_AUTO_STEP_PHASES`. -/
def nonAutoStepPhases : List LoopPhase := [.paused, .catalogFloorDone]

/-- The phase is terminal. -/
def Terminal (phase : LoopPhase) : Prop := phase ∈ terminalPhases

instance (phase : LoopPhase) : Decidable phase.Terminal :=
  inferInstanceAs (Decidable (phase ∈ terminalPhases))

theorem ne_emergencyStopped {phase : LoopPhase} (hlive : ¬phase.Terminal) :
    phase ≠ .emergencyStopped := by
  rintro rfl
  exact hlive (by decide)

theorem ne_paused {phase : LoopPhase} (hauto : phase ∉ nonAutoStepPhases) : phase ≠ .paused := by
  rintro rfl
  exact hauto (by decide)

end LoopPhase

/-! ## Budgets -/

/-- `LoopBudget`. -/
structure LoopBudget where
  maxSteps : ℤ
  maxTotalTokens : ℤ
  maxWallSeconds : ℤ
  stepsUsed : ℤ := 0
  tokensUsed : ℤ := 0
  wallSecondsUsed : ℤ := 0
  deriving DecidableEq, Repr

namespace LoopBudget

/-- `LoopBudget.default`. -/
def default : LoopBudget where
  maxSteps := 50
  maxTotalTokens := 200000
  maxWallSeconds := 1800

/-- `consume`. -/
def consume (budget : LoopBudget) (steps tokens wallSeconds : ℤ) : LoopBudget :=
  { budget with
    stepsUsed := budget.stepsUsed + steps
    tokensUsed := budget.tokensUsed + tokens
    wallSecondsUsed := budget.wallSecondsUsed + wallSeconds }

/-- `exhausted`. -/
def exhausted (budget : LoopBudget) : Bool :=
  budget.stepsUsed ≥ budget.maxSteps || budget.tokensUsed ≥ budget.maxTotalTokens ||
    budget.wallSecondsUsed ≥ budget.maxWallSeconds

end LoopBudget

/-- `STEP_TOKEN_LIMIT`. -/
def stepTokenLimit : ℤ := 8000

/-- An integer in an f-string. -/
def intText (n : ℤ) : String := String.ofList (intRepr n)

/-- `BudgetGateImpl.check`, on the budget that it reads. -/
def budgetGateCheck (budget : LoopBudget) (proposedTokens : ℤ) : GateVerdict :=
  if proposedTokens > stepTokenLimit then
    { passed := false
      reason := "proposed step allocates " ++ intText proposedTokens ++ " tokens, over the " ++
        intText stepTokenLimit ++ " per-step limit"
      denyCode := some "BUDGET_STEP_TOKEN_LIMIT" }
  else
    let post := budget.consume 0 proposedTokens 0
    if post.exhausted then
      { passed := false
        reason := "budget exhausted: steps=" ++ intText post.stepsUsed ++ "/" ++
          intText post.maxSteps ++ ", tokens=" ++ intText post.tokensUsed ++ "/" ++
          intText post.maxTotalTokens ++ ", wall=" ++ intText post.wallSecondsUsed ++ "s/" ++
          intText post.maxWallSeconds
        denyCode := some "BUDGET_EXHAUSTED" }
    else { passed := true, reason := "budget_ok" }

/-! ## Loops -/

/-- `_LOOP_ID_RE.fullmatch`. -/
def isLoopIdText (text : String) : Bool :=
  text.toList.length == 8 && text.toList.all fun c => c.isDigit || "abcdef".toList.contains c

/-- `LoopId`: eight lowercase hexadecimal digits. -/
structure LoopId where
  value : String
  valid : isLoopIdText value = true
  deriving DecidableEq

/-- A loop id as short as they come. -/
def firstLoopId : LoopId := ⟨"abcd1234", by decide⟩

/-- `LoopState`. -/
structure LoopState where
  loopId : LoopId
  assessmentId : String
  phase : LoopPhase
  policySnapshot : String
  budget : LoopBudget
  contextHash : String
  catalogRequiredRemaining : Finset String
  catalogRequiredExecuted : Finset String
  consecutiveNoSignal : ℤ
  consecutivePolicyRejected : ℤ
  startedAt : Time
  lastStepAt : Option Time
  pauseAttempts : ℤ := 0
  pausedAt : Option Time := none
  resumedAt : Option Time := none
  deriving DecidableEq

/-- `PolicyDecision` of the reasoning loop. -/
structure LoopPolicyDecision where
  verdict : String
  reason : String
  denyCode : Option String := none

/-- `LoopStep`. -/
structure LoopStep where
  stepId : String
  loopId : LoopId
  stepNumber : ℕ
  timestamp : Time
  contextHashBefore : String
  proposedAction : ProposeAction
  proposeTokensUsed : ℤ
  proposeLatencyMs : ℤ
  proposeRationale : String
  schemaCheckPassed : Bool
  policyDecision : LoopPolicyDecision
  permitId : Option String
  toolOrCaseId : Option String
  executionResultDigest : String
  evidenceRefs : List String
  observationSignals : List String
  catalogClassMatched : Finset String
  oracleProgressed : Bool
  correlationId : String

/-- `LoopFeedback.apply`; a signal count is a length. -/
def LoopFeedback.apply (current : LoopState) (step : LoopStep) (policyDecisionPassed : Bool)
    (signalCount : ℕ) (now : Time) : LoopState :=
  { current with
    budget := current.budget.consume 1 step.proposeTokensUsed 0
    catalogRequiredRemaining := current.catalogRequiredRemaining \ step.catalogClassMatched
    catalogRequiredExecuted := current.catalogRequiredExecuted ∪ step.catalogClassMatched
    consecutiveNoSignal := if signalCount > 0 then 0 else current.consecutiveNoSignal + 1
    consecutivePolicyRejected :=
      if policyDecisionPassed then 0 else current.consecutivePolicyRejected + 1
    lastStepAt := some now }

/-! ## Termination -/

/-- `LoopTerminationPolicy`, without the fields that nothing reads: the limits on steps, time and
tokens are those of the budget. -/
structure LoopTerminationPolicy where
  noSignalStreakToConverge : ℤ
  policyRejectedStreakToStop : ℤ
  maxPauses : ℤ

namespace LoopTerminationPolicy

/-- `LoopTerminationPolicy.default`. -/
def default : LoopTerminationPolicy where
  noSignalStreakToConverge := 5
  policyRejectedStreakToStop := 3
  maxPauses := 3

/-- `pause_budget_exceeded`. -/
def pauseBudgetExceeded (policy : LoopTerminationPolicy) (attempts : ℤ) : Bool :=
  attempts ≥ policy.maxPauses

end LoopTerminationPolicy

/-- `evaluate_termination`. -/
def evaluateTermination (state : LoopState) (policy : LoopTerminationPolicy) : LoopPhase :=
  if state.phase = .emergencyStopped then .emergencyStopped
  else if state.phase = .paused then .paused
  else if state.budget.exhausted then .budgetExhausted
  else if state.consecutivePolicyRejected ≥ policy.policyRejectedStreakToStop then .policyBlocked
  else if state.consecutiveNoSignal ≥ policy.noSignalStreakToConverge then .converged
  else .running

/-- A loop that is neither stopped nor paused runs on or ends, and is neither after the step. -/
theorem evaluateTermination_cases {state : LoopState} {policy : LoopTerminationPolicy}
    (hstopped : state.phase ≠ .emergencyStopped) (hpaused : state.phase ≠ .paused) :
    evaluateTermination state policy ∈
      [LoopPhase.budgetExhausted, .policyBlocked, .converged, .running] := by
  rw [evaluateTermination, if_neg hstopped, if_neg hpaused]
  split
  · simp
  · split
    · simp
    · split <;> simp

end SecOpent
