import SecOpent.Python.OrderedRows
import SecOpent.Python.ZonedTime
import SecOpent.ReasoningLoop.States

/-!
# Rows of loops and their steps

`infrastructure/reasoning_loop/sqlalchemy_state.py`: the record of a loop and the record of a step are
written to rows by hand, field by field, and built again from the rows with the checks of their
constructors. Budgets, sets, decisions and actions are JSON columns; time columns have no time zone.

## Main definitions

* `ZonedLoopState`, `ZonedLoopStep`: records with the time zones of their datetimes
* `CoreReasoningLoop`, `fromState`, `toState`
* `CoreLoopStep`, `fromStep`, `toStep`

## Main results

* `toState_fromState`, `toStep_fromStep`: what comes back of a record
* `reread_state_iff`, `reread_step_iff`: a record comes back equal when its times are in UTC
-/

namespace SecOpent

open Python

/-! ## Values in columns -/

/-- `LoopId(value=text)`, which raises on any other text. -/
def LoopId.ofValue? (text : String) : Option LoopId :=
  if h : isLoopIdText text = true then some ⟨text, h⟩ else none

/-- `LoopPhase(text)`, which raises on any other text. -/
def LoopPhase.ofValue? (text : String) : Option LoopPhase :=
  [.initializing, .running, .converged, .catalogFloorDone, .paused, .resumed, .budgetExhausted,
    .policyBlocked, .emergencyStopped, .completed].find? fun phase => phase.value == text

/-- `LoopActionType(text)`, which raises on any other text. -/
def LoopActionType.ofValue? (text : String) : Option LoopActionType :=
  [.runTool, .runCase, .requestPeer, .requestOracle, .requestChain, .abortStep].find?
    fun actionType => actionType.value == text

theorem LoopId.ofValue?_value (loopId : LoopId) : LoopId.ofValue? loopId.value = some loopId :=
  dif_pos loopId.valid

theorem LoopId.value_inj {loopId other : LoopId} : loopId.value = other.value ↔ loopId = other := by
  constructor
  · intro h
    have hread := LoopId.ofValue?_value loopId
    rw [h, LoopId.ofValue?_value] at hread
    exact (Option.some.inj hread).symm
  · rintro rfl
    rfl

theorem LoopPhase.ofValue?_value (phase : LoopPhase) :
    LoopPhase.ofValue? phase.value = some phase := by
  cases phase <;> decide

theorem LoopActionType.ofValue?_value (actionType : LoopActionType) :
    LoopActionType.ofValue? actionType.value = some actionType := by
  cases actionType <;> decide

/-- `_budget_to_json`. -/
def budgetToJson (budget : LoopBudget) : Dict String ℤ where
  items :=
    [("max_steps", budget.maxSteps), ("max_total_tokens", budget.maxTotalTokens),
      ("max_wall_seconds", budget.maxWallSeconds), ("steps_used", budget.stepsUsed),
      ("tokens_used", budget.tokensUsed), ("wall_seconds_used", budget.wallSecondsUsed)]
  keys_nodup := by simp

/-- `_budget_from_json`: a key that is not there raises. -/
def budgetFromJson (data : Dict String ℤ) : Option LoopBudget := do
  let maxSteps ← data.get? "max_steps"
  let maxTotalTokens ← data.get? "max_total_tokens"
  let maxWallSeconds ← data.get? "max_wall_seconds"
  let stepsUsed ← data.get? "steps_used"
  let tokensUsed ← data.get? "tokens_used"
  let wallSecondsUsed ← data.get? "wall_seconds_used"
  pure ⟨maxSteps, maxTotalTokens, maxWallSeconds, stepsUsed, tokensUsed, wallSecondsUsed⟩

theorem budgetFromJson_toJson (budget : LoopBudget) :
    budgetFromJson (budgetToJson budget) = some budget := by
  simp [budgetFromJson, budgetToJson, Dict.get?, Dict.lookup]

/-- The value of a member that holds a text. -/
def textMember (fields : List (String × Json)) (key : String) : Option String :=
  match Dict.lookup key fields with
  | some (.text value) => some value
  | _ => none

/-- The value of a member that holds a text or `None`, and may be missing: `none` when it holds
something else. -/
def optionalMember (fields : List (String × Json)) (key : String) : Option (Option String) :=
  match Dict.lookup key fields with
  | none => some none
  | some .null => some none
  | some (.text value) => some (some value)
  | some _ => none

/-- `ProposeAction.model_validate`: `none` when it raises. -/
def ProposeAction.modelValidate : Json → Option ProposeAction
  | .object fields => do
    guard (fields.all fun field => ["action_type", "payload", "rationale", "confidence",
      "hypothesis_id", "catalog_class_targeted"].contains field.1)
    let actionType ← (textMember fields "action_type").bind LoopActionType.ofValue?
    let payload ←
      match Dict.lookup "payload" fields with
      | some (.object items) => some (Dict.ofItems items)
      | _ => none
    let rationale ← textMember fields "rationale"
    let confidence ←
      match Dict.lookup "confidence" fields with
      | some (.float value) => some value
      | _ => none
    let hypothesisId ← optionalMember fields "hypothesis_id"
    let catalogClassTargeted ← optionalMember fields "catalog_class_targeted"
    if h : validPayload actionType payload = true ∧
        50 ≤ rationale.length ∧ rationale.length ≤ 500 then
      some ⟨actionType, payload, rationale, confidence, hypothesisId, catalogClassTargeted, h.1, h.2⟩
    else none
  | _ => none

/-- A member that holds a text or `None` comes back. -/
theorem optionalMember_of_lookup {fields : List (String × Json)} {key : String}
    {text : Option String} (h : Dict.lookup key fields = some (text.elim .null .text)) :
    optionalMember fields key = some text := by
  rw [optionalMember, h]
  cases text <;> rfl

/-- An action is validated again from its dump. -/
theorem modelValidate_modelDump (action : ProposeAction) :
    ProposeAction.modelValidate action.modelDump = some action := by
  have hvalid := And.intro action.payload_valid action.rationale_length
  unfold ProposeAction.modelDump
  generalize hfields : [("action_type", Json.text action.actionType.value),
    ("payload", Json.object action.payload.items), ("rationale", Json.text action.rationale),
    ("confidence", Json.float action.confidence),
    ("hypothesis_id", action.hypothesisId.elim Json.null Json.text),
    ("catalog_class_targeted", action.catalogClassTargeted.elim Json.null Json.text)] = fields
  have hkeys : (fields.all fun field => ["action_type", "payload", "rationale", "confidence",
      "hypothesis_id", "catalog_class_targeted"].contains field.1) = true := by
    simp [← hfields]
  have htype : textMember fields "action_type" = some action.actionType.value := by
    simp [← hfields, textMember, Dict.lookup]
  have hpayload : Dict.lookup "payload" fields = some (.object action.payload.items) := by
    simp [← hfields, Dict.lookup]
  have hrationale : textMember fields "rationale" = some action.rationale := by
    simp [← hfields, textMember, Dict.lookup]
  have hconfidence : Dict.lookup "confidence" fields = some (.float action.confidence) := by
    simp [← hfields, Dict.lookup]
  have hhypothesis : optionalMember fields "hypothesis_id" = some action.hypothesisId :=
    optionalMember_of_lookup (by simp [← hfields, Dict.lookup])
  have hclass : optionalMember fields "catalog_class_targeted" =
      some action.catalogClassTargeted :=
    optionalMember_of_lookup (by simp [← hfields, Dict.lookup])
  simp only [ProposeAction.modelValidate, hkeys, htype, hpayload, hrationale, hconfidence,
    hhypothesis, hclass, guard, if_true, Option.bind_some, LoopActionType.ofValue?_value,
    Dict.ofItems_items, bind, pure]
  exact dif_pos hvalid

/-- `asdict` of a decision. -/
def LoopPolicyDecision.asdict (decision : LoopPolicyDecision) : Json :=
  .object
    [("verdict", .text decision.verdict), ("reason", .text decision.reason),
      ("deny_code", decision.denyCode.elim .null .text)]

/-- `PolicyDecision(**members)`: `none` when it raises. -/
def LoopPolicyDecision.ofMembers : Json → Option LoopPolicyDecision
  | .object fields => do
    guard (fields.all fun field => ["verdict", "reason", "deny_code"].contains field.1)
    let verdict ← textMember fields "verdict"
    let reason ← textMember fields "reason"
    let denyCode ← optionalMember fields "deny_code"
    pure ⟨verdict, reason, denyCode⟩
  | _ => none

theorem ofMembers_asdict (decision : LoopPolicyDecision) :
    LoopPolicyDecision.ofMembers decision.asdict = some decision := by
  have hcode : optionalMember [("verdict", .text decision.verdict), ("reason", .text decision.reason),
      ("deny_code", decision.denyCode.elim .null .text)] "deny_code" = some decision.denyCode :=
    optionalMember_of_lookup (by simp [Dict.lookup])
  rw [LoopPolicyDecision.asdict, LoopPolicyDecision.ofMembers, hcode]
  simp [textMember, Dict.lookup, guard]

/-! ## Records with time zones -/

/-- `LoopState` with the time zones of its datetimes, which are compared by their instants. -/
structure ZonedLoopState where
  state : LoopState
  startedAt : ZonedTime
  lastStepAt : Option ZonedTime
  pausedAt : Option ZonedTime
  resumedAt : Option ZonedTime
  startedAt_instant : startedAt.instant = state.startedAt
  lastStepAt_instant : lastStepAt.map ZonedTime.instant = state.lastStepAt
  pausedAt_instant : pausedAt.map ZonedTime.instant = state.pausedAt
  resumedAt_instant : resumedAt.map ZonedTime.instant = state.resumedAt

/-- `LoopStep` with the time zone of its timestamp. -/
structure ZonedLoopStep where
  step : LoopStep
  timestamp : ZonedTime
  timestamp_instant : timestamp.instant = step.timestamp

/-- `_aware`: what is read is taken to be in UTC. -/
def aware (value : Option ℤ) : Option ZonedTime := value.map ZonedTime.utc

theorem map_instant_aware (value : Option ℤ) : (aware value).map ZonedTime.instant = value := by
  cases value with
  | none => rfl
  | some value => simp [aware]

/-! ## Rows of loops -/

/-- `CoreReasoningLoop`; SQLite keeps the wall clocks of the datetimes. -/
structure CoreReasoningLoop where
  loopId : String
  assessmentId : String
  phase : String
  policySnapshot : String
  budgetState : Dict String ℤ
  contextHash : String
  catalogRequiredRemaining : List String
  catalogRequiredExecuted : List String
  consecutiveNoSignal : ℤ
  consecutivePolicyRejected : ℤ
  startedAt : ℤ
  lastStepAt : Option ℤ
  endedAt : Option ℤ
  pauseAttempts : ℤ
  pausedAt : Option ℤ
  resumedAt : Option ℤ
  correlationId : String

/-- `_derive_ended_at`. -/
def deriveEndedAt (zoned : ZonedLoopState) : Option ZonedTime :=
  if zoned.state.phase ∈ [LoopPhase.converged, .budgetExhausted, .policyBlocked, .emergencyStopped,
      .completed, .catalogFloorDone] then zoned.lastStepAt
  else none

/-- `_from_state`. -/
def fromState (zoned : ZonedLoopState) : CoreReasoningLoop where
  loopId := zoned.state.loopId.value
  assessmentId := zoned.state.assessmentId
  phase := zoned.state.phase.value
  policySnapshot := zoned.state.policySnapshot
  budgetState := budgetToJson zoned.state.budget
  contextHash := zoned.state.contextHash
  catalogRequiredRemaining := sorted zoned.state.catalogRequiredRemaining
  catalogRequiredExecuted := sorted zoned.state.catalogRequiredExecuted
  consecutiveNoSignal := zoned.state.consecutiveNoSignal
  consecutivePolicyRejected := zoned.state.consecutivePolicyRejected
  startedAt := zoned.startedAt.wall
  lastStepAt := zoned.lastStepAt.map ZonedTime.wall
  endedAt := (deriveEndedAt zoned).map ZonedTime.wall
  pauseAttempts := zoned.state.pauseAttempts
  pausedAt := zoned.pausedAt.map ZonedTime.wall
  resumedAt := zoned.resumedAt.map ZonedTime.wall
  correlationId := ""

/-- `_to_state`: `none` when a constructor raises. -/
def toState (row : CoreReasoningLoop) : Option ZonedLoopState := do
  let loopId ← LoopId.ofValue? row.loopId
  let phase ← LoopPhase.ofValue? row.phase
  let budget ← budgetFromJson row.budgetState
  pure
    { state :=
        { loopId := loopId
          assessmentId := row.assessmentId
          phase := phase
          policySnapshot := row.policySnapshot
          budget := budget
          contextHash := row.contextHash
          catalogRequiredRemaining := row.catalogRequiredRemaining.toFinset
          catalogRequiredExecuted := row.catalogRequiredExecuted.toFinset
          consecutiveNoSignal := row.consecutiveNoSignal
          consecutivePolicyRejected := row.consecutivePolicyRejected
          startedAt := row.startedAt
          lastStepAt := row.lastStepAt
          pauseAttempts := row.pauseAttempts
          pausedAt := row.pausedAt
          resumedAt := row.resumedAt }
      startedAt := .utc row.startedAt
      lastStepAt := aware row.lastStepAt
      pausedAt := aware row.pausedAt
      resumedAt := aware row.resumedAt
      startedAt_instant := ZonedTime.instant_utc _
      lastStepAt_instant := map_instant_aware _
      pausedAt_instant := map_instant_aware _
      resumedAt_instant := map_instant_aware _ }

/-- What comes back of the record of a loop: the wall clocks are read as UTC. -/
def ZonedLoopState.reread (zoned : ZonedLoopState) : ZonedLoopState where
  state :=
    { zoned.state with
      startedAt := zoned.startedAt.wall
      lastStepAt := zoned.lastStepAt.map ZonedTime.wall
      pausedAt := zoned.pausedAt.map ZonedTime.wall
      resumedAt := zoned.resumedAt.map ZonedTime.wall }
  startedAt := .utc zoned.startedAt.wall
  lastStepAt := aware (zoned.lastStepAt.map ZonedTime.wall)
  pausedAt := aware (zoned.pausedAt.map ZonedTime.wall)
  resumedAt := aware (zoned.resumedAt.map ZonedTime.wall)
  startedAt_instant := ZonedTime.instant_utc _
  lastStepAt_instant := map_instant_aware _
  pausedAt_instant := map_instant_aware _
  resumedAt_instant := map_instant_aware _

theorem toState_fromState (zoned : ZonedLoopState) : toState (fromState zoned) = some zoned.reread := by
  simp only [toState, fromState, LoopId.ofValue?_value, LoopPhase.ofValue?_value,
    budgetFromJson_toJson, sorted_toFinset, bind, pure, Option.bind_some]
  rfl

/-- Every datetime of the record is in UTC. -/
structure ZonedLoopState.InUtc (zoned : ZonedLoopState) : Prop where
  startedAt : zoned.startedAt.offset = 0
  lastStepAt : ∀ time ∈ zoned.lastStepAt, time.offset = 0
  pausedAt : ∀ time ∈ zoned.pausedAt, time.offset = 0
  resumedAt : ∀ time ∈ zoned.resumedAt, time.offset = 0

/-- **The record of a loop comes back equal when its datetimes are in UTC.** -/
theorem reread_state_iff {zoned : ZonedLoopState} :
    zoned.reread.state = zoned.state ↔ zoned.InUtc := by
  have hstarted := zoned.startedAt.wall_eq_instant_iff
  have hlast := ZonedTime.map_wall_eq_iff zoned.lastStepAt
  have hpaused := ZonedTime.map_wall_eq_iff zoned.pausedAt
  have hresumed := ZonedTime.map_wall_eq_iff zoned.resumedAt
  rw [zoned.startedAt_instant] at hstarted
  rw [zoned.lastStepAt_instant] at hlast
  rw [zoned.pausedAt_instant] at hpaused
  rw [zoned.resumedAt_instant] at hresumed
  constructor
  · -- Field by field: nothing but a datetime can differ.
    intro h
    exact ⟨hstarted.mp (congrArg LoopState.startedAt h), hlast.mp (congrArg LoopState.lastStepAt h),
      hpaused.mp (congrArg LoopState.pausedAt h), hresumed.mp (congrArg LoopState.resumedAt h)⟩
  · intro h
    show { zoned.state with
      startedAt := zoned.startedAt.wall
      lastStepAt := zoned.lastStepAt.map ZonedTime.wall
      pausedAt := zoned.pausedAt.map ZonedTime.wall
      resumedAt := zoned.resumedAt.map ZonedTime.wall } = zoned.state
    rw [hstarted.mpr h.startedAt, hlast.mpr h.lastStepAt, hpaused.mpr h.pausedAt,
      hresumed.mpr h.resumedAt]

/-! ## Rows of steps -/

/-- `CoreLoopStep`; SQLite keeps the wall clock of the timestamp. -/
structure CoreLoopStep where
  stepId : String
  loopId : String
  stepNumber : ℕ
  timestamp : ℤ
  contextHashBefore : String
  proposedAction : Json
  proposeTokensUsed : ℤ
  proposeLatencyMs : ℤ
  proposeRationale : Option String
  schemaCheckPassed : Bool
  policyDecision : Json
  permitId : Option String
  toolOrCaseId : Option String
  executionResult : Option String
  evidenceRefs : Option (List String)
  observationSignals : Option (List String)
  catalogClassMatched : Option (List String)
  oracleProgressed : Bool
  correlationId : String

/-- `_from_step`. -/
def fromStep (zoned : ZonedLoopStep) : CoreLoopStep where
  stepId := zoned.step.stepId
  loopId := zoned.step.loopId.value
  stepNumber := zoned.step.stepNumber
  timestamp := zoned.timestamp.wall
  contextHashBefore := zoned.step.contextHashBefore
  proposedAction := zoned.step.proposedAction.modelDump
  proposeTokensUsed := zoned.step.proposeTokensUsed
  proposeLatencyMs := zoned.step.proposeLatencyMs
  proposeRationale := some zoned.step.proposeRationale
  schemaCheckPassed := zoned.step.schemaCheckPassed
  policyDecision := zoned.step.policyDecision.asdict
  permitId := zoned.step.permitId
  toolOrCaseId := zoned.step.toolOrCaseId
  executionResult := some zoned.step.executionResultDigest
  evidenceRefs := some zoned.step.evidenceRefs
  observationSignals := some zoned.step.observationSignals
  catalogClassMatched := some (sorted zoned.step.catalogClassMatched)
  oracleProgressed := zoned.step.oracleProgressed
  correlationId := zoned.step.correlationId

/-- `_to_step`: `none` when a constructor raises. -/
def toStep (row : CoreLoopStep) : Option ZonedLoopStep := do
  let loopId ← LoopId.ofValue? row.loopId
  let proposedAction ← ProposeAction.modelValidate row.proposedAction
  let policyDecision ← LoopPolicyDecision.ofMembers row.policyDecision
  pure
    { step :=
        { stepId := row.stepId
          loopId := loopId
          stepNumber := row.stepNumber
          timestamp := row.timestamp
          contextHashBefore := row.contextHashBefore
          proposedAction := proposedAction
          proposeTokensUsed := row.proposeTokensUsed
          proposeLatencyMs := row.proposeLatencyMs
          proposeRationale := row.proposeRationale.getD ""
          schemaCheckPassed := row.schemaCheckPassed
          policyDecision := policyDecision
          permitId := row.permitId
          toolOrCaseId := row.toolOrCaseId
          executionResultDigest := row.executionResult.getD ""
          evidenceRefs := row.evidenceRefs.getD []
          observationSignals := row.observationSignals.getD []
          catalogClassMatched := (row.catalogClassMatched.getD []).toFinset
          oracleProgressed := row.oracleProgressed
          correlationId := row.correlationId }
      timestamp := .utc row.timestamp
      timestamp_instant := ZonedTime.instant_utc _ }

/-- What comes back of the record of a step: the wall clock is read as UTC. -/
def ZonedLoopStep.reread (zoned : ZonedLoopStep) : ZonedLoopStep where
  step := { zoned.step with timestamp := zoned.timestamp.wall }
  timestamp := .utc zoned.timestamp.wall
  timestamp_instant := ZonedTime.instant_utc _

theorem toStep_fromStep (zoned : ZonedLoopStep) : toStep (fromStep zoned) = some zoned.reread := by
  simp only [toStep, fromStep, LoopId.ofValue?_value, modelValidate_modelDump, ofMembers_asdict,
    sorted_toFinset, Option.getD_some, bind, pure, Option.bind_some]
  rfl

/-- **The record of a step comes back equal when its timestamp is in UTC.** -/
theorem reread_step_iff {zoned : ZonedLoopStep} :
    zoned.reread.step = zoned.step ↔ zoned.timestamp.offset = 0 := by
  have htime := zoned.timestamp.wall_eq_instant_iff
  rw [zoned.timestamp_instant] at htime
  constructor
  · exact fun h => htime.mp (congrArg LoopStep.timestamp h)
  · intro h
    show { zoned.step with timestamp := zoned.timestamp.wall } = zoned.step
    rw [htime.mpr h]

end SecOpent
