import Mathlib.Data.Finset.Sort
import Mathlib.Data.String.Basic
import SecOpent.Audit.Events
import SecOpent.Python.Dict

/-!
# Proposed actions and their context

`domain/reasoning_loop/models.py`: what a proposer may answer, the context that it is given, and the
verdict of a gate on the answer. An action is validated when it is built, so an action with a payload
that does not fit its type does not exist. A context is identified by the digest of its canonical
JSON.

## Main definitions

* `LoopActionType`, `ProposeAction`
* `AvailableCapability`, `LoopContext`, `LoopContext.contextHash`
* `GateVerdict`
-/

namespace SecOpent

open Python

/-! ## Actions -/

/-- `LoopActionType`. -/
inductive LoopActionType
  | runTool | runCase | requestPeer | requestOracle | requestChain | abortStep
  deriving DecidableEq, Repr

/-- `LoopActionType.value`. -/
def LoopActionType.value : LoopActionType → String
  | .runTool => "run_tool"
  | .runCase => "run_case"
  | .requestPeer => "request_peer"
  | .requestOracle => "request_oracle"
  | .requestChain => "request_chain"
  | .abortStep => "abort_step"

/-- `required`, in `_validate_payload`. -/
def requiredPayloadKeys : LoopActionType → List String
  | .runTool => ["tool_id", "parameters"]
  | .runCase => ["case_id", "parameters"]
  | .requestPeer => ["peer_name", "instruction"]
  | .requestOracle => ["candidate_id"]
  | .requestChain => ["hypothesis_id"]
  | .abortStep => []

/-- The fields of `_ProposeActionPayload` that hold a text. -/
def payloadTexts : List String :=
  ["tool_id", "case_id", "peer_name", "instruction", "candidate_id", "hypothesis_id"]

/-- `_ProposeActionPayload` accepts this field; a field that is `None` is not shown to it. -/
def validPayloadField : String × Json → Bool
  | (_, .null) => true
  | (key, .text _) => payloadTexts.contains key
  | (key, .object _) => key == "parameters"
  | _ => false

/-- `_validate_payload` returns. -/
def validPayload (actionType : LoopActionType) (payload : Dict String Json) : Bool :=
  (requiredPayloadKeys actionType).all (fun key => (payload.get? key).isSome) &&
    payload.items.all validPayloadField

/-- The payload of a RUN_TOOL. -/
def runToolPayload (toolId : String) (parameters : List (String × Json)) : Dict String Json :=
  ⟨[("tool_id", .text toolId), ("parameters", .object parameters)],
    (by decide : ["tool_id", "parameters"].Nodup)⟩

/-- `ProposeAction`. A float is its text; that the confidence lies between 0 and 1 is left out. -/
structure ProposeAction where
  actionType : LoopActionType
  payload : Dict String Json
  rationale : String
  confidence : FloatRepr
  hypothesisId : Option String := none
  catalogClassTargeted : Option String := none
  payload_valid : validPayload actionType payload = true
  rationale_length : 50 ≤ rationale.length ∧ rationale.length ≤ 500

namespace ProposeAction

/-- `payload.get(key)`, for a field that holds a text. -/
def text? (action : ProposeAction) (key : String) : Option String :=
  match action.payload.get? key with
  | some (.text value) => some value
  | _ => none

/-- `tool_id`. -/
def toolId (action : ProposeAction) : Option String := action.text? "tool_id"

/-- `payload.get("parameters") or {}`. -/
def parameters (action : ProposeAction) : List (String × Json) :=
  match action.payload.get? "parameters" with
  | some (.object fields) => fields
  | _ => []

/-- `model_dump()`. -/
def modelDump (action : ProposeAction) : Json :=
  .object
    [("action_type", .text action.actionType.value),
      ("payload", .object action.payload.items),
      ("rationale", .text action.rationale),
      ("confidence", .float action.confidence),
      ("hypothesis_id", action.hypothesisId.elim .null .text),
      ("catalog_class_targeted", action.catalogClassTargeted.elim .null .text)]

/-- `x or y`, where an empty text is false. -/
def orText : Option String → String → String
  | some value, y => if value = "" then y else value
  | none, y => y

/-- `action.tool_id or action.payload.get("case_id") or "<unknown>"`, in the policy and the permit
gate. -/
def capability (action : ProposeAction) : String :=
  orText action.toolId (orText (action.text? "case_id") "<unknown>")

end ProposeAction

/-! ## Contexts -/

/-- `ObservationSummary`. -/
structure ObservationSummary where
  observationId : String
  toolOrCaseId : String
  targetDigest : String
  keySignals : List String
  confidence : FloatRepr
  hasFullText : Bool
  fullTextRef : Option String
  tokenEstimate : ℤ

/-- `AvailableCapability`. -/
structure AvailableCapability where
  capabilityId : String
  kind : String
  summary : String
  riskClass : String
  cwe : List String := []

/-- `PendingHypothesis`. -/
structure PendingHypothesis where
  hypothesisId : String
  description : String
  neededCwe : List String

/-- `HandbookSummary`. -/
structure HandbookSummary where
  id : String
  title : String
  attackSurface : List String
  reconEndpoints : List String
  payloadClasses : List String
  verificationHint : String

/-- `LoopBudgetSnapshot`. -/
structure LoopBudgetSnapshot where
  stepsRemaining : ℕ
  tokensRemaining : ℕ
  wallSecondsRemaining : ℕ

/-- `LoopContext`. -/
structure LoopContext where
  assetSubgraph : List String
  recentObservations : List ObservationSummary
  observationTokenCount : ℤ
  catalogAlreadyExecuted : Finset String
  catalogStillRequired : Finset String
  catalogFloorProgress : FloatRepr
  unconfirmedCandidates : List String
  confirmedFindingsRecent : List String
  chainHypothesesPending : List PendingHypothesis
  availableTools : List AvailableCapability
  availableCases : List AvailableCapability
  availablePeers : List String
  budgetRemaining : LoopBudgetSnapshot
  loopStep : ℤ
  maxSteps : ℤ
  elapsedSeconds : ℤ
  handbookHints : List HandbookSummary := []

/-- A list of texts. -/
def textsJson (texts : List String) : Json := .list (texts.map .text)

/-- An entry of `recent_observations`. -/
def ObservationSummary.json (o : ObservationSummary) : Json :=
  .object
    [("observation_id", .text o.observationId), ("tool_or_case_id", .text o.toolOrCaseId),
      ("target_digest", .text o.targetDigest), ("key_signals", textsJson o.keySignals),
      ("confidence", .float o.confidence), ("has_full_text", .bool o.hasFullText),
      ("full_text_ref", o.fullTextRef.elim .null .text), ("token_estimate", .int o.tokenEstimate)]

/-- An entry of `available_tools` and `available_cases`. -/
def AvailableCapability.json (c : AvailableCapability) : Json :=
  .object
    [("capability_id", .text c.capabilityId), ("kind", .text c.kind), ("summary", .text c.summary),
      ("risk_class", .text c.riskClass), ("cwe", textsJson c.cwe)]

/-- An entry of `chain_hypotheses_pending`. -/
def PendingHypothesis.json (h : PendingHypothesis) : Json :=
  .object
    [("hypothesis_id", .text h.hypothesisId), ("description", .text h.description),
      ("needed_cwe", textsJson h.neededCwe)]

/-- An entry of `handbook_hints`. -/
def HandbookSummary.json (h : HandbookSummary) : Json :=
  .object
    [("id", .text h.id), ("title", .text h.title), ("attack_surface", textsJson h.attackSurface),
      ("recon_endpoints", textsJson h.reconEndpoints),
      ("payload_classes", textsJson h.payloadClasses),
      ("verification_hint", .text h.verificationHint)]

/-- `budget_remaining`. -/
def LoopBudgetSnapshot.json (b : LoopBudgetSnapshot) : Json :=
  .object
    [("steps_remaining", .int b.stepsRemaining), ("tokens_remaining", .int b.tokensRemaining),
      ("wall_seconds_remaining", .int b.wallSecondsRemaining)]

namespace LoopContext

/-- `body`, in `context_hash`. -/
def body (context : LoopContext) : Json :=
  .object
    [("asset_subgraph", textsJson context.assetSubgraph),
      ("recent_observations", .list (context.recentObservations.map ObservationSummary.json)),
      ("observation_token_count", .int context.observationTokenCount),
      ("catalog_already_executed", textsJson (context.catalogAlreadyExecuted.sort (· ≤ ·))),
      ("catalog_still_required", textsJson (context.catalogStillRequired.sort (· ≤ ·))),
      ("catalog_floor_progress", .float context.catalogFloorProgress),
      ("unconfirmed_candidates", textsJson context.unconfirmedCandidates),
      ("confirmed_findings_recent", textsJson context.confirmedFindingsRecent),
      ("chain_hypotheses_pending",
        .list (context.chainHypothesesPending.map PendingHypothesis.json)),
      ("available_tools", .list (context.availableTools.map AvailableCapability.json)),
      ("available_cases", .list (context.availableCases.map AvailableCapability.json)),
      ("available_peers", textsJson context.availablePeers),
      ("handbook_hints", .list (context.handbookHints.map HandbookSummary.json)),
      ("budget_remaining", context.budgetRemaining.json),
      ("loop_step", .int context.loopStep),
      ("max_steps", .int context.maxSteps),
      ("elapsed_seconds", .int context.elapsedSeconds)]

/-- `context_hash`. -/
def contextHash (H : Sha256) (context : LoopContext) : Str := H.hexdigest context.body.dumps

end LoopContext

/-- A context in which nothing is known yet, with the whole budget. -/
def LoopContext.blank : LoopContext where
  assetSubgraph := []
  recentObservations := []
  observationTokenCount := 0
  catalogAlreadyExecuted := ∅
  catalogStillRequired := ∅
  catalogFloorProgress := .zero
  unconfirmedCandidates := []
  confirmedFindingsRecent := []
  chainHypothesesPending := []
  availableTools := []
  availableCases := []
  availablePeers := []
  budgetRemaining := ⟨50, 200000, 1800⟩
  loopStep := 0
  maxSteps := 50
  elapsedSeconds := 0

/-! ## Verdicts -/

/-- `GateVerdict`. -/
structure GateVerdict where
  passed : Bool
  reason : String
  denyCode : Option String := none
  permitId : Option String := none
  permitTtlSeconds : Option ℤ := none
  deriving DecidableEq, Repr

end SecOpent
