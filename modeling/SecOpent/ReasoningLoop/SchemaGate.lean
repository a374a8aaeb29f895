import SecOpent.ReasoningLoop.PolicyGate
import SecOpent.ReasoningLoop.TerminalPhases

/-!
# From the schema gate to the policy gate

`application/reasoning_loop/schema_gate.py`: the schema gate looks at the keys of a payload and at the
references to the context, and not into the parameters of a tool or a case. The policy gate reads the
target and the port from these, and the scope that it asks raises on a target that is no URL and on a
port that is none. What the policy gate raises ends the step: nothing is recorded, and no step is
taken from the budget.

## Main definitions

* `SchemaGate.check`
* `PolicyGate.Judges`: the scope can be asked about the action
* `AsksPolicyGate`, `RecordsStep`: a step that gets to the policy gate, and a step that is recorded

## Main results

* `check_returns_iff`: the actions on which the policy gate returns a verdict
* `policy_gate_returns_iff`: they are those whose step is recorded
-/

namespace SecOpent

open Python

/-! ## The schema gate -/

namespace ProposeAction

/-- The value of a payload field, where `None` and a key that is not there are the same. -/
def field (action : ProposeAction) (key : String) : Json := (action.payload.get? key).getD .null

end ProposeAction

/-- `SchemaGateImpl.check`, on a `ProposeAction`. Such an action was validated when it was built: the
keys that the gate looks for are there, and it is valid once more. Left are the references to the
context. -/
def schemaGateCheck (repr : Json → Str) (action : ProposeAction) (context : LoopContext) :
    GateVerdict :=
  if action.actionType = .runTool ∧
      ∀ tool ∈ context.availableTools, action.toolId ≠ some tool.capabilityId then
    { passed := false
      reason := "tool_id " ++ String.ofList (repr (action.field "tool_id")) ++
        " not in available_tools"
      denyCode := some "SCHEMA_UNKNOWN_TOOL" }
  else if action.actionType = .requestChain ∧
      ∀ hypothesis ∈ context.chainHypothesesPending,
        action.text? "hypothesis_id" ≠ some hypothesis.hypothesisId then
    { passed := false
      reason := "hypothesis_id " ++ String.ofList (repr (action.field "hypothesis_id")) ++
        " not pending"
      denyCode := some "SCHEMA_UNKNOWN_HYPOTHESIS" }
  else { passed := true, reason := "schema_ok" }

/-! ## Verdicts of the policy gate -/

/-- The port is one that a scope can be asked about. -/
def PortValue.Valid : PortValue → Prop
  | .bool _ => False
  | .int port => 1 ≤ port ∧ port ≤ 65535

/-- The port is one of the scope. -/
def PortValue.InScope (scope : ScopeSnapshot) : PortValue → Prop
  | .bool _ => False
  | .int port => port ∈ scope.ports

/-- The scope has an answer about the action: the action names the class that is always denied, or its
port is a port, and one that the scope denies or its target one on which `includes_url` returns. -/
def PolicyGate.Judges (U : Unicode) (repr : Json → Str) (gate : PolicyGate)
    (action : ProposeAction) : Prop :=
  action.claimedRisk = .destructive ∨
    action.port.Valid ∧ (¬action.port.InScope gate.scope ∨
      ∃ included, gate.scope.includesUrl U (strOf repr action.target) = .ok included)

/-- An exception of the policy gate, as it leaves the step. -/
def PyError.leaves : PyError → LoopError
  | .domainValidation message => .raised message
  | .valueError => .raised "ValueError"

/-- The step gets to the policy gate: the loop steps, and the budget gate and the schema gate pass.
The other collaborators answer. -/
structure AsksPolicyGate (U : Unicode) (repr : Json → Str) (gate : PolicyGate)
    (action : ProposeAction) (context : LoopContext) (orchestrator : ReasoningLoopOrchestrator)
    (state : LoopState) (answers : StepAnswers) : Prop where
  live : ¬state.phase.Terminal
  auto : state.phase ∉ LoopPhase.nonAutoStepPhases
  budget : ¬(orchestrator.budgetGate && !(budgetGateCheck state.budget mockStepTokens).passed) = true
  built : answers.context = .ok context
  proposed : answers.proposed = .ok (some action)
  schema : answers.schemaVerdict = .ok (schemaGateCheck repr action context)
  policy : answers.policyVerdict = (gate.check U repr action context).mapError PyError.leaves
  permit : ∃ permit, answers.permitVerdict = .ok permit
  oracle : OracleAnswers orchestrator action answers

/-- The step returns, and the record that it saves has one more step in its budget. -/
def RecordsStep (state : LoopState) (x : LoopActing StepResult) : Prop :=
  (∃ result, x.result = .ok result) ∧
    ∃ saved, .save saved ∈ x.effects ∧ saved.budget.stepsUsed = state.budget.stepsUsed + 1

section Spec

variable {U : Unicode} {repr : Json → Str} {gate : PolicyGate} {action : ProposeAction}
  {context : LoopContext} {orchestrator : ReasoningLoopOrchestrator} {H : Sha256} {loopId : LoopId}
  {state : LoopState} {answers : StepAnswers}

theorem PortValue.included_of_valid {port : PortValue} (scope : ScopeSnapshot) (h : port.Valid) :
    ∃ included, port.included scope = .ok included ∧ (included = true ↔ port.InScope scope) := by
  cases port with
  | bool value => exact h.elim
  | int port =>
    refine ⟨decide (port ∈ scope.ports), ?_, decide_eq_true_iff⟩
    have hport : 1 ≤ port ∧ port ≤ 65535 := h
    rw [PortValue.included, ScopeSnapshot.includesPort, normalizePort, if_pos hport]
    rfl

theorem PortValue.valid_of_included {port : PortValue} {scope : ScopeSnapshot} {included : Bool}
    (h : port.included scope = .ok included) : port.Valid := by
  cases port with
  | bool value => cases h
  | int port =>
    rw [PortValue.included, ScopeSnapshot.includesPort, normalizePort] at h
    by_cases hport : 1 ≤ port ∧ port ≤ 65535
    · exact hport
    · rw [if_neg hport] at h
      cases h

/-- The requests on which the policy engine returns a decision. -/
theorem evaluate_returns_iff {request : ActionRequest} {scope : ScopeSnapshot} {mode : ExecutionMode}
    {approvedRisks : Finset RiskClass} {approvedCapabilities : Finset String} :
    (∃ decision, evaluate U request scope mode approvedRisks approvedCapabilities = .ok decision) ↔
      request.risk = .destructive ∨ request.port.Valid ∧ (¬request.port.InScope scope ∨
        ∃ included, scope.includesUrl U request.target = .ok included) := by
  unfold evaluate
  by_cases hrisk : request.risk = .destructive
  · rw [if_pos hrisk]
    exact ⟨fun _ => .inl hrisk, fun _ => ⟨_, rfl⟩⟩
  rw [if_neg hrisk]
  cases hport : request.port.included scope with
  | error error =>
    have hvalid : ¬request.port.Valid := by
      intro hvalid
      obtain ⟨included, hincluded, -⟩ := PortValue.included_of_valid scope hvalid
      rw [hport] at hincluded
      cases hincluded
    constructor
    · rintro ⟨decision, h⟩
      cases h
    · rintro (h | h)
      · exact absurd h hrisk
      · exact absurd h.1 hvalid
  | ok included =>
    have hvalid := PortValue.valid_of_included hport
    obtain ⟨included', hincluded', hscope⟩ := PortValue.included_of_valid scope hvalid
    rw [hport] at hincluded'
    cases hincluded'
    cases included with
    | false =>
      have hout : ¬request.port.InScope scope := fun h => by cases hscope.mpr h
      exact ⟨fun _ => .inr ⟨hvalid, .inl hout⟩, fun _ => ⟨_, rfl⟩⟩
    | true =>
      have hin : request.port.InScope scope := hscope.mp rfl
      cases hurl : scope.includesUrl U request.target with
      | error error =>
        constructor
        · rintro ⟨decision, h⟩
          cases h
        · rintro (h | ⟨-, h | ⟨included, h⟩⟩)
          · exact absurd h hrisk
          · exact absurd hin h
          · cases h
      | ok included =>
        refine ⟨fun _ => .inr ⟨hvalid, .inr ⟨included, rfl⟩⟩, fun _ => ?_⟩
        cases included with
        | false => exact ⟨_, rfl⟩
        | true => exact ⟨_, rfl⟩

/-- **The actions on which the policy gate returns a verdict.** -/
theorem check_returns_iff :
    (∃ verdict, gate.check U repr action context = .ok verdict) ↔ gate.Judges U repr action := by
  have hevaluate : (∃ verdict, gate.check U repr action context = .ok verdict) ↔
      ∃ decision, evaluate U (action.request repr) gate.scope gate.mode gate.approvedRisks
        gate.approvedCapabilities = .ok decision := by
    unfold PolicyGate.check
    cases evaluate U (action.request repr) gate.scope gate.mode gate.approvedRisks
        gate.approvedCapabilities with
    | error error => simp [bind, Except.bind]
    | ok decision =>
      refine ⟨fun _ => ⟨decision, rfl⟩, fun _ => ?_⟩
      cases hallowed : decision.allowed with
      | true => exact ⟨{ passed := true, reason := decision.reason }, by
          simp [bind, Except.bind, hallowed, pure, Except.pure]⟩
      | false =>
        exact ⟨{ passed := false, reason := decision.reason, denyCode := some decision.reason }, by
          simp [bind, Except.bind, hallowed, pure, Except.pure]⟩
  rw [hevaluate, evaluate_returns_iff]
  rfl

/-- A step that gets to the policy gate writes if the gate returns a verdict. -/
theorem AsksPolicyGate.writesIf
    (h : AsksPolicyGate U repr gate action context orchestrator state answers)
    (hschema : (schemaGateCheck repr action context).passed = true) :
    WritesIf (gate.Judges U repr action)
      (orchestrator.runStep H loopId answers (some state)) := by
  refine runStep_writesIf.congr ?_
  have hjudges : (∃ verdict, gate.check U repr action context = .ok verdict) ↔
      gate.Judges U repr action := check_returns_iff
  rw [← hjudges]
  constructor
  · rintro ⟨found, hfound, -, -, context', hcontext, hgates⟩
    cases hfound
    obtain ⟨proposed, hproposed, hgates⟩ := hgates h.budget
    rw [h.proposed] at hproposed
    cases hproposed
    obtain ⟨sv, hsv, hgates⟩ := hgates action rfl
    rw [h.schema] at hsv
    cases hsv
    obtain ⟨pv, hpv, -⟩ := hgates hschema
    rw [h.policy] at hpv
    cases hcheck : gate.check U repr action context with
    | ok verdict => exact ⟨verdict, rfl⟩
    | error error =>
      rw [hcheck] at hpv
      cases hpv
  · rintro ⟨verdict, hverdict⟩
    refine ⟨state, rfl, h.live, h.auto, context, h.built, fun _ => ⟨_, h.proposed, ?_⟩⟩
    rintro _ ⟨⟩
    refine ⟨_, h.schema, fun _ => ⟨verdict, by rw [h.policy, hverdict]; rfl, fun _ => ?_⟩⟩
    obtain ⟨permit, hpermit⟩ := h.permit
    exact ⟨permit, hpermit, fun _ => h.oracle⟩

/-- **The policy gate after the schema gate**: on an action that passes the schema gate it returns a
verdict, and the step on the action is recorded, exactly if the scope has an answer about it. -/
theorem policy_gate_returns_iff (U : Unicode) (repr : Json → Str) (gate : PolicyGate)
    (action : ProposeAction) (context : LoopContext)
    (hschema : (schemaGateCheck repr action context).passed = true) :
    ((∃ verdict, gate.check U repr action context = .ok verdict) ↔ gate.Judges U repr action) ∧
      ∀ orchestrator H loopId state answers,
        AsksPolicyGate U repr gate action context orchestrator state answers →
          (RecordsStep state (orchestrator.runStep H loopId answers (some state)) ↔
            gate.Judges U repr action) ∧
          (¬gate.Judges U repr action →
            (orchestrator.runStep H loopId answers (some state)).effects = []) := by
  refine ⟨check_returns_iff, fun orchestrator H loopId state answers hasks => ?_⟩
  have hwrites : WritesIf (gate.Judges U repr action)
      (orchestrator.runStep H loopId answers (some state)) := hasks.writesIf hschema
  refine ⟨⟨?_, fun hjudges => ?_⟩, hwrites.2⟩
  · rintro ⟨-, saved, hsaved, -⟩
    by_contra hnot
    rw [hwrites.2 hnot] at hsaved
    cases hsaved
  · obtain ⟨hresult, saved, hsaved⟩ := hwrites.1 hjudges
    obtain ⟨found, hfound, -, -, step, passed, -, rfl⟩ := runStep_saves_stepped _ hsaved saved rfl
    cases hfound
    exact ⟨hresult, _, hsaved, rfl⟩

end Spec

/-! ### A target that is no URL -/

/-- A gate that approves the tool and its class, in a scope of the ports 80 and 443. -/
def exploitGate : PolicyGate :=
  { lowRiskGate with
    scope := { lowRiskGate.scope with ports := [80, 443] }
    approvedRisks := {.low, .active}
    approvedCapabilities := {"exploit"} }

/-- The answers of a step on the action. -/
def exploitAnswers (action : ProposeAction) : StepAnswers :=
  { unavailableAnswers with
    context := .ok exploitContext
    proposed := .ok (some action)
    schemaVerdict := .ok (schemaGateCheck (fun _ => []) action exploitContext)
    policyVerdict :=
      (exploitGate.check .ascii (fun _ => []) action exploitContext).mapError PyError.leaves
    permitVerdict := .ok { passed := true, reason := "permit_ok" } }

/-- The parameters of some tools: none at all, a bare host, a port that is a truth value and a port
that is none. -/
def strayParameters : List (List (String × Json)) :=
  [[], [("host", .text "192.0.2.7")], [("url", .text "http://192.0.2.7/"), ("port", .bool true)],
    [("url", .text "http://192.0.2.7/"), ("port", .int 70000)]]

/-- All of these pass the schema gate, and the step ends in an exception of the policy gate. -/
theorem stray_parameters_raise :
    ∀ parameters ∈ strayParameters,
      (schemaGateCheck (fun _ => []) (exploitAction parameters) exploitContext).passed = true ∧
      (∀ verdict, exploitGate.check .ascii (fun _ => []) (exploitAction parameters) exploitContext ≠
        .ok verdict) ∧
      ¬RecordsStep newLoop (({} : ReasoningLoopOrchestrator).runStep codeDigest newLoop.loopId
        (exploitAnswers (exploitAction parameters)) (some newLoop)) := by
  have hraises : ∀ parameters ∈ strayParameters,
      (schemaGateCheck (fun _ => []) (exploitAction parameters) exploitContext).passed = true ∧
      (exploitGate.check .ascii (fun _ => []) (exploitAction parameters)
        exploitContext).toOption = none ∧
      (({} : ReasoningLoopOrchestrator).runStep codeDigest newLoop.loopId
        (exploitAnswers (exploitAction parameters)) (some newLoop)).effects.isEmpty = true := by
    decide +kernel
  intro parameters hparameters
  obtain ⟨hschema, hcheck, heffects⟩ := hraises parameters hparameters
  refine ⟨hschema, fun verdict h => ?_, ?_⟩
  · rw [h] at hcheck
    cases hcheck
  · rintro ⟨-, saved, hsaved, -⟩
    rw [List.isEmpty_iff.mp heffects] at hsaved
    cases hsaved

/-- A tool that is to run without any parameter passes the schema gate, and the step ends in an
exception. -/
theorem bare_run_tool_raises :
    (schemaGateCheck (fun _ => []) (exploitAction []) exploitContext).passed = true ∧
      ¬(∃ verdict, exploitGate.check .ascii (fun _ => []) (exploitAction []) exploitContext =
        .ok verdict) ∧
      ¬RecordsStep newLoop (({} : ReasoningLoopOrchestrator).runStep codeDigest newLoop.loopId
        (exploitAnswers (exploitAction [])) (some newLoop)) := by
  obtain ⟨hschema, hraises, hrecords⟩ := stray_parameters_raise [] (by simp [strayParameters])
  exact ⟨hschema, fun ⟨verdict, h⟩ => hraises verdict h, hrecords⟩

/-- An action with a URL is judged. -/
theorem low_exploit_judged :
    ∃ verdict, exploitGate.check .ascii (fun _ => []) lowExploit exploitContext = .ok verdict :=
  (policy_gate_returns_iff .ascii (fun _ => []) exploitGate lowExploit exploitContext
    (by decide)).1.mpr (.inr ⟨(by decide : 1 ≤ (80 : ℤ) ∧ (80 : ℤ) ≤ 65535),
      .inr ⟨true, by decide +kernel⟩⟩)

end SecOpent
