import SecOpent.ReasoningLoop.SchemaGate

/-!
# The references of an action

An action names tools, cases, peers, candidates and hypotheses, and the context says which of them there
are. The schema gate looks up the tool of a `RUN_TOOL` and the hypothesis of a `REQUEST_CHAIN`. What the
other fields name it does not look up.

## Main definitions

* `Reference`: the fields of an action that name something of the context
* `Reference.Known`: what the field names is there
* `Reference.lookedUp`: the gate looks up this field of an action of a type

## Main results

* `schemaGateCheck_passed_iff`: what the gate asks for
* `passed_references_known_iff`: when an action that passes refers to nothing that is not there
-/

namespace SecOpent

open Python

/-- The fields of an action that name something of the context: those of the payload, and the hypothesis
of the action itself. -/
inductive Reference
  | tool | case | peer | candidate | hypothesis | ownHypothesis
  deriving DecidableEq, Repr

namespace Reference

/-- What the field names. -/
def name? (action : ProposeAction) : Reference → Option String
  | .tool => action.toolId
  | .case => action.text? "case_id"
  | .peer => action.text? "peer_name"
  | .candidate => action.text? "candidate_id"
  | .hypothesis => action.text? "hypothesis_id"
  | .ownHypothesis => action.hypothesisId

/-- What there is for the field to name. -/
def allowed (context : LoopContext) : Reference → List String
  | .tool => context.availableTools.map AvailableCapability.capabilityId
  | .case => context.availableCases.map AvailableCapability.capabilityId
  | .peer => context.availablePeers
  | .candidate => context.unconfirmedCandidates
  | .hypothesis => context.chainHypothesesPending.map PendingHypothesis.hypothesisId
  | .ownHypothesis => context.chainHypothesesPending.map PendingHypothesis.hypothesisId

/-- What the field names is there. -/
def Known (action : ProposeAction) (context : LoopContext) (reference : Reference) : Prop :=
  ∀ name, reference.name? action = some name → name ∈ reference.allowed context

/-- The field names something, and that is there. -/
def Found (action : ProposeAction) (context : LoopContext) (reference : Reference) : Prop :=
  ∃ name, reference.name? action = some name ∧ name ∈ reference.allowed context

/-- The schema gate looks up this field of an action of the type. -/
def lookedUp : LoopActionType → Reference → Bool
  | .runTool, .tool => true
  | .requestChain, .hypothesis => true
  | _, _ => false

theorem Found.known {action : ProposeAction} {context : LoopContext} {reference : Reference}
    (h : reference.Found action context) : reference.Known action context := by
  obtain ⟨name, hname, hallowed⟩ := h
  intro name' hname'
  rw [hname] at hname'
  exact Option.some.inj hname' ▸ hallowed

end Reference

section Spec

variable {repr : Json → Str} {action : ProposeAction} {context : LoopContext}

theorem found_tool_iff :
    Reference.Found action context .tool ↔
      ¬∀ tool ∈ context.availableTools, action.toolId ≠ some tool.capabilityId := by
  push Not
  constructor
  · rintro ⟨name, hname, hallowed⟩
    obtain ⟨tool, htool, rfl⟩ := List.mem_map.mp hallowed
    exact ⟨tool, htool, hname⟩
  · rintro ⟨tool, htool, hname⟩
    exact ⟨_, hname, List.mem_map_of_mem htool⟩

theorem found_hypothesis_iff :
    Reference.Found action context .hypothesis ↔
      ¬∀ hypothesis ∈ context.chainHypothesesPending,
        action.text? "hypothesis_id" ≠ some hypothesis.hypothesisId := by
  push Not
  constructor
  · rintro ⟨name, hname, hallowed⟩
    obtain ⟨hypothesis, hmem, rfl⟩ := List.mem_map.mp hallowed
    exact ⟨hypothesis, hmem, hname⟩
  · rintro ⟨hypothesis, hmem, hname⟩
    exact ⟨_, hname, List.mem_map_of_mem hmem⟩

/-- **What the gate asks for**: the fields that it looks up name something that is there. -/
theorem schemaGateCheck_passed_iff :
    (schemaGateCheck repr action context).passed = true ↔
      ∀ reference, Reference.lookedUp action.actionType reference = true →
        reference.Found action context := by
  -- The tool is looked up first, and then the hypothesis.
  rw [schemaGateCheck]
  split
  next h =>
    refine iff_of_false Bool.false_ne_true fun hfound => ?_
    exact found_tool_iff.mp (hfound .tool (by rw [h.1]; rfl)) h.2
  next htool =>
    split
    next h =>
      refine iff_of_false Bool.false_ne_true fun hfound => ?_
      exact found_hypothesis_iff.mp (hfound .hypothesis (by rw [h.1]; rfl)) h.2
    next hchain =>
      refine iff_of_true rfl fun reference hlooked => ?_
      cases htype : action.actionType with
      | runTool =>
        rw [htype] at hlooked
        cases reference with
        | tool => exact found_tool_iff.mpr fun hnone => htool ⟨htype, hnone⟩
        | _ => cases hlooked
      | requestChain =>
        rw [htype] at hlooked
        cases reference with
        | hypothesis => exact found_hypothesis_iff.mpr fun hnone => hchain ⟨htype, hnone⟩
        | _ => cases hlooked
      -- Nothing is looked up.
      | runCase | requestPeer | requestOracle | abortStep =>
        rw [htype] at hlooked
        cases hlooked

end Spec

/-- **An action that passes the schema gate refers to nothing that is not there** exactly if a field
that the gate looks up names nothing that is there, so that the gate does not pass the action, or what
all the other fields name is there. -/
theorem passed_references_known_iff (repr : Json → Str) (action : ProposeAction)
    (context : LoopContext) :
    ((schemaGateCheck repr action context).passed = true →
        ∀ reference : Reference, reference.Known action context) ↔
      (∃ reference, Reference.lookedUp action.actionType reference = true ∧
        ¬reference.Found action context) ∨
      ∀ reference, Reference.lookedUp action.actionType reference = false →
        reference.Known action context := by
  rw [schemaGateCheck_passed_iff]
  constructor
  · intro h
    by_cases hfound : ∀ reference, Reference.lookedUp action.actionType reference = true →
        reference.Found action context
    · exact .inr fun reference _ => h hfound reference
    · push Not at hfound
      exact .inl hfound
  · rintro (⟨missing, hlooked, hnot⟩ | hothers) hfound reference
    · exact absurd (hfound missing hlooked) hnot
    · -- A field that is looked up was found.
      cases hlooked : Reference.lookedUp action.actionType reference with
      | true => exact (hfound reference hlooked).known
      | false => exact hothers reference hlooked

/-- A model asks a peer that there is not. -/
def unknownPeerAction : ProposeAction where
  actionType := .requestPeer
  payload := ⟨[("peer_name", .text "ghost"), ("instruction", .text "continue")],
    (by decide : ["peer_name", "instruction"].Nodup)⟩
  rationale := "another agent may know more about the session handling of this host"
  confidence := .zero
  payload_valid := rfl
  rationale_length := by decide

/-- The gate passes it, in a context without peers. -/
theorem unknown_peer_passes :
    (schemaGateCheck (fun _ => []) unknownPeerAction .blank).passed = true ∧
      ¬Reference.Known unknownPeerAction .blank .peer := by
  refine ⟨by decide +kernel, fun hknown => ?_⟩
  have hallowed := hknown "ghost" rfl
  cases hallowed

end SecOpent
