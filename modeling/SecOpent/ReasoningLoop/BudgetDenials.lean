import SecOpent.ReasoningLoop.TerminalPhases

/-!
# Steps that the budget gate denies

The gate denies a step that would reach a hard limit, before anything is proposed. The denial is
recorded as a step without tokens, and the phase that follows is decided from the budget that is then
used. So a loop that the gate denies for its next tokens goes on, unless its steps, its wall time or the
tokens that it already spent are at their limits.

## Main definitions

* `GateDenies`: the gate denies the step of a loop with the code `BUDGET_EXHAUSTED`
* `deniedState`: the record of the loop after it

## Main results

* `runStep_of_gateDenies`: what a denied step does
* `denied_step_exhausts_iff`: when a denied step leaves the loop exhausted
-/

namespace SecOpent

open Python Transition

/-- The gate is wired, is asked about a step of the loop, and denies it with `BUDGET_EXHAUSTED`. -/
structure GateDenies (orchestrator : ReasoningLoopOrchestrator) (answers : StepAnswers)
    (state : LoopState) : Prop where
  wired : orchestrator.budgetGate = true
  live : ¬state.phase.Terminal
  steps : state.phase ∉ LoopPhase.nonAutoStepPhases
  context : ∃ context, answers.context = .ok context
  denied : (budgetGateCheck state.budget mockStepTokens).passed = false
  code : (budgetGateCheck state.budget mockStepTokens).denyCode = some "BUDGET_EXHAUSTED"

/-- A hard limit of the budget is reached. -/
theorem exhausted_iff {budget : LoopBudget} :
    budget.exhausted = true ↔ budget.maxSteps ≤ budget.stepsUsed ∨
      budget.maxTotalTokens ≤ budget.tokensUsed ∨ budget.maxWallSeconds ≤ budget.wallSecondsUsed := by
  simp [LoopBudget.exhausted, or_assoc]

section Spec

variable {orchestrator : ReasoningLoopOrchestrator} {H : Sha256} {loopId : LoopId}
  {answers : StepAnswers} {state : LoopState}

/-- The record of a loop whose step was denied. -/
def deniedState (state : LoopState) (now : Time) : LoopState :=
  let counted := { state with
    budget := state.budget.consume 1 0 0
    consecutiveNoSignal := state.consecutiveNoSignal + 1
    consecutivePolicyRejected := 0
    lastStepAt := some now }
  { counted with phase := evaluateTermination counted .default }

/-- A placeholder without signals leaves the catalog of a loop as it is. -/
theorem afterStep_placeholder (H : Sha256) (loopId : LoopId) (answers : StepAnswers)
    (state : LoopState) (context : LoopContext) (action : Option ProposeAction)
    (schemaPassed policyPassed : Bool) (now : Time) :
    afterStep state (placeholderStep loopId H context action schemaPassed policyPassed answers) true
      now = deniedState state now := by
  simp [afterStep, LoopFeedback.apply, placeholderStep, bareStep, deniedState]

/-- The event of a loop that ends writes no record. -/
theorem recordTermination_spec (loopId : LoopId) (phase : LoopPhase) (terminatedBy : String × Json) :
    (recordTermination loopId phase terminatedBy).result = .ok () ∧
      ∀ saved, .save saved ∉ (recordTermination loopId phase terminatedBy).effects := by
  rw [recordTermination]
  split
  · refine ⟨rfl, fun saved hmem => ?_⟩
    cases List.mem_singleton.mp hmem
  · exact ⟨rfl, fun saved hmem => by cases hmem⟩

/-- The end of a step writes the record once. -/
theorem advance_eq (step : LoopStep) (passed : Bool) (now : Time) (terminatedBy : String × Json) :
    advance loopId state step passed now terminatedBy =
      ⟨.save (afterStep state step passed now) ::
          (recordTermination loopId (afterStep state step passed now).phase terminatedBy).effects,
        .ok (afterStep state step passed now).phase⟩ := by
  have hresult := (recordTermination_spec loopId (afterStep state step passed now).phase terminatedBy).1
  show (save (afterStep state step passed now) >>= fun _ =>
    recordTermination loopId (afterStep state step passed now).phase terminatedBy >>= fun _ =>
      pure (afterStep state step passed now).phase) = _
  rw [Acting.bind_of_ok hresult, Acting.bind_of_ok rfl]
  simp [save, Acting.effect]

/-- **What a denied step does**: it writes the record once, and answers the phase that it wrote. -/
theorem runStep_of_gateDenies (H : Sha256) (loopId : LoopId)
    (h : GateDenies orchestrator answers state) :
    (orchestrator.runStep H loopId answers (some state)).result =
        .ok ⟨loopId, (deniedState state answers.now).phase, none, 0⟩ ∧
      ∀ saved, .save saved ∈ (orchestrator.runStep H loopId answers (some state)).effects ↔
        saved = deniedState state answers.now := by
  obtain ⟨context, hcontext⟩ := h.context
  have hgate : (orchestrator.budgetGate && !(budgetGateCheck state.budget mockStepTokens).passed) =
      true := by rw [h.wired, h.denied]; rfl
  rw [ReasoningLoopOrchestrator.runStep, if_neg h.live, if_neg h.steps,
    ReasoningLoopOrchestrator.stepLoop, Acting.ofExcept_ok_bind hcontext]
  dsimp only
  -- The denial is recorded as a step with a placeholder for the action.
  rw [if_pos hgate, recordGateRejected, Acting.bind_of_ok rfl]
  dsimp only
  rw [advance_eq, Acting.bind_of_ok rfl]
  have hsaves := (recordTermination_spec loopId (deniedState state answers.now).phase
    ("via", .text "gate_rejected")).2
  have hafter := afterStep_placeholder H loopId answers state context (some budgetRejectedAction)
    ("budget" != "schema") ("budget" == "permit") answers.now
  have hpassed : ("budget" != "policy") = true := by decide
  rw [hpassed, hafter]
  refine ⟨rfl, fun saved => ?_⟩
  simp [record, Acting.effect, hsaves saved]

/-- The phase after a denied step: exhausted if a limit is reached with that step and without its
tokens, and otherwise the loop goes on or has converged. -/
theorem deniedState_phase (hlive : ¬state.phase.Terminal)
    (hauto : state.phase ∉ LoopPhase.nonAutoStepPhases) (now : Time) :
    (deniedState state now).phase =
      if (state.budget.consume 1 0 0).exhausted then .budgetExhausted
      else if
          state.consecutiveNoSignal + 1 ≥ LoopTerminationPolicy.default.noSignalStreakToConverge then
        .converged
      else .running := by
  -- A denial by the budget resets the streak of rejections.
  have hstreak : ¬(0 : ℤ) ≥ LoopTerminationPolicy.default.policyRejectedStreakToStop := by decide
  rw [deniedState]
  dsimp only
  rw [evaluateTermination, if_neg (LoopPhase.ne_emergencyStopped hlive),
    if_neg (LoopPhase.ne_paused hauto)]
  dsimp only
  rw [if_neg hstreak]

end Spec

/-- **A step that the gate denies leaves the loop exhausted** exactly if the step is the last one, or
the tokens already spent or the wall time are at their limits; if only the tokens of the denied step
would reach the limit, the loop runs on. -/
theorem denied_step_exhausts_iff (orchestrator : ReasoningLoopOrchestrator) (H : Sha256)
    (loopId : LoopId) (answers : StepAnswers) (state : LoopState)
    (h : GateDenies orchestrator answers state) :
    (∃ result, (orchestrator.runStep H loopId answers (some state)).result = .ok result ∧
        result.phase = .budgetExhausted ∧
        ∃ saved, .save saved ∈ (orchestrator.runStep H loopId answers (some state)).effects ∧
          saved.phase = .budgetExhausted) ↔
      state.budget.maxSteps ≤ state.budget.stepsUsed + 1 ∨
        state.budget.maxTotalTokens ≤ state.budget.tokensUsed ∨
        state.budget.maxWallSeconds ≤ state.budget.wallSecondsUsed := by
  obtain ⟨hresult, hsaves⟩ := runStep_of_gateDenies H loopId h
  have hphase := deniedState_phase h.live h.steps answers.now
  have hexhausted : (state.budget.consume 1 0 0).exhausted = true ↔
      state.budget.maxSteps ≤ state.budget.stepsUsed + 1 ∨
        state.budget.maxTotalTokens ≤ state.budget.tokensUsed ∨
        state.budget.maxWallSeconds ≤ state.budget.wallSecondsUsed := by
    rw [exhausted_iff]
    simp only [LoopBudget.consume, add_zero]
  have hended : (deniedState state answers.now).phase = .budgetExhausted ↔
      (state.budget.consume 1 0 0).exhausted = true := by
    rw [hphase]
    split
    next hlimit => exact iff_of_true rfl hlimit
    next hlimit =>
      -- Converged or running.
      refine iff_of_false ?_ hlimit
      split
      · decide
      · decide
  rw [← hexhausted, ← hended]
  constructor
  · rintro ⟨result, hok, hended, -⟩
    rw [hresult] at hok
    rw [← Except.ok.inj hok] at hended
    exact hended
  · intro hended
    exact ⟨_, hresult, hended, _, (hsaves _).mpr rfl, hended⟩

/-- A loop that spent all but fifty of its tokens. -/
def nearlySpentLoop : LoopState :=
  { newLoop with
    phase := .running
    budget := { LoopBudget.default with stepsUsed := 10, tokensUsed := 199950 } }

/-- An orchestrator with a budget gate. -/
def gatedOrchestrator : ReasoningLoopOrchestrator := { budgetGate := true }

/-- The next step would reach the limit on tokens. -/
theorem gateDenies_nearlySpentLoop : GateDenies gatedOrchestrator unavailableAnswers nearlySpentLoop :=
  ⟨rfl, by decide, by decide, ⟨_, rfl⟩, by decide, by decide⟩

/-- The gate denies the step with `BUDGET_EXHAUSTED`, and the loop runs on. -/
theorem denied_loop_runs :
    GateDenies gatedOrchestrator unavailableAnswers nearlySpentLoop ∧
      ∃ result, (gatedOrchestrator.runStep codeDigest nearlySpentLoop.loopId unavailableAnswers
        (some nearlySpentLoop)).result = .ok result ∧ result.phase = .running :=
  ⟨gateDenies_nearlySpentLoop, _, rfl, by decide +kernel⟩

theorem denied_step_exhausts_nearlySpentLoop :
    (∃ result, (gatedOrchestrator.runStep codeDigest nearlySpentLoop.loopId unavailableAnswers
        (some nearlySpentLoop)).result = .ok result ∧ result.phase = .budgetExhausted ∧
        ∃ saved, .save saved ∈ (gatedOrchestrator.runStep codeDigest nearlySpentLoop.loopId
            unavailableAnswers (some nearlySpentLoop)).effects ∧ saved.phase = .budgetExhausted) ↔
      nearlySpentLoop.budget.maxSteps ≤ nearlySpentLoop.budget.stepsUsed + 1 ∨
        nearlySpentLoop.budget.maxTotalTokens ≤ nearlySpentLoop.budget.tokensUsed ∨
        nearlySpentLoop.budget.maxWallSeconds ≤ nearlySpentLoop.budget.wallSecondsUsed :=
  denied_step_exhausts_iff _ _ _ _ _ gateDenies_nearlySpentLoop

end SecOpent
