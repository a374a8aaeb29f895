import SecOpent.ReasoningLoop.BudgetDenials
import SecOpent.ReasoningLoop.SchemaGate
import SecOpent.ReasoningLoop.StepBudget

/-!
# Streaks of policy rejections

A loop is blocked when the policy gate has rejected its proposals several times in a row. A step that
does not get to the policy gate should leave the streak as it is, but the feedback knows only two kinds
of steps, and takes every step that the policy gate did not reject for one that it passed. So a budget
denial, a proposer that is not available and a malformed proposal reset the streak, and a proposer that
alternates between rejected and malformed proposals is never blocked.

## Main definitions

* `StepExit`: where a step ends, as the policy gate sees it
* `StreakCount`: the repositories, and the policy rejections since the last step that the gate passed
* `Accumulates`: the record counts them, and a loop with enough of them has ended

## Main results

* `runStep_saves_streak`: the streak that a step writes
* `rejections_accumulate_iff`: when policy rejections accumulate
-/

namespace SecOpent

open Python Transition

/-- Where a step ends: before the policy gate, by its rejection, or after it passed. -/
inductive StepExit
  | beforePolicyGate
  | policyRejected
  | policyPassed
  deriving DecidableEq

/-- Where the step of a loop ends, when nothing that it asks raises. -/
def StepAnswers.exit (answers : StepAnswers) (orchestrator : ReasoningLoopOrchestrator)
    (state : LoopState) : StepExit :=
  if orchestrator.budgetGate && !(budgetGateCheck state.budget mockStepTokens).passed then
    .beforePolicyGate
  else if !(answers.proposed matches .ok (some _)) then .beforePolicyGate
  else if !passes answers.schemaVerdict then .beforePolicyGate
  else if !passes answers.policyVerdict then .policyRejected
  else .policyPassed

/-- The streak that should follow: only a rejection adds to it, and only a pass resets it. -/
def StepExit.streak (streak : ℤ) : StepExit → ℤ
  | .beforePolicyGate => streak
  | .policyRejected => streak + 1
  | .policyPassed => 0

/-- The repositories, and the policy rejections of the loop since the last step that passed the policy
gate. -/
structure StreakCount where
  store : LoopStore
  rejections : ℤ := 0

variable (d : LoopDeployment) (H : Sha256)

/-- Where the step that a call takes ends. -/
def LoopDeployment.exitOf (store : LoopStore) (call : LoopCall) : StepExit :=
  match call.op, store.get? call.loopId with
  | .runStep answers, some state => answers.exit d.orchestrator state
  | _, _ => .beforePolicyGate

/-- One call. -/
def StreakCount.step (loopId : LoopId) (w : StreakCount) (call : LoopCall) : Option StreakCount :=
  some
    ⟨w.store.perform call.session call.accepts (d.acting H w.store call),
      if takesStep d H loopId w.store call then (d.exitOf w.store call).streak w.rejections
      else w.rejections⟩

/-- The record of the loop counts the rejections, and a loop with enough of them has ended. -/
def Accumulates (loopId : LoopId) (w : StreakCount) : Prop :=
  ∃ state, w.store.get? loopId = some state ∧ state.consecutivePolicyRejected = w.rejections ∧
    (LoopTerminationPolicy.default.policyRejectedStreakToStop ≤ w.rejections → state.phase.Terminal)

/-- A step that goes through and ends before the policy gate finds no streak. -/
def NoStreakToLose (loopId : LoopId) (w : StreakCount) (call : LoopCall) : Prop :=
  ∀ answers state, call.op = .runStep answers → w.store.get? loopId = some state →
    StepGoesThrough d H loopId w.store call →
    answers.exit d.orchestrator state = .beforePolicyGate → state.consecutivePolicyRejected = 0

section Spec

variable {d} {H} {loopId : LoopId} {store : LoopStore} {call : LoopCall} {answers : StepAnswers}
  {state saved start : LoopState} {w w' : StreakCount} {now : Time} {read : Option LoopState}
  {orchestrator : ReasoningLoopOrchestrator}

/-! ## One step -/

/-- The streak that a step writes: whatever the policy gate did not reject resets it. -/
def StreakWritten (passed : Bool) (state saved : LoopState) : Prop :=
  saved.consecutivePolicyRejected = if passed then 0 else state.consecutivePolicyRejected + 1

theorem advance_saves_streak {step : LoopStep} {passed : Bool} {terminatedBy : String × Json} :
    Saves (StreakWritten passed state) (advance loopId state step passed now terminatedBy) := by
  rw [advance_eq]
  intro e he saved heq
  subst heq
  rcases List.mem_cons.mp he with heq | he
  · obtain rfl := LoopEffect.save.inj heq
    rfl
  · exact absurd he ((recordTermination_spec _ _ _).2 saved)

theorem recordGateRejected_saves_streak {context : LoopContext} {proposed : ProposeAction}
    {gateName denyCode reason : String} {passed : Bool} (h : (gateName != "policy") = passed) :
    Saves (StreakWritten passed state)
      (recordGateRejected H loopId state context proposed gateName denyCode reason answers) := by
  subst h
  refine (Saves.record _ _ _ _).bind fun _ _ => ?_
  exact Saves.bind advance_saves_streak fun _ _ => Acting.Only.pure _

theorem executeAndAdvance_saves_streak {context : LoopContext} {proposed : ProposeAction}
    {permitId : String} :
    Saves (StreakWritten true state)
      (orchestrator.executeAndAdvance H loopId state context proposed permitId answers) := by
  refine Saves.bind executeStep_only fun step _ => ?_
  refine (Saves.addStep step).bind fun _ _ => Saves.bind ?_ fun _ _ => ?_
  · exact (Saves.record _ _ _ _).bind fun _ _ => Saves.record _ _ _ _
  · exact Saves.bind advance_saves_streak fun _ _ => Acting.Only.pure _

/-- **The streak that a step writes**: one more after a policy rejection, and zero otherwise. -/
theorem runStep_saves_streak :
    Saves (fun saved => ∃ state, read = some state ∧
        StreakWritten (answers.exit orchestrator state ≠ .policyRejected) state saved)
      (orchestrator.runStep H loopId answers read) := by
  refine runStep_only fun state hread _ _ => ?_
  refine Saves.mono ?_ fun saved hsaved => ⟨state, hread, hsaved⟩
  refine Saves.bind (Acting.Only.ofExcept _) fun context _ => ?_
  unfold StepAnswers.exit
  refine Saves.ite (fun hbudget => ?_) fun hbudget => ?_
  · simpa [hbudget] using recordGateRejected_saves_streak (by decide)
  refine Saves.bind (Acting.Only.ofExcept _) fun proposed hproposed => ?_
  rw [Acting.ofExcept_result] at hproposed
  cases proposed with
  | none =>
    simp only [if_neg hbudget, hproposed]
    exact (Saves.record _ _ _ _).bind fun _ _ =>
      Saves.bind advance_saves_streak fun _ _ => Acting.Only.pure _
  | some proposed =>
    simp only [if_neg hbudget, hproposed]
    refine Saves.bind (Acting.Only.ofExcept _) fun sv hsv => ?_
    rw [Acting.ofExcept_result] at hsv
    refine Saves.ite (fun hdenied => ?_) fun hschema => ?_
    · simpa [hsv, passes, hdenied] using recordGateRejected_saves_streak (by decide)
    refine Saves.bind (Acting.Only.ofExcept _) fun pv hpv => ?_
    rw [Acting.ofExcept_result] at hpv
    refine Saves.ite (fun hdenied => ?_) fun hpolicy => ?_
    · simpa [hsv, hpv, passes, hschema, hdenied] using recordGateRejected_saves_streak (by decide)
    -- The policy gate has passed, whatever the permit gate says.
    refine Saves.bind (Acting.Only.ofExcept _) fun permit _ => Saves.ite (fun _ => ?_) fun _ => ?_
    · simpa [hsv, hpv, passes, hschema, hpolicy] using recordGateRejected_saves_streak (by decide)
    · simpa [hsv, hpv, passes, hschema, hpolicy] using executeAndAdvance_saves_streak

/-- A streak that is long enough ends the loop. -/
theorem SteppedWith.dead_of_streak {tokens : ℤ} (hstopped : state.phase ≠ .emergencyStopped)
    (hpaused : state.phase ≠ .paused) (h : SteppedWith tokens now state saved)
    (hstreak : LoopTerminationPolicy.default.policyRejectedStreakToStop ≤
      saved.consecutivePolicyRejected) : saved.phase ∈ deadPhases := by
  obtain ⟨step, passed, -, rfl⟩ := h
  have hreached : (LoopFeedback.apply state step passed step.observationSignals.length
      now).consecutivePolicyRejected ≥ LoopTerminationPolicy.default.policyRejectedStreakToStop :=
    hstreak
  simp only [afterStep, evaluateTermination]
  rw [if_neg (by exact hstopped), if_neg (by exact hpaused), if_pos hreached]
  -- The budget is asked about first.
  split
  · decide
  · decide

/-- A call that takes a step writes the streak after it, and ends a loop whose streak is long enough. -/
theorem streak_of_takesStep (h : takesStep d H loopId store call = true) :
    ∃ answers state saved, call.op = .runStep answers ∧ call.loopId = loopId ∧
      store.get? loopId = some state ∧
      (store.perform call.session call.accepts (d.acting H store call)).get? loopId = some saved ∧
      StreakWritten (answers.exit d.orchestrator state ≠ .policyRejected) state saved ∧
      (LoopTerminationPolicy.default.policyRejectedStreakToStop ≤ saved.consecutivePolicyRejected →
        saved.phase ∈ deadPhases) := by
  obtain ⟨answers, state, -, hop, hread, -⟩ := of_takesStep h
  simp only [takesStep, Bool.and_eq_true, decide_eq_true_eq] at h
  obtain ⟨⟨rfl, -⟩, hsaves⟩ := h
  obtain ⟨saved, hsaved, hget⟩ :=
    get?_perform_of_save hread (acting_saves hread) (any_isSave_iff.mp hsaves)
  rw [LoopDeployment.acting, hop, hread] at hsaved
  obtain ⟨found, hfound, hstreak⟩ := runStep_saves_streak _ hsaved saved rfl
  obtain rfl := Option.some.inj hfound
  obtain ⟨found, hfound, hlive, hauto, hstepped⟩ := runStep_saves_stepped _ hsaved saved rfl
  obtain rfl := Option.some.inj hfound
  exact ⟨answers, state, saved, hop, rfl, hread, hget, hstreak,
    hstepped.dead_of_streak (LoopPhase.ne_emergencyStopped hlive) (LoopPhase.ne_paused hauto)⟩

/-- What is no step of a loop leaves its streak. -/
theorem act_leavesStreak {op : LoopOp} (hop : op.isRunStep = false) :
    Saves (fun saved => ∃ state, read = some state ∧
        saved.consecutivePolicyRejected = state.consecutivePolicyRejected)
      (d.act H loopId read op) := by
  cases op with
  | runStep answers => cases hop
  | pause actor reason actorRole now =>
    refine Saves.mono PauseControl.pause_saves fun saved h => ?_
    obtain ⟨state, hstate, -, -, -, rfl⟩ := h
    exact ⟨state, hstate, rfl⟩
  | resume request now =>
    refine Saves.mono PauseControl.resume_saves fun saved h => ?_
    obtain ⟨state, hstate, -, -, rfl⟩ := h
    exact ⟨state, hstate, rfl⟩
  | resumeLoop request now =>
    refine Saves.mono resumeLoop_saves fun saved h => ?_
    rcases h with ⟨-, state, -, hstate, -, -, rfl⟩ | ⟨state, hstate, rfl⟩
    · exact ⟨state, hstate, rfl⟩
    · exact ⟨state, hstate, rfl⟩
  | emergencyStop actor reason now =>
    refine Saves.mono emergencyStop_saves fun saved h => ?_
    obtain ⟨state, hstate, -, rfl⟩ := h
    exact ⟨state, hstate, rfl⟩

/-- A call that takes no step of the loop leaves its streak, and a dead loop dead. -/
theorem streak_of_not_takesStep (hread : store.get? loopId = some state)
    (h : takesStep d H loopId store call = false) :
    ∃ saved, (store.perform call.session call.accepts (d.acting H store call)).get? loopId =
        some saved ∧
      saved.consecutivePolicyRejected = state.consecutivePolicyRejected ∧
      (state.phase ∈ deadPhases → saved.phase ∈ deadPhases) := by
  obtain ⟨saved, hget, hsaved⟩ := of_not_takesStep hread h
  rcases hsaved with rfl | ⟨rfl, hleaves, hdone⟩
  · exact ⟨saved, hget, rfl, id⟩
  · have hop : call.op.isRunStep = false := by
      have hany := any_isSave_iff.mpr ⟨saved, hdone⟩
      simpa [takesStep, hany] using h
    obtain ⟨found, hfound, hstreak⟩ :=
      act_leavesStreak hop _ (LoopStore.mem_of_mem_carriedOut hdone) saved rfl
    rw [hread] at hfound
    obtain rfl := Option.some.inj hfound
    exact ⟨saved, hget, hstreak, hleaves.dead⟩

/-! ## Runs -/

/-- The record counts the rejections, and a loop with enough of them is dead. -/
def DeadlyStreak (loopId : LoopId) (w : StreakCount) : Prop :=
  ∃ state, w.store.get? loopId = some state ∧ state.consecutivePolicyRejected = w.rejections ∧
    (LoopTerminationPolicy.default.policyRejectedStreakToStop ≤ w.rejections →
      state.phase ∈ deadPhases)

theorem DeadlyStreak.accumulates (h : DeadlyStreak loopId w) : Accumulates loopId w := by
  obtain ⟨state, hread, hstreak, hdead⟩ := h
  exact ⟨state, hread, hstreak, fun hreached => terminal_of_dead (hdead hreached)⟩

/-- A step that writes the streak that should follow found none to lose. -/
theorem noStreakToLose_of_next (h : DeadlyStreak loopId w)
    (hnext : ∀ w', w.step d H loopId call = some w' → Accumulates loopId w') :
    NoStreakToLose d H loopId w call := by
  intro answers state hop hread hgoes hexit
  have htakes := takesStep_iff.mpr hgoes
  obtain ⟨answers', found, saved, hop', hloop, hfound, hget, hwritten, -⟩ := streak_of_takesStep htakes
  rw [hop] at hop'
  obtain rfl := LoopOp.runStep.inj hop'
  rw [hread] at hfound
  obtain rfl := Option.some.inj hfound
  have hexitOf : d.exitOf w.store call = .beforePolicyGate := by
    rw [LoopDeployment.exitOf, hop, hloop, hread]
    exact hexit
  obtain ⟨after, hafter, hstreak, -⟩ := hnext _ rfl
  dsimp only at hafter hstreak
  rw [hget] at hafter
  obtain rfl := Option.some.inj hafter
  rw [if_pos htakes, hexitOf, StepExit.streak] at hstreak
  -- The step reset the streak, which should be that of the record before it.
  obtain ⟨before, hbefore, hcounted, -⟩ := h
  rw [hread] at hbefore
  obtain rfl := Option.some.inj hbefore
  rw [hcounted, ← hstreak, hwritten, hexit]
  rfl

/-- **One call** keeps the streak, when it loses none. -/
theorem DeadlyStreak.step (h : DeadlyStreak loopId w) (hkeeps : NoStreakToLose d H loopId w call)
    (hstep : w.step d H loopId call = some w') : DeadlyStreak loopId w' := by
  obtain ⟨state, hread, hstreak, hdead⟩ := h
  obtain rfl := Option.some.inj hstep
  cases htakes : takesStep d H loopId w.store call with
  | true =>
    obtain ⟨answers, found, saved, hop, hloop, hfound, hget, hwritten, hended⟩ :=
      streak_of_takesStep htakes
    rw [hread] at hfound
    obtain rfl := Option.some.inj hfound
    have hexitOf : d.exitOf w.store call = answers.exit d.orchestrator state := by
      rw [LoopDeployment.exitOf, hop, hloop, hread]
    have hfollows : saved.consecutivePolicyRejected =
        (answers.exit d.orchestrator state).streak w.rejections := by
      rw [hwritten]
      cases hexit : answers.exit d.orchestrator state with
      | beforePolicyGate =>
        have hnone := hkeeps answers state hop hread (takesStep_iff.mp htakes) hexit
        simp [StepExit.streak, ← hstreak, hnone]
      | policyRejected => simp [StepExit.streak, hstreak]
      | policyPassed => simp [StepExit.streak]
    refine ⟨saved, hget, ?_, ?_⟩
    · rw [if_pos rfl, hexitOf, hfollows]
    · rw [if_pos rfl, hexitOf, ← hfollows]
      exact hended
  | false =>
    obtain ⟨saved, hget, hsame, hstays⟩ := streak_of_not_takesStep hread htakes
    refine ⟨saved, hget, hsame.trans hstreak, fun hreached => hstays (hdead ?_)⟩
    exact hreached

/-- **Policy rejections accumulate**, in every state of a run of calls on a loop without a streak,
exactly if no step that ends before the policy gate finds a streak. -/
theorem rejections_accumulate_iff (d : LoopDeployment) (H : Sha256) (loopId : LoopId)
    (store : LoopStore) (calls : List LoopCall) (start : LoopState)
    (hstart : store.get? loopId = some start) (hnone : start.consecutivePolicyRejected = 0) :
    Always (StreakCount.step d H loopId) (Accumulates loopId) ⟨store, 0⟩ calls ↔
      runMeets (StreakCount.step d H loopId) (NoStreakToLose d H loopId) ⟨store, 0⟩ calls := by
  have hfew : ¬LoopTerminationPolicy.default.policyRejectedStreakToStop ≤ (0 : ℤ) := by decide
  refine always_iff_of_stronger (fun _ => DeadlyStreak.accumulates)
    (fun _ _ => noStreakToLose_of_next) (fun _ _ _ => DeadlyStreak.step) ?_
  exact ⟨start, hstart, hnone, fun h => absurd h hfew⟩

end Spec

/-! ### A malformed proposal between rejected ones -/

/-- A tool that the context does not offer, which the schema gate rejects. -/
def unknownTool : ProposeAction :=
  { intrusiveExploit with
    payload := runToolPayload "unknown" []
    payload_valid := rfl }

/-- Three times a tool of a risk class that is not approved, with the unknown one before the last. -/
def dodgingSteps : List LoopCall :=
  [intrusiveExploit, intrusiveExploit, unknownTool, intrusiveExploit].map fun action =>
    { loopId := newLoop.loopId, op := .runStep (exploitAnswers action) }

/-- Three policy rejections with no policy-passing step between them, and the loop runs on. -/
theorem dodging_loop_runs :
    (runLabels (StreakCount.step pausingDeployment codeDigest newLoop.loopId)
        ⟨LoopStore.single newLoop, 0⟩ dodgingSteps).map (fun w => (w.rejections,
          (w.store.get? newLoop.loopId).map fun state =>
            (state.phase, state.consecutivePolicyRejected))) = some (3, some (.running, 1)) ∧
      ¬Always (StreakCount.step pausingDeployment codeDigest newLoop.loopId)
        (Accumulates newLoop.loopId) ⟨LoopStore.single newLoop, 0⟩ dodgingSteps := by
  have hend : (runLabels (StreakCount.step pausingDeployment codeDigest newLoop.loopId)
      ⟨LoopStore.single newLoop, 0⟩ dodgingSteps).map (fun w => (w.rejections,
        (w.store.get? newLoop.loopId).map fun state =>
          (state.phase, state.consecutivePolicyRejected))) = some (3, some (.running, 1)) := by
    decide +kernel
  refine ⟨hend, fun h => ?_⟩
  obtain ⟨w, hw, heq⟩ := Option.map_eq_some_iff.mp hend
  simp only [Prod.mk.injEq] at heq
  obtain ⟨hrejections, hrecord⟩ := heq
  obtain ⟨state, hread, hcounted, -⟩ := h dodgingSteps [] w (List.append_nil _).symm hw
  simp only [hread, Option.map_some, Option.some.injEq, Prod.mk.injEq] at hrecord
  -- The record counts one rejection of three.
  rw [hrejections, hrecord.2] at hcounted
  exact absurd hcounted (by decide)

theorem rejections_accumulate_dodging :
    Always (StreakCount.step pausingDeployment codeDigest newLoop.loopId)
        (Accumulates newLoop.loopId) ⟨LoopStore.single newLoop, 0⟩ dodgingSteps ↔
      runMeets (StreakCount.step pausingDeployment codeDigest newLoop.loopId)
        (NoStreakToLose pausingDeployment codeDigest newLoop.loopId)
        ⟨LoopStore.single newLoop, 0⟩ dodgingSteps :=
  rejections_accumulate_iff pausingDeployment codeDigest newLoop.loopId (LoopStore.single newLoop)
    dodgingSteps newLoop rfl rfl

end SecOpent
