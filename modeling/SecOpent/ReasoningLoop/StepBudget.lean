import SecOpent.ReasoningLoop.TerminalPhases

/-!
# The step budget of a loop

Every step that returns on a loop that steps takes one step from its budget, executes an action only
if all gates passed it, and ends the loop when its budget is used up. No other operation gives steps
back, and a loop whose budget is used up does not step again. But whether the budget is used up is
only asked after a step: a loop that starts without a step left takes one all the same.

## Main definitions

* `StepsLoop`, `Returns`, `SoundStep`: a step of a loop that steps, and what it does when it returns
* `StepCount`: the repositories, and the number of steps that the loop has taken

## Main results

* `soundStep`: what a step does when it returns
* `step_budget_iff`: no more steps are taken than the budget has exactly if none is taken by a loop
  that starts without one
-/

namespace SecOpent

open Python Transition

variable (d : LoopDeployment) (H : Sha256)

/-- What the call does, on the repositories as they are. -/
def LoopDeployment.acting (store : LoopStore) (call : LoopCall) : LoopActing Unit :=
  d.act H call.loopId (store.get? call.loopId) call.op

/-- The call is a `run_step` on a loop that steps. -/
structure StepsLoop (store : LoopStore) (call : LoopCall) (answers : StepAnswers)
    (state : LoopState) : Prop where
  op : call.op = .runStep answers
  read : store.get? call.loopId = some state
  live : ¬state.phase.Terminal
  auto : state.phase ∉ LoopPhase.nonAutoStepPhases

/-- The call raises nothing, and its events are recorded. -/
def Returns (store : LoopStore) (call : LoopCall) : Prop :=
  (∃ a, (d.acting H store call).result = .ok a) ∧
    (d.acting H store call).effects.all (LoopStore.accepted call.accepts) = true

/-- The step takes one step from the budget, executes an action only if all gates passed it, and ends
the loop when the budget is used up. -/
structure SoundStep (store : LoopStore) (call : LoopCall) (answers : StepAnswers)
    (state : LoopState) : Prop where
  consumes : ∃ saved,
    (store.perform call.session call.accepts (d.acting H store call)).get? call.loopId = some saved ∧
      saved.budget.stepsUsed = state.budget.stepsUsed + 1 ∧
      (saved.budget.exhausted = true → saved.phase.Terminal)
  gated : ∀ step, .addStep step ∈ (d.acting H store call).effects →
    passes answers.schemaVerdict = true ∧ passes answers.policyVerdict = true ∧
      passes answers.permitVerdict = true

/-- `run_step`. -/
def LoopOp.isRunStep : LoopOp → Bool
  | .runStep _ => true
  | _ => false

/-- The call is a step of the loop, and its record is saved. -/
def takesStep (loopId : LoopId) (store : LoopStore) (call : LoopCall) : Bool :=
  call.loopId = loopId && call.op.isRunStep &&
    (LoopStore.carriedOut call.session call.accepts (d.acting H store call)).any LoopEffect.isSave

/-- The call is a step of the loop that goes through: the loop steps, nothing that the step asks
raises, and its events are recorded. -/
def StepGoesThrough (loopId : LoopId) (store : LoopStore) (call : LoopCall) : Prop :=
  call.loopId = loopId ∧ ∃ answers, call.op = .runStep answers ∧
    (∃ state, store.get? call.loopId = some state ∧ answers.Complete d.orchestrator state) ∧
      LoopStore.Recorded call.session call.accepts (d.acting H store call)

/-- The repositories, and the number of steps that the loop has taken. -/
structure StepCount where
  store : LoopStore
  taken : ℕ := 0

/-- One call. -/
def StepCount.step (loopId : LoopId) (w : StepCount) (call : LoopCall) : Option StepCount :=
  some
    ⟨w.store.perform call.session call.accepts (d.acting H w.store call),
      w.taken + if takesStep d H loopId w.store call then 1 else 0⟩

/-- The steps of the record are those that were used at the start and those taken since; once a step
has been taken, some are left or the loop is dead. -/
def Counted (loopId : LoopId) (start : LoopState) (w : StepCount) : Prop :=
  ∃ state, w.store.get? loopId = some state ∧
    state.budget.maxSteps = start.budget.maxSteps ∧
    state.budget.stepsUsed = start.budget.stepsUsed + w.taken ∧
    (w.taken = 0 ∨ state.budget.stepsUsed < state.budget.maxSteps ∨ state.phase ∈ deadPhases)

/-- The pause control, the arguments and the time of a resume. -/
def LoopDeployment.resumes : LoopOp → Option (PauseControl × ResumeRequest × Time)
  | .resume request now => some (d.control, request, now)
  | .resumeLoop request now => d.orchestrator.pauseControl.map fun control => (control, request, now)
  | _ => none

/-- The operation is a resume that is admitted, and leaves the record of a resumed loop. -/
def ResumedWith (op : LoopOp) (state saved : LoopState) : Prop :=
  ∃ control request now, d.resumes op = some (control, request, now) ∧ state.phase ∉ deadPhases ∧
    control.ResumeAdmitted state.loopId request state ∧ saved = PauseControl.resumedState state now

/-- What an operation that is no step does to the record that it read. -/
structure LeavesSteps (op : LoopOp) (state saved : LoopState) : Prop where
  loopId : saved.loopId = state.loopId
  startedAt : saved.startedAt = state.startedAt
  budget : saved.budget = state.budget ∨ ResumedWith d op state saved
  dead : state.phase ∈ deadPhases → saved.phase ∈ deadPhases

section Spec

variable {d} {H} {loopId : LoopId} {store : LoopStore} {call : LoopCall} {answers : StepAnswers}
  {state saved start : LoopState} {w w' : StepCount} {now : Time} {read : Option LoopState}

/-! ## One call -/

/-- The phases that the pause control takes for dead are terminal. -/
theorem terminal_of_dead {phase : LoopPhase} (h : phase ∈ deadPhases) : phase.Terminal := by
  revert h
  cases phase <;> decide

/-- The budget after a step. -/
theorem SteppedWith.budget {tokens : ℤ} (h : SteppedWith tokens now state saved) :
    saved.budget = state.budget.consume 1 tokens 0 := by
  obtain ⟨step, passed, rfl, rfl⟩ := h
  rfl

/-- A budget that is used up ends the loop. -/
theorem SteppedWith.phase_of_exhausted {tokens : ℤ} (hstopped : state.phase ≠ .emergencyStopped)
    (hpaused : state.phase ≠ .paused) (h : SteppedWith tokens now state saved)
    (hexhausted : saved.budget.exhausted = true) : saved.phase = .budgetExhausted := by
  obtain ⟨step, passed, -, rfl⟩ := h
  have hbudget : (LoopFeedback.apply state step passed step.observationSignals.length
      now).budget.exhausted = true := hexhausted
  simp only [afterStep, evaluateTermination, hbudget, if_true]
  rw [if_neg, if_neg]
  · exact hpaused
  · exact hstopped

/-- A resume leaves the steps as they are. -/
theorem LeavesSteps.steps {op : LoopOp} (h : LeavesSteps d op state saved) :
    saved.budget.maxSteps = state.budget.maxSteps ∧
      saved.budget.stepsUsed = state.budget.stepsUsed := by
  rcases h.budget with hsame | ⟨control, request, now, -, -, -, rfl⟩
  · rw [hsame]
    exact ⟨rfl, rfl⟩
  · exact ⟨rfl, rfl⟩

/-- What an operation that is no step saves. -/
theorem act_leavesSteps {op : LoopOp} (hop : op.isRunStep = false)
    (hread : ∀ state, read = some state → state.loopId = loopId) :
    Saves (fun saved => ∃ state, read = some state ∧ LeavesSteps d op state saved)
      (d.act H loopId read op) := by
  cases op with
  | runStep answers => cases hop
  | pause actor reason actorRole now =>
    refine Saves.mono PauseControl.pause_saves fun saved h => ?_
    obtain ⟨state, hstate, -, hdead, -, rfl⟩ := h
    exact ⟨state, hstate, rfl, rfl, .inl rfl, fun h => absurd h hdead⟩
  | resume request now =>
    refine Saves.mono PauseControl.resume_saves fun saved h => ?_
    obtain ⟨state, hstate, hdead, hadmitted, rfl⟩ := h
    rw [← hread state hstate] at hadmitted
    exact ⟨state, hstate, rfl, rfl, .inr ⟨_, _, _, rfl, hdead, hadmitted, rfl⟩,
      fun h => absurd h hdead⟩
  | resumeLoop request now =>
    refine Saves.mono resumeLoop_saves fun saved h => ?_
    rcases h with ⟨control, state, hcontrol, hstate, hdead, hadmitted, rfl⟩ | ⟨state, hstate, rfl⟩
    · rw [← hread state hstate] at hadmitted
      have hresumes : d.resumes (.resumeLoop request now) = some (control, request, now) := by
        rw [LoopDeployment.resumes, hcontrol]
        rfl
      exact ⟨state, hstate, rfl, rfl, .inr ⟨_, _, _, hresumes, hdead, hadmitted, rfl⟩,
        fun h => absurd h hdead⟩
    · exact ⟨state, hstate, rfl, rfl, .inl rfl, fun _ =>
        (by decide : LoopPhase.policyBlocked ∈ deadPhases)⟩
  | emergencyStop actor reason now =>
    refine Saves.mono emergencyStop_saves fun saved h => ?_
    obtain ⟨state, hstate, -, rfl⟩ := h
    exact ⟨state, hstate, rfl, rfl, .inl rfl, fun _ =>
      (by decide : LoopPhase.emergencyStopped ∈ deadPhases)⟩

/-- A step that returns is carried out as a whole. -/
theorem carriedOut_of_returns (session : Bool) {accepts : LoopEvent → Bool} {x : LoopActing Unit}
    (hresult : ∃ a, x.result = .ok a) (haccepts : x.effects.all (LoopStore.accepted accepts) = true) :
    LoopStore.carriedOut session accepts x = x.effects := by
  obtain ⟨a, ha⟩ := hresult
  have hok : x.result.isOk = true := by rw [ha]; rfl
  have hwhole : x.effects.takeWhile (LoopStore.accepted accepts) = x.effects := by
    rw [List.takeWhile_eq_self_iff]
    exact List.all_eq_true.mp haccepts
  simp [LoopStore.carriedOut, hok, haccepts, hwhole]

/-- Steps are added for what all gates passed. -/
theorem runStep_adds {orchestrator : ReasoningLoopOrchestrator} :
    (orchestrator.runStep H loopId answers read).Only fun e => ∀ step, e = .addStep step →
      passes answers.schemaVerdict = true ∧ passes answers.policyVerdict = true ∧
        passes answers.permitVerdict = true := by
  have hrecord : ∀ {actor action : String} {payload : List (String × Json)},
      (record actor action loopId payload).Only fun e => ∀ step, e = .addStep step →
        passes answers.schemaVerdict = true ∧ passes answers.policyVerdict = true ∧
          passes answers.permitVerdict = true :=
    Acting.Only.effect fun _ heq => by cases heq
  have hadvance : ∀ {state : LoopState} {step : LoopStep} {passed : Bool}
      {terminatedBy : String × Json},
      (advance loopId state step passed answers.now terminatedBy).Only fun e => ∀ step,
        e = .addStep step → passes answers.schemaVerdict = true ∧
          passes answers.policyVerdict = true ∧ passes answers.permitVerdict = true := by
    intro state step passed terminatedBy
    refine Acting.Only.bind (Acting.Only.effect fun _ heq => by cases heq) fun _ _ => ?_
    refine Acting.Only.bind ?_ fun _ _ => Acting.Only.pure _
    exact Acting.Only.ite (fun _ => hrecord) fun _ => Acting.Only.pure _
  have hrejected : ∀ {state : LoopState} {context : LoopContext} {proposed : ProposeAction}
      {gateName denyCode reason : String},
      (recordGateRejected H loopId state context proposed gateName denyCode reason answers).Only
        fun e => ∀ step, e = .addStep step → passes answers.schemaVerdict = true ∧
          passes answers.policyVerdict = true ∧ passes answers.permitVerdict = true :=
    Acting.Only.bind hrecord fun _ _ => Acting.Only.bind hadvance fun _ _ => Acting.Only.pure _
  refine runStep_only fun state _ _ _ => ?_
  refine Acting.Only.bind (Acting.Only.ofExcept _) fun context _ => ?_
  refine Acting.Only.ite (fun _ => hrejected) fun _ => ?_
  refine Acting.Only.bind (Acting.Only.ofExcept _) fun proposed _ => ?_
  cases proposed with
  | none =>
    exact Acting.Only.bind hrecord fun _ _ =>
      Acting.Only.bind hadvance fun _ _ => Acting.Only.pure _
  | some proposed =>
    refine Acting.Only.bind (Acting.Only.ofExcept _) fun sv hsv => ?_
    refine Acting.Only.ite (fun _ => hrejected) fun hschema => ?_
    refine Acting.Only.bind (Acting.Only.ofExcept _) fun pv hpv => ?_
    refine Acting.Only.ite (fun _ => hrejected) fun hpolicy => ?_
    refine Acting.Only.bind (Acting.Only.ofExcept _) fun permit hpermit => ?_
    refine Acting.Only.ite (fun _ => hrejected) fun hpermitted => ?_
    rw [Acting.ofExcept_result] at hsv hpv hpermit
    intro e _ step _
    rw [hsv, hpv, hpermit]
    simpa [passes] using And.intro hschema (And.intro hpolicy hpermitted)

/-- What was saved of the record of a loop is what is there. -/
theorem get?_perform_of_save {session : Bool} {accepts : LoopEvent → Bool} {x : LoopActing Unit}
    (hread : store.get? loopId = some state)
    (hx : Saves (fun saved => saved.loopId = state.loopId) x)
    (h : ∃ saved, .save saved ∈ LoopStore.carriedOut session accepts x) :
    ∃ saved, .save saved ∈ x.effects ∧
      (store.perform session accepts x).get? loopId = some saved := by
  obtain ⟨saved, hsaved⟩ := h
  have hid : saved.loopId = loopId :=
    (hx _ (LoopStore.mem_of_mem_carriedOut hsaved) saved rfl).trans (LoopStore.loopId_of_get? hread)
  obtain ⟨last, hlast, hget⟩ := LoopStore.get?_foldl_of_save hsaved hid
  exact ⟨last, LoopStore.mem_of_mem_carriedOut hlast, hget⟩

/-- The effects of a call save records of the loop that it read. -/
theorem acting_saves (hread : store.get? call.loopId = some state) :
    Saves (fun saved => saved.loopId = state.loopId) (d.acting H store call) := by
  refine Saves.mono (act_saves call.op) fun saved h => ?_
  obtain ⟨⟨found, hfound, hid⟩, -⟩ := h
  rw [hread] at hfound
  cases hfound
  exact hid

/-- A step that gets to save leaves the record of the loop after the step. -/
theorem get?_perform_step (hop : call.op = .runStep answers)
    (hread : store.get? call.loopId = some state)
    (h : ∃ saved, .save saved ∈
      LoopStore.carriedOut call.session call.accepts (d.acting H store call)) :
    ∃ saved, (store.perform call.session call.accepts (d.acting H store call)).get? call.loopId =
        some saved ∧ ¬state.phase.Terminal ∧ state.phase ∉ LoopPhase.nonAutoStepPhases ∧
      SteppedWith (answers.tokens d.orchestrator state) answers.now state saved := by
  obtain ⟨saved, hsaved, hget⟩ := get?_perform_of_save hread (acting_saves hread) h
  rw [LoopDeployment.acting, hop] at hsaved
  obtain ⟨found, hfound, hlive, hauto, hstepped⟩ := runStep_saves_stepped _ hsaved saved rfl
  rw [hread] at hfound
  cases hfound
  exact ⟨saved, hget, hlive, hauto, hstepped⟩

/-- **What a step does when it returns.** -/
theorem soundStep (hsteps : StepsLoop store call answers state) (hreturns : Returns d H store call) :
    SoundStep d H store call answers state := by
  obtain ⟨hop, hread, hlive, hauto⟩ := hsteps
  have hacting : d.acting H store call =
      discard (d.orchestrator.runStep H call.loopId answers (some state)) := by
    rw [LoopDeployment.acting, hop, hread]
    rfl
  constructor
  · have hresult : ∃ result, (d.orchestrator.runStep H call.loopId answers
        (some state)).result = .ok result := by
      obtain ⟨a, ha⟩ := hreturns.1
      rw [hacting, discard] at ha
      cases hrun : (d.orchestrator.runStep H call.loopId answers (some state)).result with
      | ok result => exact ⟨result, rfl⟩
      | error error =>
        rw [hrun] at ha
        cases ha
    have hsaves : ∃ saved, .save saved ∈ (d.acting H store call).effects := by
      obtain ⟨result, hresult⟩ := hresult
      rw [hacting]
      exact (runStep_writesIf.1 ⟨state, rfl, complete_of_ok hlive hauto hresult⟩).2
    rw [← carriedOut_of_returns call.session hreturns.1 hreturns.2] at hsaves
    obtain ⟨saved, hget, hlive, hauto, hstepped⟩ := get?_perform_step hop hread hsaves
    refine ⟨saved, hget, by rw [hstepped.budget]; rfl, fun hexhausted => ?_⟩
    rw [hstepped.phase_of_exhausted (LoopPhase.ne_emergencyStopped hlive)
      (LoopPhase.ne_paused hauto) hexhausted]
    decide
  · intro step hstep
    rw [hacting] at hstep
    exact runStep_adds _ hstep step rfl

theorem any_isSave_iff {effects : List LoopEffect} :
    effects.any LoopEffect.isSave = true ↔ ∃ saved, .save saved ∈ effects := by
  rw [List.any_eq_true]
  constructor
  · rintro ⟨e, he, hsave⟩
    cases e with
    | addStep step => cases hsave
    | record event => cases hsave
    | save saved => exact ⟨saved, he⟩
  · rintro ⟨saved, hsaved⟩
    exact ⟨_, hsaved, rfl⟩

/-- When a step is taken. -/
theorem takesStep_iff :
    takesStep d H loopId store call = true ↔ StepGoesThrough d H loopId store call := by
  rw [takesStep, Bool.and_eq_true, Bool.and_eq_true, decide_eq_true_eq, any_isSave_iff, and_assoc,
    StepGoesThrough]
  refine and_congr_right fun hloop => ?_
  cases hop : call.op with
  | runStep answers =>
    have hwrites : WritesIf (∃ state, store.get? call.loopId = some state ∧
        answers.Complete d.orchestrator state) (d.acting H store call) := by
      rw [LoopDeployment.acting, hop]
      exact writesIf_discard runStep_writesIf
    rw [hwrites.save_mem_carriedOut_iff]
    constructor
    · rintro ⟨-, h⟩
      exact ⟨answers, rfl, h⟩
    · rintro ⟨answers', heq, h⟩
      cases heq
      exact ⟨rfl, h⟩
  | pause => simp [LoopOp.isRunStep]
  | resume => simp [LoopOp.isRunStep]
  | resumeLoop => simp [LoopOp.isRunStep]
  | emergencyStop => simp [LoopOp.isRunStep]

/-! ## Runs -/

/-- A call that takes a step found a loop that steps, and left the record of the loop after it. -/
theorem of_takesStep (h : takesStep d H loopId store call = true) :
    ∃ answers state saved, call.op = .runStep answers ∧ store.get? loopId = some state ∧
      (store.perform call.session call.accepts (d.acting H store call)).get? loopId = some saved ∧
      ¬state.phase.Terminal ∧ state.phase ∉ LoopPhase.nonAutoStepPhases ∧
      SteppedWith (answers.tokens d.orchestrator state) answers.now state saved := by
  obtain ⟨rfl, answers, hop, ⟨state, hread, hcomplete⟩, hrecorded⟩ := takesStep_iff.mp h
  have hwrites : WritesIf (∃ state, store.get? call.loopId = some state ∧
      answers.Complete d.orchestrator state) (d.acting H store call) := by
    rw [LoopDeployment.acting, hop]
    exact writesIf_discard runStep_writesIf
  obtain ⟨saved, hget, hlive, hauto, hstepped⟩ := get?_perform_step hop hread
    (hwrites.save_mem_carriedOut_iff.mpr ⟨⟨state, hread, hcomplete⟩, hrecorded⟩)
  exact ⟨answers, state, saved, hop, hread, hget, hlive, hauto, hstepped⟩

/-- A call that takes no step leaves the record of the loop, or does what is no step. -/
theorem of_not_takesStep (hread : store.get? loopId = some state)
    (h : takesStep d H loopId store call = false) :
    ∃ saved, (store.perform call.session call.accepts (d.acting H store call)).get? loopId =
        some saved ∧
      (saved = state ∨ call.loopId = loopId ∧ LeavesSteps d call.op state saved ∧
        .save saved ∈ LoopStore.carriedOut call.session call.accepts (d.acting H store call)) := by
  rcases LoopStore.perform_cases call.session call.accepts (d.acting H store call) loopId with
    hsame | ⟨saved, hdone, hid, hafter⟩
  · exact ⟨state, hsame.trans hread, .inl rfl⟩
  · have hmem := LoopStore.mem_of_mem_carriedOut hdone
    obtain ⟨⟨found, hfound, hsame⟩, -⟩ := act_saves call.op _ hmem saved rfl
    have hcall : call.loopId = loopId :=
      (LoopStore.loopId_of_get? hfound).symm.trans (hsame.symm.trans hid)
    have hop : call.op.isRunStep = false := by
      have hany : (LoopStore.carriedOut call.session call.accepts (d.acting H store call)).any
          LoopEffect.isSave = true := List.any_eq_true.mpr ⟨_, hdone, rfl⟩
      simpa [takesStep, hcall, hany] using h
    obtain ⟨found, hfound, hleaves⟩ :=
      act_leavesSteps hop (fun _ => LoopStore.loopId_of_get?) _ hmem saved rfl
    rw [hcall, hread] at hfound
    cases hfound
    exact ⟨saved, hafter, .inr ⟨hcall, hleaves, hdone⟩⟩

/-- One call keeps the count. -/
theorem Counted.step (h : Counted loopId start w)
    (hstep : StepCount.step d H loopId w call = some w') : Counted loopId start w' := by
  obtain ⟨state, hread, hmax, hused, hleft⟩ := h
  obtain rfl := Option.some.inj hstep
  cases htakes : takesStep d H loopId w.store call with
  | true =>
    obtain ⟨answers, found, saved, -, hfound, hafter, hlive, hauto, hstepped⟩ := of_takesStep htakes
    rw [hread] at hfound
    cases hfound
    refine ⟨saved, hafter, by rw [hstepped.budget]; exact hmax, ?_, .inr ?_⟩
    · rw [hstepped.budget, LoopBudget.consume, hused]
      push_cast
      rw [if_pos rfl, add_assoc]
    · cases hexhausted : saved.budget.exhausted with
      | true =>
        rw [hstepped.phase_of_exhausted (LoopPhase.ne_emergencyStopped hlive)
          (LoopPhase.ne_paused hauto) hexhausted]
        exact .inr (by decide)
      | false =>
        simp only [LoopBudget.exhausted, Bool.or_eq_false_iff, decide_eq_false_iff_not] at hexhausted
        exact .inl (not_le.mp hexhausted.1.1)
  | false =>
    obtain ⟨saved, hafter, hsaved⟩ := of_not_takesStep hread htakes
    rcases hsaved with rfl | ⟨-, hleaves, -⟩
    · exact ⟨saved, hafter, hmax, by simpa using hused, by simpa using hleft⟩
    · obtain ⟨hmax', hused'⟩ := hleaves.steps
      refine ⟨saved, hafter, hmax'.trans hmax, by simpa [hused'] using hused, ?_⟩
      rw [hused', hmax']
      rcases hleft with h | h | h
      · exact .inl (by simp [h])
      · exact .inr (.inl h)
      · exact .inr (.inr (hleaves.dead h))

/-- A step stays within the budget, unless it is the first one and none was left. -/
theorem withinBudget_step_iff (h : Counted loopId start w)
    (hstep : StepCount.step d H loopId w call = some w') :
    start.budget.stepsUsed + w'.taken ≤ start.budget.maxSteps ↔
      start.budget.stepsUsed + w.taken ≤ start.budget.maxSteps ∧
        (StepGoesThrough d H loopId w.store call →
          start.budget.stepsUsed < start.budget.maxSteps) := by
  obtain ⟨state, hread, hmax, hused, hleft⟩ := h
  obtain rfl := Option.some.inj hstep
  rw [← takesStep_iff]
  cases htakes : takesStep d H loopId w.store call with
  | true =>
    obtain ⟨answers, found, saved, -, hfound, -, hlive, -⟩ := of_takesStep htakes
    rw [hread] at hfound
    cases hfound
    have hdead : state.phase ∉ deadPhases := fun hdead => hlive (terminal_of_dead hdead)
    simp only [if_true, forall_const]
    constructor
    · intro hwithin
      push_cast at hwithin
      omega
    · rintro ⟨-, hstart⟩
      push_cast
      rcases hleft with hnone | hsome | hdead'
      · omega
      · omega
      · exact absurd hdead' hdead
  | false => simp

/-- **The step budget**: a step that returns does what it should, and over a sequence of calls no more
steps are taken than the budget has, exactly if the loop starts within its budget and no step is taken
if it starts without one left. -/
theorem step_budget_iff (d : LoopDeployment) (H : Sha256) (loopId : LoopId) (store : LoopStore)
    (calls : List LoopCall) (start : LoopState) (w : StepCount)
    (hstart : store.get? loopId = some start)
    (hrun : runLabels (StepCount.step d H loopId) ⟨store, 0⟩ calls = some w) :
    (∀ store call answers state, StepsLoop store call answers state → Returns d H store call →
      SoundStep d H store call answers state) ∧
    (start.budget.stepsUsed + w.taken ≤ start.budget.maxSteps ↔
      start.budget.stepsUsed ≤ start.budget.maxSteps ∧
        runMeets (StepCount.step d H loopId)
          (fun w call => StepGoesThrough d H loopId w.store call →
            start.budget.stepsUsed < start.budget.maxSteps) ⟨store, 0⟩ calls) := by
  refine ⟨fun _ _ _ _ => soundStep, ?_⟩
  have hcounted : Counted loopId start ⟨store, 0⟩ :=
    ⟨start, hstart, rfl, (add_zero _).symm, .inl rfl⟩
  have hexact := runMeets_exact (fun _ _ _ => Counted.step)
    (fun _ _ _ => withinBudget_step_iff) hcounted hrun
  simpa using hexact

end Spec

/-! ### A loop without a step in its budget -/

/-- A loop that was created with `max_steps` 0. -/
def steplessLoop : LoopState := { newLoop with budget := { LoopBudget.default with maxSteps := 0 } }

/-- One step, whose proposer is not available. -/
def unavailableStep : LoopCall := { loopId := newLoop.loopId, op := .runStep unavailableAnswers }

/-- The loop takes a step that it does not have. -/
theorem stepless_loop_steps :
    ¬∀ w, runLabels (StepCount.step pausingDeployment codeDigest newLoop.loopId)
        ⟨LoopStore.single steplessLoop, 0⟩ [unavailableStep] = some w →
      (w.taken : ℤ) ≤ steplessLoop.budget.maxSteps := by
  intro h
  have htaken : takesStep pausingDeployment codeDigest newLoop.loopId (LoopStore.single steplessLoop)
      unavailableStep = true := by decide +kernel
  have hwithin := h _ rfl
  rw [htaken] at hwithin
  exact absurd hwithin (by decide)

/-- A default loop takes its first step. -/
theorem new_loop_within_budget :
    ∃ w, runLabels (StepCount.step pausingDeployment codeDigest newLoop.loopId)
        ⟨LoopStore.single newLoop, 0⟩ [unavailableStep] = some w ∧ w.taken = 1 ∧
      newLoop.budget.stepsUsed + w.taken ≤ newLoop.budget.maxSteps := by
  have htaken : takesStep pausingDeployment codeDigest newLoop.loopId (LoopStore.single newLoop)
      unavailableStep = true := by decide +kernel
  refine ⟨_, rfl, by rw [htaken]; rfl, ?_⟩
  exact (step_budget_iff pausingDeployment codeDigest newLoop.loopId (LoopStore.single newLoop)
    [unavailableStep] newLoop _ rfl rfl).2.mpr ⟨by decide, fun _ => by decide, fun _ _ => trivial⟩

end SecOpent
