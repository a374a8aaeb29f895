import SecOpent.ReasoningLoop.Orchestrator
import SecOpent.Transition.Conditions

/-!
# Terminal phases

Operations on loops, one after the other. A step refuses a loop in any terminal phase; the pause
control has a list of its own, without `CONVERGED`, so a loop that has converged can be paused or
resumed, and runs again. In every other run a loop that has ended stays ended.

## Main definitions

* `LoopDeployment.step`: one operation on a loop
* `Ended`: the record of a loop is in a terminal phase
* `Revives`: an admitted pause or resume of a loop that has converged

## Main results

* `ended_preserved_iff`: what one call preserves
* `terminal_absorbing_iff`: the terminal phases are absorbing exactly if no call revives a loop
-/

namespace SecOpent

open Python Transition

variable (d : LoopDeployment) (H : Sha256)

/-- One call. -/
def LoopDeployment.step (store : LoopStore) (call : LoopCall) : Option LoopStore :=
  some (store.perform call.session call.accepts
    (d.act H call.loopId (store.get? call.loopId) call.op))

/-- The record of the loop is in a terminal phase. -/
def Ended (loopId : LoopId) (store : LoopStore) : Prop :=
  ∃ state, store.get? loopId = some state ∧ state.phase.Terminal

/-- In a unit of work the call is kept only if the event is recorded. -/
def LoopCall.Keeps (call : LoopCall) (actor action : String) (payload : List (String × Json)) : Prop :=
  call.session = true → call.accepts ⟨actor, action, call.loopId.value, payload⟩ = true

/-- The call is a pause or a resume that is admitted, on a loop that has converged. -/
def Revives (store : LoopStore) (call : LoopCall) : Prop :=
  ∃ state, store.get? call.loopId = some state ∧ state.phase = .converged ∧
    match call.op with
    | .pause actor reason actorRole _ =>
      actorRole ≠ "agent" ∧
        call.Keeps actor "loop.paused" (PauseControl.pausedPayload reason state)
    | .resume request now =>
      d.control.ResumeAdmitted call.loopId request state ∧
        call.Keeps request.actor "loop.resumed" (PauseControl.resumedPayload request state now)
    | .resumeLoop request now =>
      (∃ control, d.orchestrator.pauseControl = some control ∧
        control.ResumeAdmitted call.loopId request state) ∧
        call.Keeps request.actor "loop.resumed" (PauseControl.resumedPayload request state now)
    | _ => False

section Spec

variable {d} {H} {store : LoopStore} {call : LoopCall} {loopId : LoopId} {state : LoopState}

/-! ## One call -/

/-- A record and its event, in a unit of work that is kept. -/
theorem get?_perform_save {session : Bool} {accepts : LoopEvent → Bool} {x : LoopActing Unit}
    {saved : LoopState} {event : LoopEvent} (heffects : x.effects = [.save saved, .record event])
    (hresult : x.result = .ok ()) (h : session = true → accepts event = true) :
    (store.perform session accepts x).get? saved.loopId = some saved := by
  rw [LoopStore.perform, LoopStore.carriedOut, heffects, hresult]
  cases haccepts : accepts event with
  | true =>
    simp [List.takeWhile_cons, LoopStore.accepted, haccepts, Except.isOk, Except.toBool,
      LoopStore.apply, LoopStore.get?]
  | false =>
    have hsession : session = false := by
      cases session
      · rfl
      · rw [h rfl] at haccepts
        cases haccepts
    simp [List.takeWhile_cons, LoopStore.accepted, haccepts, hsession, LoopStore.apply,
      LoopStore.get?]

/-- A unit of work whose event is refused leaves nothing. -/
theorem perform_refused {accepts : LoopEvent → Bool} {x : LoopActing Unit} {event : LoopEvent}
    (hmem : .record event ∈ x.effects) (h : accepts event = false) :
    store.perform true accepts x = store := by
  have hall : x.effects.all (LoopStore.accepted accepts) = false := by
    rw [List.all_eq_false]
    exact ⟨_, hmem, by simp [LoopStore.accepted, h]⟩
  simp [LoopStore.perform, LoopStore.carriedOut, hall]

/-- What an admitted pause or resume of a loop that has converged does. -/
theorem act_of_revives (h : Revives d store call) :
    ∃ saved event, (d.act H call.loopId (store.get? call.loopId) call.op).effects =
        [.save saved, .record event] ∧
      (d.act H call.loopId (store.get? call.loopId) call.op).result = .ok () ∧
      saved.loopId = call.loopId ∧ ¬saved.phase.Terminal ∧
      (call.session = true → call.accepts event = true) := by
  obtain ⟨state, hread, hphase, hop⟩ := h
  have hid : state.loopId = call.loopId := LoopStore.loopId_of_get? hread
  have hdead : state.phase ∉ deadPhases := by rw [hphase]; decide
  have hpaused : state.phase ≠ .paused := by rw [hphase]; decide
  have hnotPaused : ¬LoopPhase.paused.Terminal := by decide
  have hnotResumed : ¬LoopPhase.resumed.Terminal := by decide
  rw [hread]
  cases hcall : call.op with
  | runStep answers => simp [hcall] at hop
  | emergencyStop actor reason now => simp [hcall] at hop
  | pause actor reason actorRole now =>
    simp only [hcall] at hop
    refine ⟨PauseControl.pausedState state now, _, ?_, ?_, hid, hnotPaused, hop.2⟩
    · simp only [LoopDeployment.act, discard, PauseControl.pause_effects hop.1 hpaused hdead]
    · simp only [LoopDeployment.act, discard, PauseControl.pause_effects hop.1 hpaused hdead]
      rfl
  | resume request now =>
    simp only [hcall] at hop
    refine ⟨PauseControl.resumedState state now, _, ?_, ?_, hid, hnotResumed, hop.2⟩
    · simp only [LoopDeployment.act, discard, PauseControl.resume_effects hop.1 hdead]
    · simp only [LoopDeployment.act, discard, PauseControl.resume_effects hop.1 hdead]
      rfl
  | resumeLoop request now =>
    simp only [hcall] at hop
    obtain ⟨⟨control, hcontrol, hadmitted⟩, hkeeps⟩ := hop
    refine ⟨PauseControl.resumedState state now, _, ?_, ?_, hid, hnotResumed, hkeeps⟩
    · simp only [LoopDeployment.act, discard, ReasoningLoopOrchestrator.resumeLoop, hcontrol,
        PauseControl.resume_effects hadmitted hdead]
    · simp only [LoopDeployment.act, discard, ReasoningLoopOrchestrator.resumeLoop, hcontrol,
        PauseControl.resume_effects hadmitted hdead]
      rfl

/-- The terminal phase that the pause control leaves out. -/
theorem eq_converged {phase : LoopPhase} (h : phase.Terminal) (hdead : phase ∉ deadPhases) :
    phase = .converged := by
  revert h hdead
  cases phase <;> decide

/-- A record that is kept although its event is refused is the record that was there. -/
theorem eq_of_not_keeps {actor action : String} {payload : List (String × Json)}
    {x : LoopActing Unit} {saved : LoopState} (hkeeps : ¬call.Keeps actor action payload)
    (hmem : .record ⟨actor, action, call.loopId.value, payload⟩ ∈ x.effects)
    (hstate : store.get? loopId = some state)
    (h : (store.perform call.session call.accepts x).get? loopId = some saved) : saved = state := by
  obtain ⟨hsession, haccepts⟩ := Classical.not_imp.mp hkeeps
  rw [hsession, perform_refused hmem (by simpa using haccepts), hstate] at h
  exact (Option.some.inj h).symm

/-- **A loop that has ended stays ended** in a call that does not revive it. -/
theorem ended_perform (hended : Ended loopId store)
    (hrevives : call.loopId = loopId → ¬Revives d store call) :
    Ended loopId (store.perform call.session call.accepts
      (d.act H call.loopId (store.get? call.loopId) call.op)) := by
  obtain ⟨state, hstate, hterminal⟩ := hended
  rcases LoopStore.perform_cases call.session call.accepts
      (d.act H call.loopId (store.get? call.loopId) call.op) loopId with
    hsame | ⟨saved, hdone, hid, hafter⟩
  · exact ⟨state, hsame.trans hstate, hterminal⟩
  · refine ⟨saved, hafter, ?_⟩
    have hmem := LoopStore.mem_of_mem_carriedOut hdone
    -- What is saved is a record of the loop that was read.
    have hfound : ∀ found, store.get? call.loopId = some found → saved.loopId = found.loopId →
        call.loopId = loopId ∧ found = state := by
      intro found hread hsame
      have hcall : call.loopId = loopId :=
        (LoopStore.loopId_of_get? hread).symm.trans (hsame.symm.trans hid)
      rw [hcall, hstate] at hread
      exact ⟨hcall, (Option.some.inj hread).symm⟩
    cases hcall : call.op with
    | runStep answers =>
      rw [hcall] at hmem
      obtain ⟨found, hread, hruns, -, hadvanced⟩ := runStep_saves _ hmem saved rfl
      obtain ⟨-, rfl⟩ := hfound found hread hadvanced.1
      exact absurd hterminal hruns
    | emergencyStop actor reason now =>
      rw [hcall] at hmem
      obtain ⟨found, -, -, rfl⟩ := emergencyStop_saves _ hmem saved rfl
      exact (by decide : LoopPhase.emergencyStopped.Terminal)
    | pause actor reason actorRole now =>
      rw [hcall] at hmem hafter
      obtain ⟨found, hread, hpaused, hdead, hrole, hsaved⟩ :=
        PauseControl.pause_saves _ hmem saved rfl
      obtain ⟨hloop, rfl⟩ := hfound found hread (by rw [hsaved]; rfl)
      by_cases hkeeps : call.Keeps actor "loop.paused" (PauseControl.pausedPayload reason found)
      · refine absurd ⟨found, hread, eq_converged hterminal hdead, ?_⟩ (hrevives hloop)
        rw [hcall]
        exact ⟨hrole, hkeeps⟩
      · have hrecorded : (.record ⟨actor, "loop.paused", call.loopId.value,
            PauseControl.pausedPayload reason found⟩ : LoopEffect) ∈
              (d.act H call.loopId (store.get? call.loopId)
                (.pause actor reason actorRole now)).effects := by
          rw [hread]
          simp [LoopDeployment.act, discard, PauseControl.pause_effects hrole hpaused hdead]
        rw [eq_of_not_keeps hkeeps hrecorded hstate hafter]
        exact hterminal
    | resume request now =>
      rw [hcall] at hmem hafter
      obtain ⟨found, hread, hdead, hadmitted, hsaved⟩ :=
        PauseControl.resume_saves _ hmem saved rfl
      obtain ⟨hloop, rfl⟩ := hfound found hread (by rw [hsaved]; rfl)
      by_cases hkeeps : call.Keeps request.actor "loop.resumed"
          (PauseControl.resumedPayload request found now)
      · refine absurd ⟨found, hread, eq_converged hterminal hdead, ?_⟩ (hrevives hloop)
        rw [hcall]
        exact ⟨hadmitted, hkeeps⟩
      · have hrecorded : (.record ⟨request.actor, "loop.resumed", call.loopId.value,
            PauseControl.resumedPayload request found now⟩ : LoopEffect) ∈
              (d.act H call.loopId (store.get? call.loopId) (.resume request now)).effects := by
          rw [hread]
          simp [LoopDeployment.act, discard, PauseControl.resume_effects hadmitted hdead]
        rw [eq_of_not_keeps hkeeps hrecorded hstate hafter]
        exact hterminal
    | resumeLoop request now =>
      rw [hcall] at hmem hafter
      rcases resumeLoop_saves _ hmem saved rfl with
        ⟨control, found, hcontrol, hread, hdead, hadmitted, hsaved⟩ | hblocked
      · obtain ⟨hloop, rfl⟩ := hfound found hread (by rw [hsaved]; rfl)
        by_cases hkeeps : call.Keeps request.actor "loop.resumed"
            (PauseControl.resumedPayload request found now)
        · refine absurd ⟨found, hread, eq_converged hterminal hdead, ?_⟩ (hrevives hloop)
          rw [hcall]
          exact ⟨⟨control, hcontrol, hadmitted⟩, hkeeps⟩
        · have hrecorded : (.record ⟨request.actor, "loop.resumed", call.loopId.value,
              PauseControl.resumedPayload request found now⟩ : LoopEffect) ∈
                (d.act H call.loopId (store.get? call.loopId) (.resumeLoop request now)).effects := by
            rw [hread]
            simp [LoopDeployment.act, discard, ReasoningLoopOrchestrator.resumeLoop, hcontrol,
              PauseControl.resume_effects hadmitted hdead]
          rw [eq_of_not_keeps hkeeps hrecorded hstate hafter]
          exact hterminal
      · obtain ⟨found, -, rfl⟩ := hblocked
        exact (by decide : LoopPhase.policyBlocked.Terminal)

/-- What one call preserves. -/
theorem ended_preserved_iff :
    Preserves (d.step H) (Ended loopId) (fun _ _ => True) store call ↔
      (call.loopId = loopId → ¬Revives d store call) := by
  constructor
  · rintro hpreserves rfl hrevives
    obtain ⟨saved, event, heffects, hresult, hid, hlive, hkeeps⟩ :=
      act_of_revives (H := H) hrevives
    obtain ⟨state, hread, hphase, hadmitted⟩ := hrevives
    have hended : Ended call.loopId store := ⟨state, hread, by rw [hphase]; decide⟩
    obtain ⟨after, hafter, hterminal⟩ := hpreserves hended trivial _ rfl
    have hsaved : (store.perform call.session call.accepts
        (d.act H call.loopId (store.get? call.loopId) call.op)).get? saved.loopId = some saved :=
      get?_perform_save heffects hresult hkeeps
    rw [hid, hafter] at hsaved
    cases hsaved
    exact hlive hterminal
  · intro hrevives hended _ after hstep
    obtain rfl := Option.some.inj hstep
    exact ended_perform hended hrevives

/-- **The terminal phases of a loop are absorbing** over a sequence of calls exactly if none of them
is an admitted pause or resume of the loop while it has converged. -/
theorem terminal_absorbing_iff (d : LoopDeployment) (H : Sha256) (loopId : LoopId) (store : LoopStore)
    (calls : List LoopCall) :
    Persists (d.step H) (Ended loopId) (fun _ _ => True) store calls ↔
      runMeets (d.step H) (fun store call => call.loopId = loopId → ¬Revives d store call) store
        calls := by
  have hcond : Preserves (d.step H) (Ended loopId) (fun _ _ => True) =
      fun store call => call.loopId = loopId → ¬Revives d store call := by
    funext store call
    exact propext ended_preserved_iff
  rw [persists_iff, hcond]

end Spec

/-! ### A loop that has converged -/

/-- A loop that was created just now. -/
def newLoop : LoopState where
  loopId := firstLoopId
  assessmentId := "asm-1"
  phase := .initializing
  policySnapshot := "default"
  budget := .default
  contextHash := ""
  catalogRequiredRemaining := ∅
  catalogRequiredExecuted := ∅
  consecutiveNoSignal := 0
  consecutivePolicyRejected := 0
  startedAt := 0
  lastStepAt := none

/-- The repositories with the record of one loop. -/
def LoopStore.single (state : LoopState) : LoopStore where
  states := Dict.empty.set state.loopId.value state
  keyed id found h := by
    rw [Dict.get?_set] at h
    split at h
    next hid =>
      cases h
      exact hid.symm
    next => cases h

/-- The answers of a step whose proposer is not available. -/
def unavailableAnswers : StepAnswers where
  context := .ok .blank
  proposed := .ok none
  schemaVerdict := .error (.raised "not asked")
  policyVerdict := .error (.raised "not asked")
  permitVerdict := .error (.raised "not asked")
  oracleOutcome := .error (.raised "not asked")
  timestamp := 1
  now := 2
  stepToken := "01234567"
  stepNumber := 7
  correlationToken := "89abcdef"

/-- An orchestrator with a pause control, and the pause control. -/
def pausingDeployment : LoopDeployment := ⟨{ pauseControl := some {} }, {}⟩

/-- Five steps without a signal, after which the loop has converged. -/
def quietSteps : List LoopCall :=
  List.replicate 5 { loopId := newLoop.loopId, op := .runStep unavailableAnswers }

/-- A human pauses the loop. -/
def pauseCall : LoopCall := { loopId := newLoop.loopId, op := .pause "ada" "look" "human" 3 }

/-- The phase of the loop after some calls. -/
def phaseAfter (calls : List LoopCall) : Option (Option LoopPhase) :=
  (runLabels (pausingDeployment.step codeDigest) (LoopStore.single newLoop) calls).map fun store =>
    (store.get? newLoop.loopId).map LoopState.phase

/-- The loop converges, and a human pauses it. -/
theorem converged_loop_paused :
    ¬∀ loopId, Persists (pausingDeployment.step codeDigest) (Ended loopId) (fun _ _ => True)
      (LoopStore.single newLoop) (quietSteps ++ [pauseCall]) := by
  intro h
  have hconverged : phaseAfter quietSteps = some (some .converged) := by decide +kernel
  have hpaused : phaseAfter (quietSteps ++ [pauseCall]) = some (some .paused) := by decide +kernel
  obtain ⟨store, hrun, hphase⟩ := Option.map_eq_some_iff.mp hconverged
  obtain ⟨state, hstate, hstatePhase⟩ := Option.map_eq_some_iff.mp hphase
  obtain ⟨store', hrun', hphase'⟩ := Option.map_eq_some_iff.mp hpaused
  rw [runLabels_append, hrun, Option.bind_some] at hrun'
  obtain ⟨state', hstate', hterminal⟩ := h newLoop.loopId quietSteps [pauseCall] [] store store' rfl
    hrun ⟨state, hstate, by rw [hstatePhase]; decide⟩ ⟨trivial, fun _ _ => trivial⟩ hrun'
  rw [hstate', Option.map_some, Option.some.injEq] at hphase'
  rw [hphase'] at hterminal
  exact absurd hterminal (by decide)

end SecOpent
