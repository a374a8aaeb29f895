import SecOpent.ReasoningLoop.LoopEffects

/-!
# Pausing and resuming a loop

`application/reasoning_loop/pause_control.py` with `application/ports/loop_approval.py`: a human
freezes a loop, and a human-signed approval lets it go on. The time of the pause is credited to the
wall budget of the loop. The phases that can be neither paused nor resumed are a list of their own,
which leaves out `CONVERGED`.

## Main definitions

* `ResumeRequest`, `validateLoopApprovalParams`
* `PauseControl.pause`, `PauseControl.resume`

## Main results

* `pause_saves`, `resume_saves`: what the two write
* `pause_effects`, `resume_effects`: what the two do when they are admitted
* `pause_writesIf`, `resume_writesIf`: when the two write
-/

namespace SecOpent

open Python

/-- `_TERMINAL_PHASES` and `_RESUME_BLOCKED_PHASES` of the pause control. -/
def deadPhases : List LoopPhase := [.budgetExhausted, .policyBlocked, .emergencyStopped, .completed]

/-- The arguments of `resume`; a modified context is recorded as it is. -/
structure ResumeRequest where
  actor : String
  actorRole : String := "human"
  approvedBy : Option String := none
  signature : Option String := none
  nonce : Option String := none
  expiresAt : Option Time := none
  modifiedContext : Option Json := none

/-- `validate_loop_approval_params`, which is all that `SignedLoopApproval` asks for. -/
def validateLoopApprovalParams (_loopId : LoopId) (request : ResumeRequest) : Except LoopError Unit :=
  if request.actorRole = "agent" then
    .error (.approvalRejected "pause/resume is human-only (403): agents are rejected")
  else if request.approvedBy.getD "" = "" ∨ request.signature.getD "" = "" then
    .error (.approvalRequired "a human approval requires approved_by and signature")
  else .ok ()

/-- `PauseControlService`: the approval port, and the policy with the number of pauses. -/
structure PauseControl where
  approval : LoopId → ResumeRequest → Except LoopError Unit := validateLoopApprovalParams
  policy : LoopTerminationPolicy := .default

/-- `credit_budget`, with the credit in microseconds: whole seconds are subtracted, down to 0. -/
def creditBudget (budget : LoopBudget) (wallCredit : Time) : LoopBudget :=
  { budget with wallSecondsUsed := max 0 (budget.wallSecondsUsed - wallCredit.fdiv 1000000) }

/-- `LookupError`, of a loop without a record. -/
def noLoopState (loopId : LoopId) : LoopError := .lookup ("no loop state for " ++ loopId.value)

namespace PauseControl

variable (control : PauseControl) (loopId : LoopId)

/-- The record of a paused loop. -/
def pausedState (state : LoopState) (now : Time) : LoopState :=
  { state with phase := .paused, pausedAt := some now }

/-- The payload of `loop.paused`. -/
def pausedPayload (reason : String) (state : LoopState) : List (String × Json) :=
  [("reason", .text reason), ("phase", .text "PAUSED"), ("context_hash", .text state.contextHash)]

/-- `pause`, on the record that it read. -/
def pause (actor reason actorRole : String) (now : Time) (read : Option LoopState) :
    LoopActing LoopState :=
  if actorRole = "agent" then
    .raise (.approvalRejected "pause is human-only (403): agents are rejected")
  else
    match read with
    | none => .raise (noLoopState loopId)
    | some state =>
      if state.phase = .paused then pure state
      else if state.phase ∈ deadPhases then
        .raise (.domain ("cannot pause a dead loop: phase=" ++ state.phase.value ++ " (loop " ++
          loopId.value ++ ")"))
      else do
        save (pausedState state now)
        record actor "loop.paused" loopId (pausedPayload reason state)
        pure (pausedState state now)

/-- The time since the loop was paused. -/
def wallCredit (state : LoopState) (now : Time) : Time :=
  match state.pausedAt with
  | some pausedAt => now - pausedAt
  | none => 0

/-- The record of a resumed loop. -/
def resumedState (state : LoopState) (now : Time) : LoopState :=
  { state with
    phase := .resumed
    pauseAttempts := state.pauseAttempts + 1
    pausedAt := none
    resumedAt := some now
    budget := creditBudget state.budget (wallCredit state now) }

/-- The payload of `loop.resumed`. -/
def resumedPayload (request : ResumeRequest) (state : LoopState) (now : Time) :
    List (String × Json) :=
  [("approved_by", request.approvedBy.elim .null .text), ("phase", .text "RESUMED"),
      ("pause_attempts", .int (state.pauseAttempts + 1)),
      ("wall_credit_seconds", .int ((wallCredit state now).tdiv 1000000))] ++
    (request.modifiedContext.map fun context => ("modified_context", context)).toList

/-- `resume`, on the record that it read. -/
def resume (request : ResumeRequest) (now : Time) (read : Option LoopState) :
    LoopActing LoopState :=
  if request.actorRole = "agent" then
    .raise (.approvalRejected "resume is human-only (403): agents are rejected")
  else
    match read with
    | none => .raise (noLoopState loopId)
    | some state =>
      if state.phase ∈ deadPhases then
        .raise (.domain ("cannot resume a stopped loop: phase=" ++ state.phase.value ++ " (loop " ++
          loopId.value ++ ")"))
      else if control.policy.pauseBudgetExceeded (state.pauseAttempts + 1) then
        .raise (.pauseBudgetExceeded ("loop " ++ loopId.value ++ " exceeds max_pauses=" ++
          intText control.policy.maxPauses ++ " (attempts=" ++ intText (state.pauseAttempts + 1) ++
          ")"))
      else do
        .ofExcept (control.approval loopId request)
        save (resumedState state now)
        record request.actor "loop.resumed" loopId (resumedPayload request state now)
        pure (resumedState state now)

/-- The arguments of a resume are admitted, for a loop with this record. -/
def ResumeAdmitted (request : ResumeRequest) (state : LoopState) : Prop :=
  request.actorRole ≠ "agent" ∧
    control.policy.pauseBudgetExceeded (state.pauseAttempts + 1) = false ∧
    control.approval loopId request = .ok ()

section Spec

variable {control} {loopId} {actor reason actorRole : String} {now : Time}
  {read : Option LoopState} {request : ResumeRequest} {state : LoopState}

/-- An admitted pause of a loop that is neither paused nor dead. -/
theorem pause_effects (hrole : actorRole ≠ "agent") (hpaused : state.phase ≠ .paused)
    (hdead : state.phase ∉ deadPhases) :
    pause loopId actor reason actorRole now (some state) =
      ⟨[.save (pausedState state now),
        .record ⟨actor, "loop.paused", loopId.value, pausedPayload reason state⟩],
        .ok (pausedState state now)⟩ := by
  simp only [pause, if_neg hrole, if_neg hpaused, if_neg hdead]
  rfl

/-- A pause that writes found a loop that is neither paused nor dead, and pauses it. -/
theorem pause_saves :
    Saves (fun saved => ∃ state, read = some state ∧ state.phase ≠ .paused ∧
        state.phase ∉ deadPhases ∧ actorRole ≠ "agent" ∧ saved = pausedState state now)
      (pause loopId actor reason actorRole now read) := by
  unfold pause
  refine Acting.Only.ite (fun _ => Acting.Only.raise _) fun hrole => ?_
  cases read with
  | none => exact Acting.Only.raise _
  | some state =>
    refine Acting.Only.ite (fun _ => Acting.Only.pure _) fun hpaused => ?_
    refine Acting.Only.ite (fun _ => Acting.Only.raise _) fun hdead => ?_
    refine (Saves.save ⟨state, rfl, hpaused, hdead, hrole, rfl⟩).bind fun _ _ => ?_
    exact (Saves.record _ _ _ _).bind fun _ _ => Acting.Only.pure _

/-- An admitted resume of a loop that is not dead. -/
theorem resume_effects (h : control.ResumeAdmitted loopId request state)
    (hdead : state.phase ∉ deadPhases) :
    control.resume loopId request now (some state) =
      ⟨[.save (resumedState state now),
        .record ⟨request.actor, "loop.resumed", loopId.value, resumedPayload request state now⟩],
        .ok (resumedState state now)⟩ := by
  obtain ⟨hrole, hbudget, happroval⟩ := h
  simp only [resume, if_neg hrole, if_neg hdead, hbudget, happroval]
  rfl

/-- A resume that writes found a loop that is not dead. -/
theorem resume_saves :
    Saves (fun saved => ∃ state, read = some state ∧ state.phase ∉ deadPhases ∧
        control.ResumeAdmitted loopId request state ∧ saved = resumedState state now)
      (control.resume loopId request now read) := by
  unfold resume
  refine Acting.Only.ite (fun _ => Acting.Only.raise _) fun hrole => ?_
  cases read with
  | none => exact Acting.Only.raise _
  | some state =>
    refine Acting.Only.ite (fun _ => Acting.Only.raise _) fun hdead => ?_
    refine Acting.Only.ite (fun _ => Acting.Only.raise _) fun hbudget => ?_
    refine Saves.bind (Acting.Only.ofExcept _) fun _ happroval => ?_
    have hadmitted : control.ResumeAdmitted loopId request state :=
      ⟨hrole, by simpa using hbudget, happroval⟩
    refine (Saves.save ⟨state, rfl, hdead, hadmitted, rfl⟩).bind fun _ _ => ?_
    exact (Saves.record _ _ _ _).bind fun _ _ => Acting.Only.pure _

/-- When a pause writes. -/
theorem pause_writesIf :
    WritesIf (∃ state, read = some state ∧ actorRole ≠ "agent" ∧ state.phase ≠ .paused ∧
        state.phase ∉ deadPhases) (pause loopId actor reason actorRole now read) := by
  constructor
  · rintro ⟨state, rfl, hrole, hpaused, hdead⟩
    rw [pause_effects hrole hpaused hdead]
    exact ⟨⟨_, rfl⟩, _, List.mem_cons_self⟩
  · intro hnot
    unfold pause
    split
    · rfl
    · cases read with
      | none => rfl
      | some state =>
        simp only
        split
        · rfl
        · split
          · rfl
          · exact absurd ⟨state, rfl, ‹_›, ‹_›, ‹_›⟩ hnot

/-- When a resume writes. -/
theorem resume_writesIf :
    WritesIf (∃ state, read = some state ∧ state.phase ∉ deadPhases ∧
        control.ResumeAdmitted loopId request state) (control.resume loopId request now read) := by
  constructor
  · rintro ⟨state, rfl, hdead, hadmitted⟩
    rw [resume_effects hadmitted hdead]
    exact ⟨⟨_, rfl⟩, _, List.mem_cons_self⟩
  · intro hnot
    unfold resume
    split
    · rfl
    next hrole =>
      cases read with
      | none => rfl
      | some state =>
        simp only
        split
        · rfl
        next hdead =>
          split
          · rfl
          next hbudget =>
            cases happroval : control.approval loopId request with
            | error error => rfl
            | ok _ =>
              exact absurd ⟨state, rfl, hdead, hrole, by simpa using hbudget, happroval⟩ hnot

end Spec

end PauseControl

end SecOpent
