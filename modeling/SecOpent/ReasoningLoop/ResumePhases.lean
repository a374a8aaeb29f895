import SecOpent.ReasoningLoop.PauseLimit

/-!
# Which loops can be resumed

A resume is recorded as the end of a pause, and credits the time since the pause to the budget. The
phases that it refuses are a list of dead phases, so a loop in any other phase is resumed whether it was
paused or not, and the resume counts as one of its pauses.

## Main definitions

* `PauseControl.Refuses`: a resume raises, and nothing is written

## Main results

* `refuses_iff`: a resume is refused in a dead phase, or if it is not admitted
* `resume_only_when_paused_iff`: when a loop that is not paused cannot be resumed
-/

namespace SecOpent

namespace PauseControl

variable (control : PauseControl) (loopId : LoopId) (request : ResumeRequest) (now : Time)
  (state : LoopState)

/-- The resume raises and does nothing, so the record stays as it is. -/
def Refuses : Prop :=
  (∃ error, (control.resume loopId request now (some state)).result = .error error) ∧
    (control.resume loopId request now (some state)).effects = []

variable {control loopId request now state}

/-- A refused resume leaves the record of the loop, with its phase, its pauses and its budget. -/
theorem Refuses.get?_perform {store : LoopStore} {session : Bool} {accepts : LoopEvent → Bool}
    (h : control.Refuses loopId request now state) (hstate : store.get? loopId = some state) :
    (store.perform session accepts (control.resume loopId request now (some state))).get? loopId =
      some state := by
  rcases LoopStore.perform_cases session accepts (control.resume loopId request now (some state)) loopId
    with hsame | ⟨saved, hdone, -, -⟩
  · exact hsame.trans hstate
  · -- There is no effect to carry out.
    have hmem := LoopStore.mem_of_mem_carriedOut hdone
    rw [h.2] at hmem
    cases hmem

/-- **A resume is refused** in a dead phase, or if it is not admitted. -/
theorem refuses_iff :
    control.Refuses loopId request now state ↔
      state.phase ∈ deadPhases ∨ ¬control.ResumeAdmitted loopId request state := by
  constructor
  · rintro ⟨-, heffects⟩
    by_contra hnot
    push Not at hnot
    rw [resume_effects hnot.2 hnot.1] at heffects
    cases heffects
  · intro h
    -- The checks of `resume`, in their order.
    rw [Refuses, resume]
    by_cases hrole : request.actorRole = "agent"
    · rw [if_pos hrole]
      exact ⟨⟨_, rfl⟩, rfl⟩
    by_cases hdead : state.phase ∈ deadPhases
    · rw [if_neg hrole, if_pos hdead]
      exact ⟨⟨_, rfl⟩, rfl⟩
    rw [if_neg hrole, if_neg hdead]
    cases hbudget : control.policy.pauseBudgetExceeded (state.pauseAttempts + 1) with
    | true => exact ⟨⟨_, rfl⟩, rfl⟩
    | false =>
      cases happroval : control.approval loopId request with
      | error error => exact ⟨⟨_, rfl⟩, rfl⟩
      | ok _ =>
        rcases h with h | h
        · exact absurd h hdead
        · exact absurd ⟨hrole, hbudget, happroval⟩ h

end PauseControl

/-- **A resume of a loop that is not paused is refused**, and leaves its record as it is, exactly if the
loop is in one of the dead phases or the resume is not admitted: the actor is an agent, the pauses are
used up, or there is no approval. -/
theorem resume_only_when_paused_iff (control : PauseControl) (loopId : LoopId) (request : ResumeRequest)
    (now : Time) (state : LoopState) :
    (state.phase ≠ .paused →
        (∃ error, (control.resume loopId request now (some state)).result = .error error) ∧
        ∀ (store : LoopStore) (session : Bool) (accepts : LoopEvent → Bool),
          store.get? loopId = some state →
          (store.perform session accepts (control.resume loopId request now (some state))).get? loopId =
            some state) ↔
      state.phase = .paused ∨ state.phase ∈ deadPhases ∨
        ¬control.ResumeAdmitted loopId request state := by
  constructor
  · intro h
    by_contra hnot
    push Not at hnot
    obtain ⟨hpaused, hdead, hadmitted⟩ := hnot
    -- It goes through, in whatever phase the loop is.
    obtain ⟨⟨error, herror⟩, -⟩ := h hpaused
    rw [PauseControl.resume_effects hadmitted hdead] at herror
    cases herror
  · rintro (hpaused | hrefused) hnot
    · exact absurd hpaused hnot
    · have hrefuses : control.Refuses loopId request now state := PauseControl.refuses_iff.mpr hrefused
      exact ⟨hrefuses.1, fun store session accepts hstate => hrefuses.get?_perform hstate⟩

/-- A loop that was never paused is resumed, and has one pause less. -/
theorem running_loop_resumed :
    let request : ResumeRequest :=
      { actor := "bob", approvedBy := some "cara", signature := some "sig-123" }
    let state := { newLoop with phase := .running }
    let resumed := PauseControl.resume {} newLoop.loopId request 4 (some state)
    state.phase ≠ .paused ∧
      resumed.result = .ok { state with phase := .resumed, pauseAttempts := 1, resumedAt := some 4 } :=
  ⟨by decide, rfl⟩

end SecOpent
