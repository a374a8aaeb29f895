import SecOpent.ReasoningLoop.StepBudget

/-!
# The wall budget of a loop

A clock beside the repositories tells for how long a loop has been running, without its pauses. No
step charges that time to the wall budget: the seconds that are used change when a loop is resumed
only, by the credit for its pause. So a step beyond the wall budget ends the loop exactly if it uses
up the budget in another way, what is charged is the time that the loop has been running only where
it was so before the step, and a resume takes away whatever seconds were charged before the pause.

## Main definitions

* `LoopClock`, `LoopClock.elapsed`: the repositories, and the time that the loop has been running
* `EndsInTime`, `ChargesRunning`, `KeepsCharged`: what the wall budget promises of a call

## Main results

* `wall_clock_iff`: when the calls of a run keep these promises
* `never_charged`: a loop without charged seconds never has any
-/

namespace SecOpent

open Python Transition

/-! ## Time -/

/-- The clock when the operation writes. -/
def LoopOp.now : LoopOp → Time
  | .runStep answers => answers.now
  | .pause _ _ _ now => now
  | .resume _ now => now
  | .resumeLoop _ now => now
  | .emergencyStop _ _ now => now

/-- The record of the loop says that it is paused. -/
def isPaused (loopId : LoopId) (store : LoopStore) : Bool :=
  (store.get? loopId).any fun state => state.phase = .paused

/-- The repositories, the time that the loop has spent in pauses, and the start of a pause that is not
over. -/
structure LoopClock where
  store : LoopStore
  paused : Time := 0
  since : Option Time := none

/-- The time for which the loop has been running at `now`. -/
def LoopClock.elapsed (w : LoopClock) (state : LoopState) (now : Time) : Time :=
  now - state.startedAt - w.paused

variable (d : LoopDeployment) (H : Sha256) (loopId : LoopId)

/-- What a call leaves in the repositories. -/
def LoopClock.after (w : LoopClock) (call : LoopCall) : LoopStore :=
  w.store.perform call.session call.accepts (d.acting H w.store call)

/-- One call: a pause begins, a pause is over, or neither. -/
def LoopClock.step (w : LoopClock) (call : LoopCall) : Option LoopClock :=
  let store := w.after d H call
  match w.since, isPaused loopId store with
  | none, true => some ⟨store, w.paused, some call.op.now⟩
  | some since, false => some ⟨store, w.paused + (call.op.now - since), none⟩
  | since, _ => some ⟨store, w.paused, since⟩

/-! ## What the wall budget promises -/

/-- A step of a loop that has been running for all its wall seconds ends the loop. -/
def EndsInTime (w : LoopClock) (call : LoopCall) : Prop :=
  ∀ answers state saved, call.op = .runStep answers → takesStep d H loopId w.store call = true →
    w.store.get? loopId = some state → (w.after d H call).get? loopId = some saved →
    state.budget.maxWallSeconds * 1000000 ≤ w.elapsed state answers.now →
    saved.phase = .budgetExhausted

/-- After a step the seconds that are charged are those for which the loop has been running. -/
def ChargesRunning (w : LoopClock) (call : LoopCall) : Prop :=
  ∀ answers state saved, call.op = .runStep answers → takesStep d H loopId w.store call = true →
    w.store.get? loopId = some state → (w.after d H call).get? loopId = some saved →
    saved.budget.wallSecondsUsed = (w.elapsed state answers.now).fdiv 1000000

/-- Whatever is no step leaves the seconds that are charged. -/
def KeepsCharged (w : LoopClock) (call : LoopCall) : Prop :=
  ∀ state saved, takesStep d H loopId w.store call = false →
    w.store.get? loopId = some state → (w.after d H call).get? loopId = some saved →
    saved.budget.wallSecondsUsed = state.budget.wallSecondsUsed

/-! ## When it keeps them -/

/-- A step of a loop that has been running for all its wall seconds uses up steps or tokens, or the
wall seconds are charged already. -/
def UsesUpBudget (w : LoopClock) (call : LoopCall) : Prop :=
  StepGoesThrough d H loopId w.store call → ∀ answers state, call.op = .runStep answers →
    w.store.get? loopId = some state →
    state.budget.maxWallSeconds * 1000000 ≤ w.elapsed state answers.now →
    (state.budget.consume 1 (answers.tokens d.orchestrator state) 0).exhausted = true

/-- Before a step the seconds that are charged are those for which the loop has been running. -/
def AlreadyCharged (w : LoopClock) (call : LoopCall) : Prop :=
  StepGoesThrough d H loopId w.store call → ∀ answers state, call.op = .runStep answers →
    w.store.get? loopId = some state →
    state.budget.wallSecondsUsed = (w.elapsed state answers.now).fdiv 1000000

/-- The call is a resume of the loop that goes through: it is admitted, and its event recorded. -/
def ResumeGoesThrough (store : LoopStore) (call : LoopCall) (state : LoopState) (now : Time) : Prop :=
  call.loopId = loopId ∧ store.get? loopId = some state ∧ state.phase ∉ deadPhases ∧
    (∃ control request, d.resumes call.op = some (control, request, now) ∧
      control.ResumeAdmitted loopId request state) ∧
    LoopStore.Recorded call.session call.accepts (d.acting H store call)

/-- A resume credits less than a second, or nothing is charged that a credit could take away. -/
def CreditsNothing (w : LoopClock) (call : LoopCall) : Prop :=
  ∀ state now, ResumeGoesThrough d H loopId w.store call state now →
    0 ≤ state.budget.wallSecondsUsed ∧
      ((PauseControl.wallCredit state now).fdiv 1000000 = 0 ∨
        state.budget.wallSecondsUsed = 0 ∧ 0 ≤ (PauseControl.wallCredit state now).fdiv 1000000)

section Spec

variable {d} {H} {loopId} {store : LoopStore} {call : LoopCall} {state saved : LoopState}
  {w w' : LoopClock} {calls : List LoopCall} {now : Time}

/-! ## One call -/

theorem LoopClock.store_of_step (h : LoopClock.step d H loopId w call = some w') :
    w'.store = w.after d H call := by
  unfold LoopClock.step at h
  simp only at h
  split at h <;>
    · cases h
      rfl

/-- Neither stopped nor paused, the loop ends for its budget exactly if that is used up. -/
theorem SteppedWith.phase_iff {tokens : ℤ} (hlive : ¬state.phase.Terminal)
    (hauto : state.phase ∉ LoopPhase.nonAutoStepPhases) (h : SteppedWith tokens now state saved) :
    saved.phase = .budgetExhausted ↔ (state.budget.consume 1 tokens 0).exhausted = true := by
  have hstopped : state.phase ≠ .emergencyStopped := LoopPhase.ne_emergencyStopped hlive
  have hpaused : state.phase ≠ .paused := LoopPhase.ne_paused hauto
  rw [← h.budget]
  refine ⟨fun hphase => ?_, h.phase_of_exhausted hstopped hpaused⟩
  obtain ⟨step, passed, -, rfl⟩ := h
  by_contra hleft
  have hbudget : (LoopFeedback.apply state step passed step.observationSignals.length
      now).budget.exhausted = false := by simpa [afterStep] using hleft
  have hphases : (LoopFeedback.apply state step passed step.observationSignals.length now).phase =
      state.phase := rfl
  simp only [afterStep, evaluateTermination, hbudget, hphases, if_neg hstopped, if_neg hpaused,
    Bool.false_eq_true, if_false] at hphase
  split at hphase
  · cases hphase
  · split at hphase <;> cases hphase

theorem endsInTime_iff : EndsInTime d H loopId w call ↔ UsesUpBudget d H loopId w call := by
  constructor
  · intro h hgoes answers state hop hread helapsed
    have htakes := takesStep_iff.mpr hgoes
    obtain ⟨answers', found, saved, hop', hfound, hafter, hlive, hauto, hstepped⟩ :=
      of_takesStep htakes
    rw [hop] at hop'
    cases hop'
    rw [hread] at hfound
    cases hfound
    exact (hstepped.phase_iff hlive hauto).mp (h answers _ saved hop htakes hread hafter helapsed)
  · intro h answers state saved hop htakes hread hafter helapsed
    obtain ⟨answers', found, last, hop', hfound, hlast, hlive, hauto, hstepped⟩ :=
      of_takesStep htakes
    rw [hop] at hop'
    cases hop'
    rw [hread] at hfound
    cases hfound
    rw [LoopClock.after, hlast] at hafter
    cases hafter
    exact (hstepped.phase_iff hlive hauto).mpr
      (h (takesStep_iff.mp htakes) answers _ hop hread helapsed)

theorem chargesRunning_iff :
    ChargesRunning d H loopId w call ↔ AlreadyCharged d H loopId w call := by
  -- A step leaves the seconds as they are.
  have hkeeps : ∀ {answers state saved}, call.op = .runStep answers →
      takesStep d H loopId w.store call = true → w.store.get? loopId = some state →
      (w.after d H call).get? loopId = some saved →
      saved.budget.wallSecondsUsed = state.budget.wallSecondsUsed := by
    intro answers state saved hop htakes hread hafter
    obtain ⟨_, found, last, -, hfound, hlast, -, -, hstepped⟩ := of_takesStep htakes
    rw [hread] at hfound
    cases hfound
    rw [LoopClock.after, hlast] at hafter
    cases hafter
    rw [hstepped.budget]
    exact add_zero _
  constructor
  · intro h hgoes answers state hop hread
    have htakes := takesStep_iff.mpr hgoes
    obtain ⟨_, _, saved, -, -, hafter, -⟩ := of_takesStep htakes
    rw [← hkeeps hop htakes hread hafter]
    exact h answers state saved hop htakes hread hafter
  · intro h answers state saved hop htakes hread hafter
    rw [hkeeps hop htakes hread hafter]
    exact h (takesStep_iff.mp htakes) answers state hop hread

/-- What an admitted resume does. -/
theorem acting_of_resumes {control : PauseControl} {request : ResumeRequest}
    (hresumes : d.resumes call.op = some (control, request, now))
    (hread : store.get? call.loopId = some state) (hdead : state.phase ∉ deadPhases)
    (hadmitted : control.ResumeAdmitted call.loopId request state) :
    d.acting H store call =
      ⟨[.save (PauseControl.resumedState state now),
        .record ⟨request.actor, "loop.resumed", call.loopId.value,
          PauseControl.resumedPayload request state now⟩], .ok ()⟩ := by
  rw [LoopDeployment.acting, hread]
  cases hop : call.op with
  | runStep answers => simp [hop, LoopDeployment.resumes] at hresumes
  | pause actor reason actorRole now => simp [hop, LoopDeployment.resumes] at hresumes
  | emergencyStop actor reason now => simp [hop, LoopDeployment.resumes] at hresumes
  | resume request' now' =>
    rw [hop, LoopDeployment.resumes, Option.some.injEq] at hresumes
    cases hresumes
    rw [LoopDeployment.act, discard, PauseControl.resume_effects hadmitted hdead]
    rfl
  | resumeLoop request' now' =>
    rw [hop, LoopDeployment.resumes] at hresumes
    obtain ⟨found, hfound, heq⟩ := Option.map_eq_some_iff.mp hresumes
    cases heq
    simp only [LoopDeployment.act, discard, ReasoningLoopOrchestrator.resumeLoop, hfound,
      PauseControl.resume_effects hadmitted hdead]
    rfl

/-- The record after a resume that goes through. -/
theorem get?_after_resume (h : ResumeGoesThrough d H loopId w.store call state now) :
    (w.after d H call).get? loopId = some (PauseControl.resumedState state now) := by
  obtain ⟨rfl, hread, hdead, ⟨control, request, hresumes, hadmitted⟩, hrecorded⟩ := h
  have hacting := acting_of_resumes (H := H) hresumes hread hdead hadmitted
  have hwrites : Writes (d.acting H w.store call) := by
    rw [hacting]
    exact ⟨⟨(), rfl⟩, _, List.mem_cons_self⟩
  obtain ⟨saved, hsaved, hget⟩ := get?_perform_of_save hread (acting_saves hread)
    ((LoopStore.save_mem_carriedOut_iff hwrites).mpr hrecorded)
  rw [hacting] at hsaved
  have heq : saved = PauseControl.resumedState state now := by simpa using hsaved
  rw [← heq]
  exact hget

/-- The seconds that are charged after a call: those before it, unless it is a resume. -/
theorem wallSecondsUsed_after (hread : w.store.get? loopId = some state)
    (hafter : (w.after d H call).get? loopId = some saved) :
    saved.budget.wallSecondsUsed = state.budget.wallSecondsUsed ∨
      ∃ now, ResumeGoesThrough d H loopId w.store call state now ∧
        saved = PauseControl.resumedState state now := by
  cases htakes : takesStep d H loopId w.store call with
  | true =>
    obtain ⟨_, found, last, -, hfound, hlast, -, -, hstepped⟩ := of_takesStep htakes
    rw [hread] at hfound
    cases hfound
    rw [LoopClock.after, hlast] at hafter
    cases hafter
    rw [hstepped.budget]
    exact .inl (add_zero _)
  | false =>
    obtain ⟨last, hlast, hcases⟩ := of_not_takesStep hread htakes
    rw [LoopClock.after, hlast] at hafter
    cases hafter
    rcases hcases with rfl | ⟨hcall, hleaves, hdone⟩
    · exact .inl rfl
    · rcases hleaves.budget with hsame | ⟨control, request, now, hresumes, hdead, hadmitted, hsaved⟩
      · exact .inl (by rw [hsame])
      · rw [LoopStore.loopId_of_get? hread] at hadmitted
        subst hcall
        have hwrites : Writes (d.acting H w.store call) := by
          rw [acting_of_resumes hresumes hread hdead hadmitted]
          exact ⟨⟨(), rfl⟩, _, List.mem_cons_self⟩
        exact .inr ⟨now, ⟨rfl, hread, hdead, ⟨control, request, hresumes, hadmitted⟩,
          (LoopStore.save_mem_carriedOut_iff hwrites).mp ⟨_, hdone⟩⟩, hsaved⟩

/-- A credit that is whole seconds takes away what is charged, down to nothing. -/
theorem creditBudget_eq_iff (budget : LoopBudget) (credit : Time) :
    (creditBudget budget credit).wallSecondsUsed = budget.wallSecondsUsed ↔
      0 ≤ budget.wallSecondsUsed ∧
        (credit.fdiv 1000000 = 0 ∨ budget.wallSecondsUsed = 0 ∧ 0 ≤ credit.fdiv 1000000) := by
  rw [creditBudget]
  generalize credit.fdiv 1000000 = seconds
  generalize budget.wallSecondsUsed = used
  simp only
  omega

theorem keepsCharged_iff : KeepsCharged d H loopId w call ↔ CreditsNothing d H loopId w call := by
  constructor
  · intro h state now hgoes
    have hstep : takesStep d H loopId w.store call = false := by
      obtain ⟨-, -, -, ⟨control, request, hresumes, -⟩, -⟩ := hgoes
      cases hop : call.op <;> simp_all [LoopDeployment.resumes, takesStep, LoopOp.isRunStep]
    exact (creditBudget_eq_iff _ _).mp (h state _ hstep hgoes.2.1 (get?_after_resume hgoes))
  · intro h state saved _ hread hafter
    rcases wallSecondsUsed_after hread hafter with hsame | ⟨now, hgoes, rfl⟩
    · exact hsame
    · exact (creditBudget_eq_iff _ _).mpr (h state now hgoes)

/-! ## Runs -/

/-- **The wall budget of a loop** over a sequence of calls, whatever the clock says. A step beyond the
wall seconds ends the loop exactly if it uses up the budget without them, the running time is charged
exactly where it was charged before, and a pause takes nothing away exactly if its credit is less than
a second, or there is nothing to take. -/
theorem wall_clock_iff (d : LoopDeployment) (H : Sha256) (loopId : LoopId) (w : LoopClock)
    (calls : List LoopCall) :
    (runMeets (LoopClock.step d H loopId) (EndsInTime d H loopId) w calls ↔
        runMeets (LoopClock.step d H loopId) (UsesUpBudget d H loopId) w calls) ∧
      (runMeets (LoopClock.step d H loopId) (ChargesRunning d H loopId) w calls ↔
        runMeets (LoopClock.step d H loopId) (AlreadyCharged d H loopId) w calls) ∧
      (runMeets (LoopClock.step d H loopId) (KeepsCharged d H loopId) w calls ↔
        runMeets (LoopClock.step d H loopId) (CreditsNothing d H loopId) w calls) :=
  ⟨runMeets_congr fun _ _ => endsInTime_iff, runMeets_congr fun _ _ => chargesRunning_iff,
    runMeets_congr fun _ _ => keepsCharged_iff⟩

/-- No resume credits a pause that has ended before it began. -/
def CreditsForward (d : LoopDeployment) (H : Sha256) (loopId : LoopId) (w : LoopClock)
    (call : LoopCall) : Prop :=
  ∀ state now, ResumeGoesThrough d H loopId w.store call state now →
    0 ≤ (PauseControl.wallCredit state now).fdiv 1000000

/-- **Nothing is ever charged**: as long as the clock does not go back during a pause, a loop that has
no charged seconds at the start has none after any sequence of calls. -/
theorem never_charged
    (hstart : ∀ state, w.store.get? loopId = some state → state.budget.wallSecondsUsed = 0)
    (hforward : runMeets (LoopClock.step d H loopId) (CreditsForward d H loopId) w calls)
    (hrun : runLabels (LoopClock.step d H loopId) w calls = some w') :
    ∀ state, w'.store.get? loopId = some state → state.budget.wallSecondsUsed = 0 := by
  refine of_runMeets_preserves (P := fun w => ∀ state, w.store.get? loopId = some state →
    state.budget.wallSecondsUsed = 0) hstart ?_ hforward hrun
  refine runMeets_of_forall fun call _ w huncharged hforward w' hstep saved hafter => ?_
  rw [LoopClock.store_of_step hstep] at hafter
  cases hread : w.store.get? loopId with
  | none =>
    -- No operation makes a record where there was none.
    rcases LoopStore.perform_cases call.session call.accepts (d.acting H w.store call) loopId with
      hsame | ⟨found, hdone, hid, -⟩
    · rw [LoopClock.after, hsame, hread] at hafter
      cases hafter
    · obtain ⟨⟨state, hstate, hsame⟩, -⟩ :=
        act_saves call.op _ (LoopStore.mem_of_mem_carriedOut hdone) found rfl
      have hcall : call.loopId = loopId :=
        (LoopStore.loopId_of_get? hstate).symm.trans (hsame.symm.trans hid)
      rw [hcall, hread] at hstate
      cases hstate
  | some state =>
    have hzero := huncharged state hread
    rcases wallSecondsUsed_after hread hafter with hsame | ⟨now, hgoes, rfl⟩
    · exact hsame.trans hzero
    · have hkept := (creditBudget_eq_iff state.budget (PauseControl.wallCredit state now)).mpr
        ⟨hzero.ge, .inr ⟨hzero, hforward state now hgoes⟩⟩
      exact hkept.trans hzero

end Spec

/-! ### A step after an hour -/

/-- A step an hour after the loop was created, with a wall budget of half an hour. -/
def lateStep : LoopCall :=
  { loopId := newLoop.loopId, op := .runStep { unavailableAnswers with now := 3600000000 } }

/-- The loop runs on. -/
theorem late_step_runs_on :
    ¬runMeets (LoopClock.step pausingDeployment codeDigest newLoop.loopId)
      (EndsInTime pausingDeployment codeDigest newLoop.loopId) ⟨.single newLoop, 0, none⟩
      [lateStep] := by
  rintro ⟨h, -⟩
  have htakes : takesStep pausingDeployment codeDigest newLoop.loopId (.single newLoop) lateStep =
      true := by decide +kernel
  have hphase : (((⟨.single newLoop, 0, none⟩ : LoopClock).after pausingDeployment codeDigest
      lateStep).get? newLoop.loopId).map LoopState.phase = some .running := by decide +kernel
  obtain ⟨saved, hafter, hrunning⟩ := Option.map_eq_some_iff.mp hphase
  have hended := h _ newLoop saved rfl htakes rfl hafter (by decide)
  rw [hrunning] at hended
  cases hended

end SecOpent
