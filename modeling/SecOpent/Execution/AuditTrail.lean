import SecOpent.Execution.Calls
import SecOpent.Transition.Conditions

/-!
# The audit trail of an execution

Pauses and cancellations may land at any point of `execute_assessment`. The gate sees those that land
before its last reading; the others meet the writes of the status at the end, which the transition
table refuses. The `except` clause then records `assessment.failed`, whether or not its own write was
accepted.

## Main definitions

* `Executor.TrailAgrees`: the status and the events of a call that has returned
* `Executor.InTime`: the steps after which they agree
* `Executor.Linked`, `Gated`, `Told`: the invariants, of the row, of the gate and of the events

## Main results

* `agreeing_step`: agreement is lost at the steps that are not in time, and nowhere else
* `trail_agrees_iff`: the runs in which status and events agree
* `late_requests_disagree`: a pause during the last step, and a cancellation while queued
-/

namespace SecOpent

open Python Transition

/-! ## Stopped runs -/

theorem after_stopping {o : Orchestrator} {phase : RunPhase} {action : OrchestratorAction}
    {answer : RunAnswer} (h : phase.after o action = some (.stopping answer)) :
    phase = .stopping answer := by
  unfold RunPhase.after at h
  split at h <;> simp_all

theorem after_ne_returned {o : Orchestrator} {phase : RunPhase} {action : OrchestratorAction}
    {answer : RunAnswer} : phase.after o action ≠ some (.returned answer) := by
  intro h
  unfold RunPhase.after at h
  split at h <;> simp_all

/-- A run stands still for its gate, or has returned with what the gate answered. -/
def RunPhase.Stopped (answer : RunAnswer) (phase : RunPhase) : Prop :=
  phase = .stopping answer ∨ phase = .returned answer

/-- A run is stopped by its gate only. -/
theorem PlanRun.stopped_of_step {s s' : PlanRun} {backend : Backend} {ttl : Time} {label : RunLabel}
    {answer : RunAnswer} (h : s.step backend ttl label = some s') (hanswer : answer ≠ .completed)
    (hphase : s'.phase.Stopped answer) : label = .stop answer ∨ s.phase.Stopped answer := by
  cases label with
  | access action =>
    right
    simp only [step, Option.bind_eq_bind, Option.bind_eq_some_iff, Option.some.injEq] at h
    obtain ⟨⟨store, o⟩, -, phase, hafter, rfl⟩ := h
    rcases hphase with rfl | rfl
    · exact .inl (after_stopping hafter)
    · exact absurd hafter after_ne_returned
  | exhaust =>
    simp only [step] at h
    split at h
    · cases h
      rcases hphase with hphase | hphase <;> cases hphase
      exact absurd rfl hanswer
    · cases h
  | stop other =>
    left
    simp only [step] at h
    split at h
    · split at h
      · cases h
        rcases hphase with hphase | hphase <;> cases hphase
        rfl
      · cases h
    · cases h
  | leave =>
    right
    simp only [step] at h
    split at h
    next other hstopping =>
      split at h
      · cases h
        rcases hphase with hphase | hphase <;> cases hphase
        exact .inl hstopping
      · cases h
    next => cases h
  | next =>
    simp only [step] at h
    split at h
    next rounds executed hmarking =>
      split at h
      · cases h
        cases executed with
        | true => rcases hphase with hphase | hphase <;> cases hphase
        | false =>
          rcases hphase with hphase | hphase <;> cases hphase
          exact absurd rfl hanswer
      · cases h
    next => cases h

/-! ## Skipped jobs -/

theorem get?_skip (store : JobStore) (id other : String) :
    (orElseStore store (store.skip id)).get? other =
      if other = id then (store.get? other).map fun job =>
        { job with status := .skipped, leaseOwner := none, leaseExpiresAt := none }
      else store.get? other := by
  cases hskip : store.skip id with
  | error e =>
    -- Only a job that is not there cannot be skipped.
    have hnone : store.get? id = none := by
      cases hget : store.get? id with
      | none => rfl
      | some job =>
        rw [JobStore.skip, JobStore.update, hget] at hskip
        cases hskip
    split
    next heq => rw [orElseStore, heq, hnone, Option.map_none]
    next => rfl
  | ok store' =>
    rw [orElseStore, JobStore.get?_update hskip]

/-- Skipping leaves the jobs skipped whose turn has come, and the others as they are. -/
theorem mem_foldl_skip {jobs : List Job} {store : JobStore} {job : Job}
    (h : job ∈ (jobs.foldl (fun store job => orElseStore store (store.skip job.id)) store).all) :
    job.status = .skipped ∨ (job ∈ store.all ∧ ∀ other ∈ jobs, other.id ≠ job.id) := by
  induction jobs generalizing store with
  | nil => exact .inr ⟨h, by simp⟩
  | cons first jobs ih =>
    rcases ih h with hskipped | ⟨hmem, hothers⟩
    · exact .inl hskipped
    have hget := JobStore.mem_all.mp hmem
    rw [get?_skip] at hget
    split_ifs at hget with hid
    · obtain ⟨old, -, rfl⟩ := Option.map_eq_some_iff.mp hget
      exact .inl rfl
    · refine .inr ⟨JobStore.mem_all.mpr hget, fun other hother => ?_⟩
      rcases List.mem_cons.mp hother with rfl | hother
      · exact fun heq => hid heq.symm
      · exact hothers other hother

/-- No job is left unfinished. -/
theorem skipUnfinished_finished {store : JobStore} {job : Job}
    (h : job ∈ (skipUnfinished store).all) : job.status ∉ unfinishedStatuses := by
  rcases mem_foldl_skip h with hskipped | ⟨hmem, hothers⟩
  · rw [hskipped]
    decide
  · intro hunfinished
    exact hothers job (List.mem_filter.mpr ⟨hmem, by simpa using hunfinished⟩) rfl

/-! ## The trail -/

/-- The events that do not say how a call has ended. -/
def ExecutionEvent.passes : ExecutionEvent → Bool
  | .started | .hardeningUnavailable | .terminationFailed | .resumed => true
  | _ => false

open ExecutionCall

namespace Executor

variable (E : Executor)

/-- The status and the events of a call that has returned. -/
structure TrailAgrees (c : ExecutionCall) : Prop where
  failed : .failed ∈ c.events → E.statusOf c = some .failed
  completed : .completed ∈ c.events → E.statusOf c = some .completed
  cancelled : E.statusOf c = some .cancelled → .cancelled ∈ c.events ∧
    ∀ job ∈ c.run.store.all, job.Of E.plan → job.status ∉ [.ready, .blocked, .leased]

/-- No exception is handled while a request stands that the gate has not read, and no cancellation
lands when the gate has consumed a pause. -/
def InTime (c : ExecutionCall) : ExecutionMove → Prop
  | .handle => E.statusOf c = some .running ∨ E.statusOf c = some .failed
  | .cancel => c.pauseRead = false
  | _ => True

instance (c : ExecutionCall) : (move : ExecutionMove) → Decidable (E.InTime c move)
  | .handle => inferInstanceAs (Decidable (_ ∨ _))
  | .cancel => inferInstanceAs (Decidable (c.pauseRead = false))
  | .begin | .deny _ | .start | .proceed _ | .run _ | .crash _ | .gateRead | .gateClear | .settle _
  | .finalize _ | .complete | .record | .raise | .pause => .isTrue trivial

/-- Nothing is lost so far. -/
def Agreeing (c : ExecutionCall) : Prop :=
  (.failed ∈ c.events → E.statusOf c = some .failed) ∧
    (c.pauseRead = true → E.statusOf c ≠ some .cancelled)

/-- A pause is requested together with its status, and the gate has read such a row. -/
structure Linked (c : ExecutionCall) : Prop where
  row : ∃ row, c.repo.assessments.get? E.assessmentId = some row ∧
    (row.control = .pauseRequested → row.status = .paused) ∧
    (c.stage = .queued → row.status = .queued ∨ row.status = .cancelled)
  gate : ∀ row, c.stage = .draining (.signal row) → row.id = E.assessmentId ∧
    (row.control = .pauseRequested → row.status = .paused)

/-- The gate that has consumed a pause stands stopped, and a run that is stopped was stopped by its
gate. -/
structure Gated (c : ExecutionCall) : Prop where
  early : c.stage = .queued ∨ c.stage = .checking ∨ c.stage = .scoping → c.pauseRead = false
  read : ∀ gate, c.stage = .draining gate → (c.pauseRead = true ↔ gate = .stopped .paused)
  stopped : ∀ gate decision, c.stage = .draining gate →
    c.run.phase.Stopped decision.answer → gate = .stopped decision
  unstopped : ∀ decision : StopDecision,
    c.stage = .queued ∨ c.stage = .checking ∨ c.stage = .scoping →
    ¬c.run.phase.Stopped decision.answer

/-- What the last event of a call says. -/
def Ending (c : ExecutionCall) : ExecutionEvent → Prop
  | .blocked _ | .emptyExecution => E.statusOf c = some .failed
  | .completed => E.statusOf c = some .completed
  | .paused => c.pauseRead = true
  | .cancelled => c.pauseRead = false ∧ ∀ job ∈ c.run.store.all, job.status ∉ unfinishedStatuses
  | .failed => True
  | _ => False

/-- The events end with the one that says how the call has ended. -/
structure Told (c : ExecutionCall) : Prop where
  passing : c.stage ≠ .returned → ∀ event ∈ c.events, event.passes = true
  recording : c.stage = .recording → E.statusOf c = some .completed
  ending : c.stage = .returned → ∃ before last, c.events = before ++ [last] ∧
    (∀ event ∈ before, event.passes = true) ∧ E.Ending c last

variable {E} {c c' : ExecutionCall} {move : ExecutionMove}

theorem kind_of_moved (h : E.Moved c move c') : c'.kind = c.kind := by
  cases h with
  | threw => exact thrown_kind
  | _ => rfl

/-- The status after a write of the service. -/
theorem statusOf_moved {repo : Repositories} {target : AssessmentStatus}
    {control : Option ControlState}
    (h : AssessmentService.moveTo c.repo E.assessmentId target control = .ok repo) :
    ∃ status, E.statusOf c = some status ∧ target ∈ allowedTransitions status ∧
      (repo.assessments.get? E.assessmentId).map Assessment.status = some target := by
  obtain ⟨row, hrow, htarget, hget⟩ := exists_moved_row h
  exact ⟨row.status, by rw [statusOf, hrow, Option.map_some], htarget, by rw [hget]; rfl⟩

/-! ### The row -/

/-- A write that the table allows keeps the row linked, unless it moves a paused assessment on. -/
theorem Linked.moved (h : E.Linked c) {repo : Repositories} {target : AssessmentStatus}
    {control : Option ControlState}
    (hmove : AssessmentService.moveTo c.repo E.assessmentId target control = .ok repo)
    (hcontrol : control = some .pauseRequested → target = .paused)
    (hkept : control = none → ∀ row, c.repo.assessments.get? E.assessmentId = some row →
      target ∈ allowedTransitions row.status → row.status ≠ .paused)
    (hqueued : c'.stage = .queued → target = .cancelled)
    (hgate : ∀ row, c'.stage = .draining (.signal row) → c.stage = .draining (.signal row))
    (hrepo : c'.repo = repo) : E.Linked c' := by
  obtain ⟨row, hrow, htarget, hget⟩ := exists_moved_row hmove
  refine ⟨⟨_, by rw [hrepo]; exact hget, ?_, ?_⟩, ?_⟩
  · intro hpause
    cases control with
    | some control => exact hcontrol (congrArg some hpause)
    | none =>
      -- A row with a pause is paused, and this write does not move a paused row.
      obtain ⟨row', hrow', hlinked, -⟩ := h.row
      rw [hrow] at hrow'
      cases hrow'
      exact absurd (hlinked hpause) (hkept rfl row hrow htarget)
  · intro hq
    exact .inr (hqueued hq)
  · intro read hread
    exact h.gate read (hgate read hread)

theorem ne_paused_of_final {target status : AssessmentStatus}
    (htarget : target = .failed ∨ target = .completed) (h : target ∈ allowedTransitions status) :
    status ≠ .paused := by
  rintro rfl
  rcases htarget with rfl | rfl <;> exact absurd h (by decide)

/-- A step that leaves the repositories alone. -/
theorem Linked.congr (h : E.Linked c) (hrepo : c'.repo = c.repo) (hqueued : c'.stage ≠ .queued)
    (hgate : ∀ row, c'.stage ≠ .draining (.signal row)) : E.Linked c' := by
  obtain ⟨row, hrow, hlinked, -⟩ := h.row
  exact ⟨⟨row, by rw [hrepo, hrow], hlinked, fun hq => absurd hq hqueued⟩,
    fun row hread => absurd hread (hgate row)⟩

/-- `service.fail`, in the `except` clause. -/
theorem Linked.failed (h : E.Linked c) (hrepo : c'.repo = failed c.repo E.assessmentId)
    (hstage : c'.stage = .returned) : E.Linked c' := by
  rcases Drain.failed_cases c.repo E.assessmentId with heq | hmove
  · exact h.congr (hrepo.trans heq) (by simp [hstage]) (by simp [hstage])
  · exact h.moved hmove nofun (fun _ _ _ htarget => ne_paused_of_final (.inl rfl) htarget)
      (by simp [hstage]) (by simp [hstage]) hrepo

theorem linked_step (h : E.Linked c) (hmoved : E.Moved c move c') (hkind : c.kind = .execute) :
    E.Linked c' := by
  cases hmoved with
  | began repo hstage _ hrunning =>
    refine h.moved hrunning (by simp) ?_ (by simp) (by simp) rfl
    -- A queued assessment is not paused.
    intro _ row hrow _ hpaused
    obtain ⟨row', hrow', -, hqueued⟩ := h.row
    rw [hrow] at hrow'
    cases hrow'
    rcases hqueued hstage with hstatus | hstatus <;> rw [hstatus] at hpaused <;> cases hpaused
  | denied check repo _ hfail =>
    exact h.moved hfail nofun (fun _ _ _ htarget => ne_paused_of_final (.inl rfl) htarget)
      (by simp) (by simp) rfl
  | emptied observations repo _ hfail =>
    exact h.moved hfail nofun (fun _ _ _ htarget => ne_paused_of_final (.inl rfl) htarget)
      (by simp) (by simp) rfl
  | completed repo _ hcomplete =>
    exact h.moved hcomplete nofun (fun _ _ _ htarget => ne_paused_of_final (.inr rfl) htarget)
      (by simp) (by simp) rfl
  | pauseRequested repo hstage hpause =>
    refine h.moved hpause (fun _ => rfl) nofun ?_ (fun _ hread => hread) rfl
    intro hq
    -- A queued assessment cannot be paused.
    obtain ⟨row, hrow, htarget, -⟩ := exists_moved_row hpause
    obtain ⟨row', hrow', -, hqueued⟩ := h.row
    rw [hrow] at hrow'
    cases hrow'
    rcases hqueued hq with hstatus | hstatus <;> rw [hstatus] at htarget <;>
      exact absurd htarget (by decide)
  | cancelRequested repo hstage hcancel =>
    exact h.moved hcancel nofun nofun (fun _ => rfl) (fun _ hread => hread) rfl
  | ran label gate run hstage hpermits hgoesOn hrun =>
    obtain ⟨row, hrow, hlinked, -⟩ := h.row
    refine ⟨⟨row, hrow, hlinked, nofun⟩, fun read hread => ?_⟩
    -- A gate that is reading was reading before.
    refine h.gate read (hstage.trans ?_)
    exact congrArg _ (afterRun_signal (ExecutionStage.draining.inj hread))
  | crashed index gate hstage =>
    obtain ⟨row, hrow, hlinked, -⟩ := h.row
    exact ⟨⟨row, hrow, hlinked, fun hq => absurd hq (by simp [hstage])⟩, h.gate⟩
  | asked row hstage hrow =>
    obtain ⟨row', hrow', hlinked, -⟩ := h.row
    rw [hrow] at hrow'
    cases hrow'
    refine ⟨⟨row, hrow, hlinked, nofun⟩, fun read hread => ?_⟩
    dsimp only at hread
    split at hread
    · cases hread
    · cases hread
      exact ⟨Table.key_of_get? hrow, hlinked⟩
  | cleared row hstage =>
    obtain ⟨hid, hlinked⟩ := h.gate row hstage
    refine ⟨⟨{ row with control := .none }, ?_, nofun, nofun⟩, fun read hread => ?_⟩
    · rw [Repositories.addAssessment, Table.get?_put, if_pos hid.symm]
    · dsimp only at hread
      cases hc : row.control <;> rw [hc] at hread <;> cases hread
  | threw _ _ _ _ =>
    exact h.congr thrown_repo (by simp [thrown_stage hkind]) (by simp [thrown_stage hkind])
  | handled hstage => exact h.failed rfl rfl
  | _ => exact h.congr rfl (by simp) (by simp)

/-! ### The gate -/

theorem answer_inj {decision decision' : StopDecision} (h : decision.answer = decision'.answer) :
    decision = decision' := by
  cases decision <;> cases decision' <;> first | rfl | cases h

theorem answer_ne_completed (decision : StopDecision) : decision.answer ≠ .completed := by
  cases decision <;> simp [StopDecision.answer]

/-- A permitted step of the run leaves a stopped gate stopped, and stops no other. -/
theorem afterRun_eq_stopped {gate : Gate} {label : RunLabel} {decision : StopDecision}
    (h : gate.permits label = true) :
    gate.afterRun label = .stopped decision ↔ gate = .stopped decision := by
  cases label with
  | access action =>
    cases action with
    | submit =>
      cases gate with
      | passed => simp [Gate.afterRun, Gate.after]
      | _ => cases h
    | _ => exact Iff.rfl
  | _ => exact Iff.rfl

theorem ofSignal_eq_paused {signal : ControlState} :
    Gate.ofSignal signal = .stopped .paused ↔ signal = .pauseRequested := by
  cases signal <;> simp [Gate.ofSignal]

/-- Where neither the gate nor a run is. -/
theorem Gated.of_stage (h : ∀ gate, c'.stage ≠ .draining gate) (hqueued : c'.stage ≠ .queued)
    (hchecking : c'.stage ≠ .checking) (hscoping : c'.stage ≠ .scoping) : Gated c' where
  early hearly := by simp [hqueued, hchecking, hscoping] at hearly
  read gate hgate := absurd hgate (h gate)
  stopped gate _ hgate := absurd hgate (h gate)
  unstopped _ hearly := by simp [hqueued, hchecking, hscoping] at hearly

/-- The drain is still to come. -/
theorem Gated.prepare (hread : c'.pauseRead = false)
    (hunstopped : ∀ decision : StopDecision, ¬c'.run.phase.Stopped decision.answer)
    (hstage : ∀ gate, c'.stage ≠ .draining gate) : Gated c' where
  early _ := hread
  read gate hgate := absurd hgate (hstage gate)
  stopped gate _ hgate := absurd hgate (hstage gate)
  unstopped decision _ := hunstopped decision

/-- The drain begins. -/
theorem Gated.drain (hread : c'.pauseRead = false)
    (hunstopped : ∀ decision : StopDecision, ¬c'.run.phase.Stopped decision.answer)
    (hstage : c'.stage = .draining .closed) : Gated c' where
  early := by simp [hstage]
  read gate hgate := by
    rw [hstage] at hgate
    cases hgate
    simp [hread]
  stopped _ decision _ hphase := absurd hphase (hunstopped decision)
  unstopped := by simp [hstage]

/-- The gate moves on, and the run does not. -/
theorem Gated.turn (h : Gated c) {gate gate' : Gate} (hstage : c.stage = .draining gate)
    (hne : ∀ decision, gate ≠ .stopped decision) (hstage' : c'.stage = .draining gate')
    (hread : c'.pauseRead = true ↔ gate' = .stopped .paused) (hrun : c'.run = c.run) :
    Gated c' where
  early := by simp [hstage']
  read other hother := by
    rw [hstage'] at hother
    cases hother
    exact hread
  stopped _ decision _ hphase := by
    rw [hrun] at hphase
    exact absurd (h.stopped gate decision hstage hphase) (hne decision)
  unstopped := by simp [hstage']

theorem Gated.pauseRead_eq_false (h : Gated c) {gate : Gate} (hstage : c.stage = .draining gate)
    (hne : gate ≠ .stopped .paused) : c.pauseRead = false := by
  cases hread : c.pauseRead with
  | false => rfl
  | true => exact absurd ((h.read gate hstage).mp hread) hne

theorem gated_thrown : Gated c.thrown := by
  unfold ExecutionCall.thrown
  split
  · exact .of_stage (by simp) (by simp) (by simp) (by simp)
  · exact .of_stage (by simp) (by simp) (by simp) (by simp)

theorem gated_step (h : Gated c) (hmoved : E.Moved c move c') : Gated c' := by
  cases hmoved with
  | began repo hstage =>
    exact .prepare (h.early (.inl hstage)) (fun decision => h.unstopped decision (.inl hstage))
      (by simp)
  | started hstage =>
    exact .prepare (h.early (.inr (.inl hstage)))
      (fun decision => h.unstopped decision (.inr (.inl hstage))) (by simp)
  | resumed hstage =>
    exact .drain (h.early (.inl hstage)) (fun decision => h.unstopped decision (.inl hstage)) rfl
  | proceeded nftFailed hstage =>
    exact .drain (h.early (.inr (.inr hstage)))
      (fun decision => h.unstopped decision (.inr (.inr hstage))) rfl
  | ran label gate run hstage hpermits hgoesOn hrun =>
    refine ⟨by simp, fun other hother => ?_, fun other decision hother hphase => ?_, by simp⟩
    · cases hother
      rw [afterRun_eq_stopped hpermits]
      exact h.read gate hstage
    · cases hother
      rw [afterRun_eq_stopped hpermits]
      rcases PlanRun.stopped_of_step hrun (answer_ne_completed decision) hphase with rfl | hstopped
      · -- The gate lets a run stop only with its own decision.
        cases gate with
        | stopped decided =>
          rw [Gate.permits, beq_iff_eq] at hpermits
          rw [answer_inj hpermits]
        | _ => cases hpermits
      · exact h.stopped gate decision hstage hstopped
  | crashed index gate hstage => exact ⟨h.early, h.read, h.stopped, h.unstopped⟩
  | vanished hstage =>
    refine h.turn hstage nofun rfl ?_ rfl
    simp [h.pauseRead_eq_false hstage nofun]
  | asked row hstage =>
    refine h.turn hstage nofun rfl ?_ rfl
    simp only [h.pauseRead_eq_false hstage nofun, Bool.false_eq_true, false_iff]
    split <;> exact nofun
  | cleared row hstage =>
    refine h.turn hstage nofun rfl ?_ rfl
    simp [h.pauseRead_eq_false hstage nofun, ofSignal_eq_paused]
  | threw => exact gated_thrown
  | pauseRequested | cancelRequested => exact ⟨h.early, h.read, h.stopped, h.unstopped⟩
  | _ => exact .of_stage (by simp) (by simp) (by simp) (by simp)

/-! ### The events -/

theorem passes_append {before events : List ExecutionEvent}
    (h : ∀ event ∈ before, event.passes = true) (h' : ∀ event ∈ events, event.passes = true) :
    ∀ event ∈ before ++ events, event.passes = true := by
  intro event hevent
  rcases List.mem_append.mp hevent with hevent | hevent
  · exact h event hevent
  · exact h' event hevent

/-- The call goes on. -/
theorem Told.goesOn (h : E.Told c) (hstage : c.stage ≠ .returned) (hstage' : c'.stage ≠ .returned)
    (events : List ExecutionEvent) (hpasses : ∀ event ∈ events, event.passes = true)
    (hevents : c'.events = c.events ++ events)
    (hrecording : c'.stage = .recording → E.statusOf c' = some .completed) : E.Told c' where
  passing _ := by
    rw [hevents]
    exact passes_append (h.passing hstage) hpasses
  recording := hrecording
  ending hreturned := absurd hreturned hstage'

/-- The call goes on, and nothing is told. -/
theorem Told.silent (h : E.Told c) (hstage : c.stage ≠ .returned) (hstage' : c'.stage ≠ .returned)
    (hrecording : c'.stage ≠ .recording) (hevents : c'.events = c.events) : E.Told c' :=
  h.goesOn hstage hstage' [] (by simp) (by simp [hevents]) fun heq => absurd heq hrecording

/-- The call returns. -/
theorem Told.returns (h : E.Told c) (hstage : c.stage ≠ .returned) (hstage' : c'.stage = .returned)
    (events : List ExecutionEvent) (last : ExecutionEvent)
    (hpasses : ∀ event ∈ events, event.passes = true)
    (hevents : c'.events = c.events ++ events ++ [last]) (hending : E.Ending c' last) :
    E.Told c' where
  passing hne := absurd hstage' hne
  recording hrecording := by
    rw [hstage'] at hrecording
    cases hrecording
  ending _ := ⟨c.events ++ events, last, hevents, passes_append (h.passing hstage) hpasses, hending⟩

theorem Told.returning (h : E.Told c) (hstage : c.stage ≠ .returned) {repo : Repositories}
    {event : ExecutionEvent} (hending : E.Ending (c.returning repo event) event) :
    E.Told (c.returning repo event) :=
  h.returns hstage rfl [] event nofun (by simp [ExecutionCall.returning]) hending

/-- A request lands. -/
theorem Told.requested (h : E.Told c) (hstage : c.stage ≠ .returned) {repo : Repositories}
    {target : AssessmentStatus} {control : Option ControlState}
    (hmove : AssessmentService.moveTo c.repo E.assessmentId target control = .ok repo) :
    E.Told { c with repo } := by
  refine h.goesOn hstage hstage [] (by simp) (by simp) fun hrecording => ?_
  -- A completed assessment takes no request.
  obtain ⟨status, hstatus, htarget, -⟩ := statusOf_moved hmove
  rw [h.recording hrecording] at hstatus
  cases hstatus
  cases htarget

theorem told_step (h : E.Told c) (hgated : Gated c) (hmoved : E.Moved c move c')
    (hkind : c.kind = .execute) : E.Told c' := by
  cases hmoved with
  | began repo hstage => exact h.silent (by simp [hstage]) (by simp) (by simp) rfl
  | resumed hstage => exact h.silent (by simp [hstage]) (by simp) (by simp) rfl
  | denied check repo hcheck hfail =>
    obtain ⟨-, -, -, hstatus⟩ := statusOf_moved hfail
    refine h.returning ?_ hstatus
    rcases stage_of_check hcheck with hstage | hstage <;> simp [hstage]
  | started hstage =>
    refine h.goesOn (by simp [hstage]) (by simp) [.started] ?_ rfl (by simp)
    simp [ExecutionEvent.passes]
  | proceeded nftFailed hstage =>
    refine h.goesOn (by simp [hstage]) (by simp) _ ?_ rfl (by simp)
    cases nftFailed <;> simp [ExecutionEvent.passes]
  | ran label gate run hstage =>
    exact h.silent (by simp [hstage]) (by simp) (by simp) rfl
  | crashed index gate hstage =>
    exact h.silent (by simp [hstage]) (by simp [hstage]) (by simp [hstage]) rfl
  | vanished hstage => exact h.silent (by simp [hstage]) (by simp) (by simp) rfl
  | asked row hstage => exact h.silent (by simp [hstage]) (by simp) (by simp) rfl
  | cleared row hstage => exact h.silent (by simp [hstage]) (by simp) (by simp) rfl
  | abandoned gate terminationFails hstage hphase =>
    have hgate : gate = .stopped .cancelled := hgated.stopped gate .cancelled hstage (.inr hphase)
    refine h.returns (by simp [hstage]) rfl (if terminationFails then [.terminationFailed] else [])
      .cancelled ?_ rfl ⟨?_, fun job hjob => skipUnfinished_finished hjob⟩
    · cases terminationFails <;> simp [ExecutionEvent.passes]
    · exact hgated.pauseRead_eq_false hstage (by simp [hgate])
  | paused gate terminationFails hstage hphase =>
    have hgate : gate = .stopped .paused := hgated.stopped gate .paused hstage (.inr hphase)
    exact h.returning (by simp [hstage]) ((hgated.read gate hstage).mpr hgate)
  | drained gate terminationFails events hstage hphase hevents =>
    refine h.goesOn (by simp [hstage]) (by simp) events (fun event hevent => ?_) rfl (by simp)
    rw [hevents event hevent]
    rfl
  | emptied observations repo hstage hfail =>
    obtain ⟨-, -, -, hstatus⟩ := statusOf_moved hfail
    exact h.returning (by simp [hstage]) hstatus
  | persisted observations hstage =>
    exact h.silent (by simp [hstage]) (by simp) (by simp) rfl
  | completed repo hstage hcomplete =>
    obtain ⟨-, -, -, hstatus⟩ := statusOf_moved hcomplete
    exact h.goesOn (by simp [hstage]) (by simp) [] (by simp) (by simp) fun _ => hstatus
  | recorded hstage => exact h.returning (by simp [hstage]) (h.recording hstage)
  | threw _ _ _ hreturned =>
    have hstage := thrown_stage hkind
    exact h.silent hreturned (by simp [hstage]) (by simp [hstage]) thrown_events
  | handled hstage => exact h.returning (by simp [hstage]) trivial
  | pauseRequested repo hstage hpause => exact h.requested hstage hpause
  | cancelRequested repo hstage hcancel => exact h.requested hstage hcancel

/-! ### Agreement -/

/-- The last event of a call decides whether status and trail agree. -/
theorem trailAgrees_iff_agreeing (h : E.Told c) (hreturned : c.stage = .returned) :
    E.TrailAgrees c ↔ E.Agreeing c := by
  obtain ⟨before, last, hevents, hbefore, hending⟩ := h.ending hreturned
  have hmem : ∀ event, event.passes = false → (event ∈ c.events ↔ event = last) := by
    intro event hpasses
    rw [hevents, List.mem_append, List.mem_singleton]
    refine or_iff_right fun hevent => ?_
    rw [hbefore event hevent] at hpasses
    cases hpasses
  have hfailed := hmem .failed rfl
  have hcompleted := hmem .completed rfl
  have hcancelled := hmem .cancelled rfl
  cases last with
  | blocked check | emptyExecution =>
    have hstatus : E.statusOf c = some .failed := hending
    constructor
    · exact fun _ => ⟨fun _ => hstatus, by simp [hstatus]⟩
    · exact fun _ => ⟨fun _ => hstatus, by simp [hcompleted], by simp [hstatus]⟩
  | completed =>
    have hstatus : E.statusOf c = some .completed := hending
    constructor
    · exact fun _ => ⟨by simp [hfailed], by simp [hstatus]⟩
    · exact fun _ => ⟨by simp [hfailed], fun _ => hstatus, by simp [hstatus]⟩
  | paused =>
    have hread : c.pauseRead = true := hending
    constructor
    · intro h
      refine ⟨h.failed, fun _ hstatus => ?_⟩
      exact absurd (hcancelled.mp (h.cancelled hstatus).1) (by decide)
    · exact fun h => ⟨h.1, by simp [hcompleted], fun hstatus => absurd hstatus (h.2 hread)⟩
  | cancelled =>
    obtain ⟨hread, hjobs⟩ : c.pauseRead = false ∧ _ := hending
    constructor
    · exact fun h => ⟨h.failed, by simp [hread]⟩
    · intro h
      refine ⟨h.1, by simp [hcompleted], fun _ => ⟨hcancelled.mpr rfl, fun job hjob _ hstatus => ?_⟩⟩
      have hsub : [.ready, .blocked, .leased] ⊆ unfinishedStatuses := by decide
      exact hjobs job hjob (hsub hstatus)
  | failed =>
    constructor
    · intro h
      have hstatus := h.failed (hfailed.mpr rfl)
      exact ⟨h.failed, by simp [hstatus]⟩
    · intro h
      have hstatus := h.1 (hfailed.mpr rfl)
      exact ⟨h.1, by simp [hcompleted], by simp [hstatus]⟩
  | started | hardeningUnavailable | terminationFailed | resumed => cases hending

/-- Before it returns, a call agrees unless it has consumed a pause and was cancelled. -/
theorem agreeing_iff_of_ne_returned (h : E.Told c) (hstage : c.stage ≠ .returned) :
    E.Agreeing c ↔ (c.pauseRead = true → E.statusOf c ≠ some .cancelled) := by
  refine and_iff_right fun hfailed => ?_
  have hpasses := h.passing hstage _ hfailed
  cases hpasses

/-- A step that writes neither the status nor the event of a failure. -/
theorem Agreeing.kept (hstatus : E.statusOf c' = E.statusOf c) (hread : c'.pauseRead = c.pauseRead)
    (hevents : .failed ∈ c'.events ↔ .failed ∈ c.events) (hintime : E.InTime c move) :
    E.Agreeing c' ↔ E.Agreeing c ∧ E.InTime c move := by
  rw [Agreeing, Agreeing, hstatus, hread, hevents]
  exact (and_iff_left hintime).symm

theorem ne_cancelled {status : AssessmentStatus} (h : E.statusOf c = some status)
    (hne : status ≠ .cancelled) : E.statusOf c ≠ some .cancelled := by
  rw [h]
  exact fun heq => hne (Option.some.inj heq)

theorem Agreeing.of_failed (h : E.statusOf c = some .failed) : E.Agreeing c :=
  ⟨fun _ => h, fun _ => ne_cancelled h nofun⟩

/-- A call that the service can still move has lost nothing. -/
theorem Told.agreeing_of_allowed (h : E.Told c) (hstage : c.stage ≠ .returned)
    {status target : AssessmentStatus} (hstatus : E.statusOf c = some status)
    (htarget : target ∈ allowedTransitions status) : E.Agreeing c := by
  rw [agreeing_iff_of_ne_returned h hstage, hstatus]
  rintro - heq
  cases heq
  cases htarget

/-- The status after `service.fail` in the `except` clause. -/
theorem status_failed_iff : ((failed c.repo E.assessmentId).assessments.get? E.assessmentId).map
      Assessment.status = some .failed ↔
    E.statusOf c = some .running ∨ E.statusOf c = some .failed := by
  unfold failed
  cases hfail : AssessmentService.fail c.repo E.assessmentId with
  | ok repo =>
    obtain ⟨status, hstatus, htarget, hmoved⟩ := statusOf_moved hfail
    refine iff_of_true hmoved (.inl ?_)
    -- The table lets only a running assessment fail.
    cases status <;> first | exact hstatus | exact absurd htarget (by decide)
  | error error =>
    refine (or_iff_right fun hrunning => ?_).symm
    obtain ⟨row, hrow, hstatus⟩ := Option.map_eq_some_iff.mp hrunning
    obtain ⟨repo, hok⟩ : ∃ repo, AssessmentService.fail c.repo E.assessmentId = .ok repo :=
      ⟨_, moveTo_ok_iff.mpr ⟨row, hrow, by rw [hstatus]; decide, rfl⟩⟩
    rw [hok] at hfail
    cases hfail

/-- **Agreement is lost at the steps that are not in time, and nowhere else.** -/
theorem agreeing_step (hlinked : E.Linked c) (hgated : Gated c) (htold : E.Told c)
    (htold' : E.Told c') (hmoved : E.Moved c move c') :
    E.Agreeing c' ↔ E.Agreeing c ∧ E.InTime c move := by
  cases hmoved with
  | began repo hstage _ hrunning =>
    obtain ⟨status, hstatus, htarget, -⟩ := statusOf_moved hrunning
    have hread := hgated.early (.inl hstage)
    refine iff_of_true ?_ ⟨htold.agreeing_of_allowed (by simp [hstage]) hstatus htarget, trivial⟩
    rw [agreeing_iff_of_ne_returned htold' (by simp)]
    simp [hread]
  | denied check repo hcheck hfail =>
    obtain ⟨status, hstatus, htarget, hstatus'⟩ := statusOf_moved hfail
    have hstage : c.stage ≠ .returned := by
      rcases stage_of_check hcheck with hstage | hstage <;> simp [hstage]
    exact iff_of_true (.of_failed hstatus')
      ⟨htold.agreeing_of_allowed hstage hstatus htarget, trivial⟩
  | emptied observations repo hstage hfail =>
    obtain ⟨status, hstatus, htarget, hstatus'⟩ := statusOf_moved hfail
    exact iff_of_true (.of_failed hstatus')
      ⟨htold.agreeing_of_allowed (by simp [hstage]) hstatus htarget, trivial⟩
  | completed repo hstage hcomplete =>
    obtain ⟨status, hstatus, htarget, hstatus'⟩ := statusOf_moved hcomplete
    refine iff_of_true ?_ ⟨htold.agreeing_of_allowed (by simp [hstage]) hstatus htarget, trivial⟩
    rw [agreeing_iff_of_ne_returned htold' (by simp)]
    exact fun _ => ne_cancelled hstatus' (by decide)
  | cleared row hstage =>
    have hread := hgated.pauseRead_eq_false hstage (by simp)
    obtain ⟨hid, hpaused⟩ := hlinked.gate row hstage
    refine iff_of_true ?_ ⟨?_, trivial⟩
    · rw [agreeing_iff_of_ne_returned htold' (by simp)]
      -- The row that is written back is that of a paused assessment.
      intro hsignal heq
      have hcontrol : row.control = .pauseRequested := by simpa [hread] using hsignal
      rw [statusOf, Repositories.addAssessment, Table.get?_put, if_pos hid.symm, Option.map_some,
        hpaused hcontrol] at heq
      cases heq
    · rw [agreeing_iff_of_ne_returned htold (by simp [hstage])]
      simp [hread]
  | handled hstage =>
    have hfailed : .failed ∈ (c.returning (failed c.repo E.assessmentId) .failed).events := by
      simp [ExecutionCall.returning]
    constructor
    · intro h
      have hintime := status_failed_iff.mp (h.1 hfailed)
      refine ⟨?_, hintime⟩
      rw [agreeing_iff_of_ne_returned htold (by simp [hstage])]
      rcases hintime with hstatus | hstatus <;> simp [hstatus]
    · rintro ⟨-, hintime⟩
      exact .of_failed (status_failed_iff.mpr hintime)
  | pauseRequested repo hstage hpause =>
    obtain ⟨status, hstatus, htarget, hstatus'⟩ := statusOf_moved hpause
    refine iff_of_true ?_ ⟨htold.agreeing_of_allowed hstage hstatus htarget, trivial⟩
    rw [agreeing_iff_of_ne_returned htold' hstage]
    exact fun _ => ne_cancelled hstatus' (by decide)
  | cancelRequested repo hstage hcancel =>
    obtain ⟨status, hstatus, htarget, hstatus'⟩ := statusOf_moved hcancel
    have hagreeing := htold.agreeing_of_allowed hstage hstatus htarget
    have hcancelled : E.statusOf { c with repo } = some .cancelled := hstatus'
    rw [agreeing_iff_of_ne_returned htold' hstage, hcancelled]
    simp [hagreeing, InTime]
  | threw _ hthrows =>
    have hintime : E.InTime c move := by
      cases move <;> trivial
    exact Agreeing.kept (by rw [statusOf, thrown_repo, statusOf]) thrown_pauseRead (by simp) hintime
  | started | paused | recorded =>
    refine Agreeing.kept rfl rfl ?_ trivial
    simp [ExecutionCall.returning]
  | proceeded nftFailed =>
    refine Agreeing.kept rfl rfl ?_ trivial
    cases nftFailed <;> simp
  | abandoned gate terminationFails =>
    refine Agreeing.kept rfl rfl ?_ trivial
    cases terminationFails <;> simp [ExecutionCall.abandoned]
  | drained gate terminationFails events _ _ hevents =>
    refine Agreeing.kept rfl rfl ?_ trivial
    refine List.mem_append.trans (or_iff_left fun hfailed => ?_)
    cases hevents _ hfailed
  | _ => exact Agreeing.kept rfl rfl Iff.rfl trivial

/-! ### Runs -/

variable (E) in
/-- The invariants of a call of `execute_assessment`. -/
structure Trailed (c : ExecutionCall) : Prop where
  kind : c.kind = .execute
  linked : E.Linked c
  gated : Gated c
  told : E.Told c

theorem Trailed.step (h : E.Trailed c) (hstep : E.step c move = some c') : E.Trailed c' := by
  have hmoved := moved_of_step hstep
  exact ⟨(kind_of_moved hmoved).trans h.kind, linked_step h.linked hmoved h.kind,
    gated_step h.gated hmoved, told_step h.told h.gated hmoved h.kind⟩

theorem trailed_call {repo : Repositories} (hrepo : E.Awaits .execute repo) (store : JobStore) :
    E.Trailed (E.call .execute repo store) := by
  obtain ⟨row, hrow, hstatus, hcontrol⟩ := hrepo
  refine ⟨rfl, ⟨⟨row, hrow, by simp [hcontrol], fun _ => .inl hstatus⟩, nofun⟩, ?_, ?_⟩
  · refine .prepare rfl (fun decision => ?_) (by simp [call])
    rintro (hphase | hphase) <;> cases hphase
  · exact ⟨by simp [call], by simp [call], by simp [call]⟩

/-- **When status and audit trail agree**: in the runs that handle no exception while a request
stands that the gate has not read, and in which no cancellation lands when the gate has consumed a
pause. -/
theorem trail_agrees_iff {repo : Repositories} {store : JobStore} {moves : List ExecutionMove}
    {t : ExecutionCall} (hrepo : E.Awaits .execute repo)
    (hrun : runLabels E.step (E.call .execute repo store) moves = some t)
    (hreturned : t.stage = .returned) :
    E.TrailAgrees t ↔ runMeets E.step E.InTime (E.call .execute repo store) moves := by
  have hstart := trailed_call hrepo store
  have hexact : E.Agreeing t ↔ E.Agreeing (E.call .execute repo store) ∧
      runMeets E.step E.InTime (E.call .execute repo store) moves := by
    refine runMeets_exact (fun c move c' h hstep => h.step hstep) ?_ hstart hrun
    intro c move c' h hstep
    exact agreeing_step h.linked h.gated h.told (h.step hstep).told (moved_of_step hstep)
  have htrailed : E.Trailed t := by
    have hreaches : Reaches E.step (fun _ _ => True) (E.call .execute repo store) t :=
      .of_runLabels hrun (runMeets_of_forall fun _ _ _ => trivial)
    exact hreaches.invariant hstart fun c move c' h _ hstep => h.step hstep
  have hagreeing : E.Agreeing (E.call .execute repo store) := ⟨nofun, nofun⟩
  rw [trailAgrees_iff_agreeing htrailed.told hreturned, hexact]
  exact and_iff_right hagreeing

end Executor

/-- A pause that is requested during the last step. -/
def latePause : List ExecutionMove :=
  [.begin, .start, .proceed false] ++ scanRun (.result "observed") [.pause] ++
    [.finalize [], .complete, .handle]

/-- A pause that is requested before the only step, and seen. -/
def timelyPause : List ExecutionMove :=
  [.begin, .start, .proceed false, .run (.access .dispatchStep), .run (.access .scan), .pause,
    .gateRead, .gateClear, .run (.stop .paused), .run .leave, .settle false]

/-- What can be seen of a call. -/
def scanSeen (c : ExecutionCall) : ExecutionStage × Option AssessmentStatus × List ExecutionEvent :=
  (c.stage, scanExecutor.statusOf c, c.events)

theorem disagrees_of_seen {moves : List ExecutionMove} {status : AssessmentStatus}
    {events : List ExecutionEvent}
    (h : (runLabels scanExecutor.step (scanExecutor.call .execute (scheduled .queued) .empty)
      moves).map scanSeen = some (.returned, some status, events))
    (hevents : .failed ∈ events) (hne : status ≠ .failed) :
    ∃ t, runLabels scanExecutor.step (scanExecutor.call .execute (scheduled .queued) .empty) moves =
      some t ∧ t.stage = .returned ∧ ¬scanExecutor.TrailAgrees t := by
  obtain ⟨t, hrun, hseen⟩ := Option.map_eq_some_iff.mp h
  simp only [scanSeen, Prod.mk.injEq] at hseen
  obtain ⟨hstage, hstatus, rfl⟩ := hseen
  refine ⟨t, hrun, hstage, fun hagrees => hne ?_⟩
  have hfailed := hagrees.failed hevents
  rw [hstatus] at hfailed
  exact Option.some.inj hfailed

/-- **A pause during the last step, and a cancellation while queued**: both runs record
`assessment.failed`, and the assessment is paused in one and cancelled in the other. -/
theorem late_requests_disagree :
    (∃ t, runLabels scanExecutor.step (scanExecutor.call .execute (scheduled .queued) .empty)
        latePause = some t ∧ t.stage = .returned ∧ ¬scanExecutor.TrailAgrees t) ∧
      ∃ t, runLabels scanExecutor.step (scanExecutor.call .execute (scheduled .queued) .empty)
        [.cancel, .begin, .handle] = some t ∧ t.stage = .returned ∧ ¬scanExecutor.TrailAgrees t := by
  constructor
  · exact disagrees_of_seen (by decide +kernel : _ = some (_, some .paused, [.started, .failed]))
      (by simp) nofun
  · exact disagrees_of_seen (by decide +kernel : _ = some (_, some .cancelled, [.failed]))
      (by simp) nofun

/-- A run in which the pause lands in time. -/
theorem timely_pause_agrees : ∃ t, runLabels scanExecutor.step
      (scanExecutor.call .execute (scheduled .queued) .empty) timelyPause = some t ∧
    scanExecutor.TrailAgrees t := by
  obtain ⟨t, hrun, hstage⟩ := Option.map_eq_some_iff.mp (by decide +kernel :
    (runLabels scanExecutor.step (scanExecutor.call .execute (scheduled .queued) .empty)
      timelyPause).map ExecutionCall.stage = some .returned)
  refine ⟨t, hrun, (Executor.trail_agrees_iff ⟨_, rfl, rfl, rfl⟩ hrun hstage).mpr ?_⟩
  decide +kernel

end SecOpent
