import SecOpent.ReasoningLoop.TerminalPhases

/-!
# Controls that race with a step

Operations on loops that overlap: each reads the record of its loop, and later writes back the whole
record that follows from what it read. Nothing tells an operation that the record has changed since,
so a step that read a running loop before it was stopped or paused puts it back to running. A stop or
a pause is kept exactly in the runs in which no operation writes what it read before.

## Main definitions

* `PendingCall`, `Racing`, `Racing.step`: operations between their read and their write
* `InPhase`: the record of a loop has a phase
* `Releases`: the write of a resume or of an emergency stop
* `PendingCall.Admitted`: the operation goes through on the record that it read
* `Timely`: no operation that goes through overwrites a stop, and no step a pause

## Main results

* `controls_kept_iff`: stops and pauses are kept exactly if every write is timely
-/

namespace SecOpent

open Python Transition

/-- `resume_loop` reads the record a second time, and is not an operation here. -/
def LoopOp.readsOnce : LoopOp → Bool
  | .resumeLoop .. => false
  | _ => true

/-- An operation that has read the record of its loop. -/
structure PendingCall where
  call : LoopCall
  read : Option LoopState
  once : call.op.readsOnce = true
  keyed : ∀ state, read = some state → state.loopId = call.loopId

/-- The repositories, and the operations that have read and not written. -/
structure Racing where
  store : LoopStore
  pending : List PendingCall := []

/-- An operation reads, or one that has read goes on to its end. -/
inductive RaceMove
  | read (call : LoopCall)
  | finish (i : ℕ)

variable (d : LoopDeployment) (H : Sha256)

/-- What the operation does, on the record that it read. -/
def PendingCall.acting (p : PendingCall) : LoopActing Unit := d.act H p.call.loopId p.read p.call.op

/-- One move. -/
def Racing.step (w : Racing) : RaceMove → Option Racing
  | .read call =>
    if honce : call.op.readsOnce = true then
      some { w with
        pending := w.pending ++
          [⟨call, w.store.get? call.loopId, honce, fun _ h => LoopStore.loopId_of_get? h⟩] }
    else none
  | .finish i =>
    w.pending[i]?.map fun p =>
      ⟨w.store.perform p.call.session p.call.accepts (p.acting d H), w.pending.eraseIdx i⟩

/-- The record of the loop has the phase. -/
def InPhase (loopId : LoopId) (phase : LoopPhase) (w : Racing) : Prop :=
  ∃ state, w.store.get? loopId = some state ∧ state.phase = phase

/-- The operation resumes or stops a loop. -/
def LoopOp.releases : LoopOp → Bool
  | .resume .. | .resumeLoop .. | .emergencyStop .. => true
  | _ => false

/-- The move is the end of a resume or of an emergency stop of the loop. -/
def Releases (loopId : LoopId) (w : Racing) (move : RaceMove) : Prop :=
  ∃ i p, move = .finish i ∧ w.pending[i]? = some p ∧ p.call.loopId = loopId ∧
    p.call.op.releases = true

/-- The operation goes through on the record that it read. -/
def PendingCall.Admitted (p : PendingCall) : Prop :=
  ∃ state, p.read = some state ∧
    match p.call.op with
    | .runStep answers => answers.Complete d.orchestrator state
    | .pause _ _ actorRole _ =>
      actorRole ≠ "agent" ∧ state.phase ≠ .paused ∧ state.phase ∉ deadPhases
    | .resume request _ =>
      state.phase ∉ deadPhases ∧ d.control.ResumeAdmitted p.call.loopId request state
    | .resumeLoop .. => False
    | .emergencyStop .. => state.phase ≠ .emergencyStopped

/-- Its events are recorded. -/
def PendingCall.Recorded (p : PendingCall) : Prop :=
  LoopStore.Recorded p.call.session p.call.accepts (p.acting d H)

/-- The phases that the operation may overwrite: only a stop is written over a stop, and no step over
a pause. -/
def LoopOp.mayOverwrite : LoopOp → LoopPhase → Bool
  | .emergencyStop .., _ => true
  | .runStep _, phase => phase != .emergencyStopped && phase != .paused
  | _, phase => phase != .emergencyStopped

/-- The move is not the end of an operation that goes through on what it read, although it may not
overwrite the phase that the loop is in by now. -/
def Timely (loopId : LoopId) (w : Racing) (move : RaceMove) : Prop :=
  ∀ i p state, move = .finish i → w.pending[i]? = some p → p.call.loopId = loopId →
    p.Admitted d → p.Recorded d H → w.store.get? loopId = some state →
    p.call.op.mayOverwrite state.phase = true

section Spec

variable {d} {H} {loopId : LoopId} {w w' : Racing} {move : RaceMove} {op : LoopOp}
  {phase phase' : LoopPhase}

/-! ## One move -/

/-- A phase that may be overwritten is kept, as far as it has to be. -/
theorem kept_of_mayOverwrite (h : op.mayOverwrite phase = true) (hleaves : op.Leaves phase') :
    (phase = .emergencyStopped → phase' = .emergencyStopped) ∧
      (phase = .paused → op.releases = false → phase' = .paused) := by
  cases op with
  | runStep answers =>
    have hphase : phase ≠ .emergencyStopped ∧ phase ≠ .paused := by
      simpa [LoopOp.mayOverwrite] using h
    exact ⟨fun heq => absurd heq hphase.1, fun heq => absurd heq hphase.2⟩
  | pause actor reason actorRole now =>
    have hphase : phase ≠ .emergencyStopped := by simpa [LoopOp.mayOverwrite] using h
    exact ⟨fun heq => absurd heq hphase, fun _ _ => hleaves⟩
  | resume request now =>
    have hphase : phase ≠ .emergencyStopped := by simpa [LoopOp.mayOverwrite] using h
    exact ⟨fun heq => absurd heq hphase, fun _ hreleases => by cases hreleases⟩
  | resumeLoop request now =>
    have hphase : phase ≠ .emergencyStopped := by simpa [LoopOp.mayOverwrite] using h
    exact ⟨fun heq => absurd heq hphase, fun _ hreleases => by cases hreleases⟩
  | emergencyStop actor reason now =>
    exact ⟨fun _ => hleaves, fun _ hreleases => by cases hreleases⟩

/-- A phase that may not be overwritten is lost. -/
theorem lost_of_not_mayOverwrite (h : op.mayOverwrite phase = false) (hleaves : op.Leaves phase') :
    (phase = .emergencyStopped ∧ phase' ≠ .emergencyStopped) ∨
      (phase = .paused ∧ op.releases = false ∧ phase' ≠ .paused) := by
  cases op with
  | runStep answers =>
    have hstopped : phase' ≠ .emergencyStopped := by
      rintro rfl
      simp [LoopOp.Leaves] at hleaves
    have hpaused : phase' ≠ .paused := by
      rintro rfl
      simp [LoopOp.Leaves] at hleaves
    by_cases hphase : phase = .emergencyStopped
    · exact .inl ⟨hphase, hstopped⟩
    · exact .inr ⟨by simpa [LoopOp.mayOverwrite, hphase] using h, rfl, hpaused⟩
  | pause actor reason actorRole now =>
    exact .inl ⟨by simpa [LoopOp.mayOverwrite] using h, by rw [hleaves]; decide⟩
  | resume request now =>
    exact .inl ⟨by simpa [LoopOp.mayOverwrite] using h, by rw [hleaves]; decide⟩
  | resumeLoop request now =>
    refine .inl ⟨by simpa [LoopOp.mayOverwrite] using h, ?_⟩
    rintro rfl
    simp [LoopOp.Leaves] at hleaves
  | emergencyStop actor reason now => simp [LoopOp.mayOverwrite] at h

/-- An operation writes exactly if it goes through on the record that it read. -/
theorem PendingCall.acting_writesIf (p : PendingCall) : WritesIf (p.Admitted d) (p.acting d H) := by
  have honce := p.once
  unfold PendingCall.Admitted PendingCall.acting LoopDeployment.act
  cases hop : p.call.op with
  | runStep answers => exact writesIf_discard runStep_writesIf
  | pause actor reason actorRole now => exact writesIf_discard PauseControl.pause_writesIf
  | resume request now => exact writesIf_discard PauseControl.resume_writesIf
  | resumeLoop request now =>
    rw [hop] at honce
    cases honce
  | emergencyStop actor reason now => exact writesIf_discard emergencyStop_writesIf

/-- An operation gets to write exactly if it goes through and its events are recorded. -/
theorem PendingCall.writes_iff (p : PendingCall) :
    (∃ saved, .save saved ∈
        LoopStore.carriedOut p.call.session p.call.accepts (p.acting d H)) ↔
      p.Admitted d ∧ p.Recorded d H :=
  p.acting_writesIf.save_mem_carriedOut_iff

/-- What an operation writes is a record of its loop. -/
theorem PendingCall.saved_spec {p : PendingCall} {saved : LoopState}
    (h : .save saved ∈ LoopStore.carriedOut p.call.session p.call.accepts (p.acting d H)) :
    saved.loopId = p.call.loopId ∧ p.call.op.Leaves saved.phase := by
  obtain ⟨⟨state, hread, hid⟩, hleaves⟩ :=
    act_saves p.call.op _ (LoopStore.mem_of_mem_carriedOut h) saved rfl
  exact ⟨hid.trans (p.keyed state hread), hleaves⟩

/-- The record of a loop after a move: it is what it was, or what an operation on the loop wrote. -/
theorem step_cases_record (loopId : LoopId) (h : w.step d H move = some w') :
    w'.store.get? loopId = w.store.get? loopId ∨
      ∃ i p saved, move = .finish i ∧ w.pending[i]? = some p ∧ p.call.loopId = loopId ∧
        (p.Admitted d ∧ p.Recorded d H) ∧ p.call.op.Leaves saved.phase ∧
        w'.store.get? loopId = some saved := by
  cases move with
  | read call =>
    rw [Racing.step] at h
    split at h
    · cases h
      exact .inl rfl
    · cases h
  | finish i =>
    obtain ⟨p, hp, rfl⟩ := Option.map_eq_some_iff.mp h
    rcases LoopStore.perform_cases p.call.session p.call.accepts (p.acting d H) loopId with
      hsame | ⟨saved, hdone, hid, hafter⟩
    · exact .inl hsame
    · obtain ⟨hloop, hleaves⟩ := PendingCall.saved_spec hdone
      exact .inr ⟨i, p, saved, rfl, hp, hloop.symm.trans hid,
        p.writes_iff.mp ⟨saved, hdone⟩, hleaves, hafter⟩

/-- An operation that gets to write leaves the loop in one of its phases. -/
theorem step_finish_writes {i : ℕ} {p : PendingCall} (hp : w.pending[i]? = some p)
    (hadmitted : p.Admitted d) (hrecorded : p.Recorded d H) :
    ∃ w' state, w.step d H (.finish i) = some w' ∧ w'.store.get? p.call.loopId = some state ∧
      p.call.op.Leaves state.phase := by
  obtain ⟨saved, hdone⟩ := p.writes_iff.mpr ⟨hadmitted, hrecorded⟩
  obtain ⟨state, hstate, hafter⟩ :=
    LoopStore.get?_foldl_of_save hdone (PendingCall.saved_spec hdone).1
  exact ⟨_, state, by simp [Racing.step, hp]; rfl, hafter, (PendingCall.saved_spec hstate).2⟩

/-- What one move preserves. -/
theorem controls_preserved_iff :
    (Preserves (Racing.step d H) (InPhase loopId .emergencyStopped) (fun _ _ => True) w move ∧
        Preserves (Racing.step d H) (InPhase loopId .paused) (fun w move => ¬Releases loopId w move)
          w move) ↔
      Timely d H loopId w move := by
  constructor
  · rintro ⟨hstop, hpause⟩ i p state rfl hp hloop hadmitted hrecorded hstate
    obtain ⟨w', after, hstep, hafter, hleaves⟩ := step_finish_writes hp hadmitted hrecorded
    rw [hloop] at hafter
    by_contra hnot
    rcases lost_of_not_mayOverwrite (by simpa using hnot) hleaves with
      ⟨hphase, hlost⟩ | ⟨hphase, hkeeps, hlost⟩
    · obtain ⟨state', hstate', hphase'⟩ := hstop ⟨state, hstate, hphase⟩ trivial w' hstep
      rw [hafter] at hstate'
      cases hstate'
      exact hlost hphase'
    · have hreleases : ¬Releases loopId w (.finish i) := by
        rintro ⟨j, q, hmove, hq, -, hrel⟩
        cases hmove
        rw [hp] at hq
        cases hq
        rw [hkeeps] at hrel
        cases hrel
      obtain ⟨state', hstate', hphase'⟩ := hpause ⟨state, hstate, hphase⟩ hreleases w' hstep
      rw [hafter] at hstate'
      cases hstate'
      exact hlost hphase'
  · intro htimely
    -- Both controls are kept by a move that writes nothing, and by a timely write.
    have hkept : ∀ phase, InPhase loopId phase w → ∀ w', w.step d H move = some w' →
        InPhase loopId phase w' ∨ ∃ i p saved, move = .finish i ∧ w.pending[i]? = some p ∧
          p.call.loopId = loopId ∧ p.call.op.mayOverwrite phase = true ∧
          p.call.op.Leaves saved.phase ∧ w'.store.get? loopId = some saved := by
      rintro phase ⟨state, hstate, rfl⟩ w' hstep
      rcases step_cases_record loopId hstep with
        hsame | ⟨i, p, saved, hmove, hp, hloop, hwrites, hleaves, hafter⟩
      · exact .inl ⟨state, hsame.trans hstate, rfl⟩
      · exact .inr ⟨i, p, saved, hmove, hp, hloop,
          htimely i p state hmove hp hloop hwrites.1 hwrites.2 hstate, hleaves, hafter⟩
    constructor
    · intro hphase _ w' hstep
      rcases hkept _ hphase w' hstep with hkept | ⟨i, p, saved, -, -, -, hmay, hleaves, hafter⟩
      · exact hkept
      · exact ⟨saved, hafter, (kept_of_mayOverwrite hmay hleaves).1 rfl⟩
    · intro hphase hreleases w' hstep
      rcases hkept _ hphase w' hstep with
        hkept | ⟨i, p, saved, hmove, hp, hloop, hmay, hleaves, hafter⟩
      · exact hkept
      · refine ⟨saved, hafter, (kept_of_mayOverwrite hmay hleaves).2 rfl ?_⟩
        by_contra hrel
        exact hreleases ⟨i, p, hmove, hp, hloop, by simpa using hrel⟩

/-! ## Runs -/

/-- **Stops and pauses are kept** in an interleaving exactly if no operation that goes through on the
record that it read ends when the loop is stopped by then, and no step when it is paused by then. -/
theorem controls_kept_iff (d : LoopDeployment) (H : Sha256) (loopId : LoopId) (store : LoopStore)
    (moves : List RaceMove) :
    (Persists (Racing.step d H) (InPhase loopId .emergencyStopped) (fun _ _ => True) ⟨store, []⟩
          moves ∧
        Persists (Racing.step d H) (InPhase loopId .paused) (fun w move => ¬Releases loopId w move)
          ⟨store, []⟩ moves) ↔
      runMeets (Racing.step d H) (Timely d H loopId) ⟨store, []⟩ moves := by
  have hcond : (fun w move =>
      Preserves (Racing.step d H) (InPhase loopId .emergencyStopped) (fun _ _ => True) w move ∧
        Preserves (Racing.step d H) (InPhase loopId .paused) (fun w move => ¬Releases loopId w move)
          w move) = Timely d H loopId := by
    funext w move
    exact propext controls_preserved_iff
  rw [persists_iff, persists_iff, ← runMeets_and, hcond]

end Spec

/-! ### A control between the read and the write of a step -/

/-- A step of the loop. -/
def stepCall : LoopCall := { loopId := newLoop.loopId, op := .runStep unavailableAnswers }

/-- A human stops the loop. -/
def stopCall : LoopCall := { loopId := newLoop.loopId, op := .emergencyStop "ada" "halt" 3 }

/-- A step reads, a control reads and writes, and the step is still to write. -/
def controlDuringStep (control : LoopCall) : List RaceMove :=
  [.read stepCall, .read control, .finish 1]

/-- The phase of the loop after some moves, and whether the operations that have still to write
release a loop. -/
def raceSummary (moves : List RaceMove) : Option (Option LoopPhase × List Bool) :=
  (runLabels (Racing.step pausingDeployment codeDigest) ⟨.single newLoop, []⟩ moves).map fun w =>
    ((w.store.get? newLoop.loopId).map LoopState.phase, w.pending.map fun p => p.call.op.releases)

/-- A phase that the write of the step does away with. -/
theorem not_persists_of_summary (control : LoopCall) (phase : LoopPhase)
    (hduring : raceSummary (controlDuringStep control) = some (some phase, [false]))
    (hafter : raceSummary (controlDuringStep control ++ [.finish 0]) = some (some .running, []))
    (hphase : phase ≠ .running) :
    ¬Persists (Racing.step pausingDeployment codeDigest) (InPhase newLoop.loopId phase)
      (fun w move => ¬Releases newLoop.loopId w move) ⟨.single newLoop, []⟩
      (controlDuringStep control ++ [.finish 0]) := by
  intro h
  obtain ⟨w, hrun, hsummary⟩ := Option.map_eq_some_iff.mp hduring
  obtain ⟨w', hrun', hsummary'⟩ := Option.map_eq_some_iff.mp hafter
  obtain ⟨hphaseOf, hpending⟩ := Prod.mk.inj hsummary
  obtain ⟨state, hread, rfl⟩ := Option.map_eq_some_iff.mp hphaseOf
  have hreleases : ¬Releases newLoop.loopId w (.finish 0) := by
    rintro ⟨i, p, hmove, hp, -, hrel⟩
    cases hmove
    have hfalse : (w.pending.map fun p => p.call.op.releases)[0]? = some false := by rw [hpending]; rfl
    rw [List.getElem?_map, hp, Option.map_some, Option.some.injEq, hrel] at hfalse
    cases hfalse
  rw [runLabels_append, hrun, Option.bind_some] at hrun'
  obtain ⟨state', hstate', hsame⟩ := h (controlDuringStep control) [.finish 0] [] w w' rfl hrun
    ⟨state, hread, rfl⟩ ⟨hreleases, fun _ _ => trivial⟩ hrun'
  obtain ⟨hrunning, -⟩ := Prod.mk.inj hsummary'
  rw [hstate', Option.map_some, Option.some.injEq, hsame] at hrunning
  exact hphase hrunning

/-- A step that read the loop before it was stopped, or paused, puts it back to running. -/
theorem control_overwritten :
    ¬Persists (Racing.step pausingDeployment codeDigest)
        (InPhase newLoop.loopId .emergencyStopped) (fun _ _ => True) ⟨.single newLoop, []⟩
        (controlDuringStep stopCall ++ [.finish 0]) ∧
      ¬Persists (Racing.step pausingDeployment codeDigest) (InPhase newLoop.loopId .paused)
        (fun w move => ¬Releases newLoop.loopId w move) ⟨.single newLoop, []⟩
        (controlDuringStep pauseCall ++ [.finish 0]) := by
  constructor
  · intro h
    refine not_persists_of_summary stopCall .emergencyStopped (by decide +kernel)
      (by decide +kernel) (by decide) ?_
    intro before during after t u hmoves hrun hphase _
    exact h before during after t u hmoves hrun hphase
      (runMeets_of_forall fun _ _ _ => trivial)
  · exact not_persists_of_summary pauseCall .paused (by decide +kernel) (by decide +kernel)
      (by decide)

end SecOpent
