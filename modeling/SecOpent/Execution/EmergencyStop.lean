import SecOpent.Execution.System

/-!
# The emergency stop

`execute_assessment` asks the stop switch once, before it loads its plan; `resume_assessment` never
asks it, and the permit verifier does not ask the revoker. After a trigger nothing begins in every
run in which the trigger finds no thread between its stop check and its first lease, and no resume
follows.

## Main definitions

* `Drain.Stoppable`: the thread has leased, has ended, or has its stop check still ahead
* `StopsCleanly`: the condition on one step, read in the state before it

## Main results

* `Halted.step`: after the trigger every thread stays stoppable
* `nothing_begins_after_trigger`: no permit is issued, no revoked permit passes, no drain begins
-/

namespace SecOpent

open Python Transition

/-- The thread has leased a job, has ended, or has its stop check still ahead of it. -/
def Drain.Stoppable (d : Drain) : Prop :=
  d.leased = true ∨ d.phase = .finished ∨
    (d.kind = .execute ∧ (d.phase = .queued ∨ d.phase = .stopCheck))

/-- A thread that has leased a job is draining or has ended. -/
def Drain.LeasedInDrain (d : Drain) : Prop :=
  d.leased = true → d.phase = .finished ∨
    ∃ plan scope run gate, d.phase = .draining plan scope run gate

section Moves

variable {deployment : Deployment} {s s' : Shared} {d d' : Drain}

theorem Drain.Moved.leasedInDrain (h : d.Moved deployment s s' d') (hd : d.LeasedInDrain) :
    d'.LeasedInDrain := by
  cases h with
  | drained | acted | vanished | askedGate | clearedSignal =>
    exact fun _ => .inr ⟨_, _, _, _, rfl⟩
  | ended => exact fun _ => .inl rfl
  -- Before its drain a thread has leased nothing.
  | markedRunning repo hphase =>
    intro hleased
    have := hd hleased
    simp [hphase] at this
  | passedStop hphase =>
    intro hleased
    have := hd hleased
    rcases hphase with ⟨hphase, -⟩ | ⟨hphase, -⟩ <;> simp [hphase] at this
  | loaded plan scope hphase =>
    intro hleased
    have := hd hleased
    simp [hphase] at this
  | prepared plan scope revoker permitNonces phase hprepares =>
    intro hleased
    rcases hd hleased with hphase | ⟨_, _, _, _, hphase⟩ <;>
      simp [hphase, Phase.prepares] at hprepares

/-- Once the switch is on, a thread that could still be stopped is stopped. -/
theorem Drain.Moved.stoppable (h : d.Moved deployment s s' d') (hstop : s.stopTriggered = true)
    (hstoppable : d.Stoppable) :
    d'.Stoppable ∧ (d'.leased = true → d.leased = true) := by
  cases h with
  | markedRunning repo hphase hkind =>
    exact ⟨.inr (.inr ⟨hkind, .inr rfl⟩), id⟩
  | ended => exact ⟨.inr (.inl rfl), id⟩
  | passedStop hphase =>
    refine ⟨?_, id⟩
    rcases hstoppable with hleased | hfinished | ⟨hkind, hwaiting⟩
    · exact .inl hleased
    · rcases hphase with ⟨hphase, -⟩ | ⟨hphase, -⟩ <;> simp [hphase] at hfinished
    · -- A thread that waits for its stop check is no resume, and the check does not let it pass.
      rcases hphase with ⟨-, hresume⟩ | ⟨-, hoff⟩
      · rw [hkind] at hresume
        cases hresume
      · rw [hstop] at hoff
        cases hoff
  | loaded plan scope hphase =>
    refine ⟨?_, id⟩
    rcases hstoppable with hleased | hfinished | ⟨-, hwaiting⟩
    · exact .inl hleased
    · simp [hphase] at hfinished
    · simp [hphase] at hwaiting
  | prepared plan scope revoker permitNonces phase hprepares =>
    refine ⟨?_, id⟩
    rcases hstoppable with hleased | hfinished | ⟨-, hwaiting⟩
    · exact .inl hleased
    · simp [hfinished, Phase.prepares] at hprepares
    · rcases hwaiting with hphase | hphase <;> simp [hphase, Phase.prepares] at hprepares
  | drained plan scope now hphase =>
    refine ⟨?_, id⟩
    rcases hstoppable with hleased | hfinished | ⟨-, hwaiting⟩
    · exact .inl hleased
    · rcases hphase with hphase | ⟨hphase, -⟩ <;> simp [hfinished, Phase.prepares] at hphase
    · rcases hphase with hphase | ⟨hphase, -⟩ <;> rcases hwaiting with hwaiting | hwaiting <;>
        simp [hwaiting, Phase.prepares] at hphase
  | acted plan scope run run' gate action jobs hphase =>
    -- A thread that drains is stoppable only if it has leased a job already.
    have hleased : d.leased = true := by
      rcases hstoppable with hleased | hfinished | ⟨-, hwaiting⟩
      · exact hleased
      · simp [hphase] at hfinished
      · simp [hphase] at hwaiting
    exact ⟨.inl (by simp [hleased]), fun _ => hleased⟩
  | vanished plan scope run hphase | askedGate plan scope run row hphase
  | clearedSignal plan scope run row hphase =>
    refine ⟨?_, id⟩
    rcases hstoppable with hleased | hfinished | ⟨-, hwaiting⟩
    · exact .inl hleased
    · simp [hphase] at hfinished
    · simp [hphase] at hwaiting

end Moves

/-! ## The system -/

namespace World

/-- The trigger finds every thread stoppable, and no resume comes after it. -/
def StopsCleanly (w : World) : WorldLabel → Prop
  | .trigger => ∀ d ∈ w.drains, d.Stoppable
  | .serve (.resume _) => w.shared.stopTriggered = false
  | _ => True

/-- The invariant: after the trigger every thread is stoppable. -/
structure Halted (w : World) : Prop where
  leasedInDrain : ∀ d ∈ w.drains, d.LeasedInDrain
  stoppable : w.shared.stopTriggered = true → ∀ d ∈ w.drains, d.Stoppable

/-- The label is no trigger and no resume. -/
def isOrdinary : WorldLabel → Bool
  | .trigger | .serve (.resume _) => false
  | _ => true

theorem stopsCleanly_of_ordinary {l : WorldLabel} (h : isOrdinary l = true) (w : World) :
    w.StopsCleanly l := by
  cases l with
  | serve call =>
    cases call with
    | resume assessmentId => cases h
    | _ => trivial
  | trigger => cases h
  | drain index move => trivial

section Step

variable {deployment : Deployment} {w u : World}

theorem stopTriggered_of_moved {s s' : Shared} {d d' : Drain} (h : d.Moved deployment s s' d') :
    s'.stopTriggered = s.stopTriggered := by
  cases h <;> rfl

/-- A thread that a call starts may be stopped, unless it is a resume. -/
theorem spawned_stoppable {call : ServiceCall} (hcall : ∀ id, call ≠ .resume id) {d : Drain}
    (hd : d ∈ call.spawned) : d.Stoppable := by
  cases call with
  | start assessmentId actorRole grantId now =>
    obtain rfl := List.mem_singleton.mp hd
    exact .inr (.inr ⟨rfl, .inl rfl⟩)
  | resume assessmentId => exact absurd rfl (hcall assessmentId)
  | _ => simp [ServiceCall.spawned] at hd

theorem Halted.step (hinv : w.Halted) {l : WorldLabel} (hcond : w.StopsCleanly l)
    (hstep : w.step deployment l = some u) : u.Halted := by
  cases l with
  | serve call =>
    obtain ⟨-, -, hserve, hu⟩ := step_serve hstep
    constructor
    · intro d hd
      rw [hu] at hd
      rcases List.mem_append.mp hd with hd | hd
      · exact hinv.leasedInDrain d hd
      · obtain ⟨-, hleased, -⟩ := spawned_row hserve hd
        intro h
        simp [hleased] at h
    · intro hstop d hd
      have hstop' : w.shared.stopTriggered = true := by
        rw [hu] at hstop
        exact hstop
      rw [hu] at hd
      rcases List.mem_append.mp hd with hd | hd
      · exact hinv.stoppable hstop' d hd
      · -- A resume does not come after the trigger, and any other thread starts at its stop check.
        refine spawned_stoppable ?_ hd
        rintro id rfl
        rw [show w.shared.stopTriggered = false from hcond] at hstop'
        cases hstop'
  | trigger =>
    cases hstep
    exact ⟨hinv.leasedInDrain, fun _ => hcond⟩
  | drain index move =>
    obtain ⟨d, s', d', hd, hmove, rfl⟩ := step_drain hstep
    have hmoved := Drain.moved_of_move hmove
    have hdmem := List.mem_of_getElem? hd
    constructor
    · intro x hx
      rcases mem_set_cases hx with rfl | hx
      · exact hmoved.leasedInDrain (hinv.leasedInDrain d hdmem)
      · exact hinv.leasedInDrain x hx
    · intro hstop x hx
      have hstop' : w.shared.stopTriggered = true := by
        rw [← stopTriggered_of_moved hmoved]
        exact hstop
      rcases mem_set_cases hx with rfl | hx
      · exact (hmoved.stoppable hstop' (hinv.stoppable hstop' d hdmem)).1
      · exact hinv.stoppable hstop' x hx

/-- Over one step after the trigger, no thread leases its first job. -/
theorem Halted.leased_before (hinv : w.Halted) (hstop : w.shared.stopTriggered = true)
    {l : WorldLabel} (hstep : w.step deployment l = some u) {i : ℕ} {d' : Drain}
    (hd' : u.drains[i]? = some d') (hleased : d'.leased = true) :
    ∃ d, w.drains[i]? = some d ∧ d.leased = true := by
  cases l with
  | serve call =>
    obtain ⟨-, -, hserve, hu⟩ := step_serve hstep
    rw [hu] at hd'
    rcases getElem?_append_cases hd' with hd | ⟨hnew, -⟩
    · exact ⟨d', hd, hleased⟩
    · obtain ⟨-, hfresh, -⟩ := spawned_row hserve hnew
      simp [hfresh] at hleased
  | trigger =>
    cases hstep
    exact ⟨d', hd', hleased⟩
  | drain index move =>
    obtain ⟨d, s', moved, hd, hmove, rfl⟩ := step_drain hstep
    rcases getElem?_set_cases hd' with ⟨rfl, rfl⟩ | ⟨-, hd'⟩
    · have hstoppable := hinv.stoppable hstop d (List.mem_of_getElem? hd)
      exact ⟨d, hd, ((Drain.moved_of_move hmove).stoppable hstop hstoppable).2 hleased⟩
    · exact ⟨d', hd', hleased⟩

theorem stopTriggered_step (hstop : w.shared.stopTriggered = true) {l : WorldLabel}
    (hstep : w.step deployment l = some u) : u.shared.stopTriggered = true := by
  cases l with
  | serve call =>
    obtain ⟨-, -, -, hu⟩ := step_serve hstep
    rw [hu]
    exact hstop
  | trigger =>
    cases hstep
    rfl
  | drain index move =>
    obtain ⟨d, s', d', -, hmove, rfl⟩ := step_drain hstep
    exact (stopTriggered_of_moved (Drain.moved_of_move hmove)).trans hstop

/-- After the trigger no thread stands between its stop check and its drain. -/
theorem Halted.prepares_eq_none (hinv : w.Halted) (hstop : w.shared.stopTriggered = true)
    {d : Drain} (hd : d ∈ w.drains) : d.phase.prepares = none := by
  rcases hinv.stoppable hstop d hd with hleased | hphase | ⟨-, hphase | hphase⟩
  · rcases hinv.leasedInDrain d hd hleased with hphase | ⟨_, _, _, _, hphase⟩
    · rw [hphase]
      rfl
    · rw [hphase]
      rfl
  all_goals
    rw [hphase]
    rfl

end Step

/-! ## Runs -/

theorem halted_init (scopes : Table ScopeSnapshot ScopeSnapshot.id) :
    Halted { shared := { repo := { scopes } } } where
  leasedInDrain d hd := by simp at hd
  stoppable hstop := by simp at hstop

/-- **Nothing begins after the trigger**, in every run in which it finds no thread between its stop
check and its first lease and no resume follows: no permit is issued, none passes verification, and
a thread that had not leased a job at the trigger leases none. -/
theorem nothing_begins_after_trigger {deployment : Deployment}
    {scopes : Table ScopeSnapshot ScopeSnapshot.id} {s t : World}
    (h : Reaches (World.step deployment) StopsCleanly { shared := { repo := { scopes } } } s)
    (hstop : s.shared.stopTriggered = true)
    (h' : Reaches (World.step deployment) StopsCleanly s t) :
    (∀ i nonce now, t.step deployment (.drain i (.issue nonce now)) = none) ∧
      (∀ i now, t.step deployment (.drain i (.verify now)) = none) ∧
      ∀ (i : ℕ) (d' : Drain), t.drains[i]? = some d' → d'.leased = true →
        ∃ d : Drain, s.drains[i]? = some d ∧ d.leased = true := by
  have hinvS : s.Halted :=
    h.invariant (halted_init scopes) fun _ _ _ hinv hcond hstep => hinv.step hcond hstep
  -- The switch stays on, and first leases are only those of before.
  obtain ⟨hinv, hstop', hleased⟩ : t.Halted ∧ t.shared.stopTriggered = true ∧
      ∀ (i : ℕ) (d' : Drain), t.drains[i]? = some d' → d'.leased = true →
        ∃ d : Drain, s.drains[i]? = some d ∧ d.leased = true := by
    induction h' with
    | refl => exact ⟨hinvS, hstop, fun i d' hd' hleased => ⟨d', hd', hleased⟩⟩
    | tail _ hcond hstep ih =>
      obtain ⟨hinv, hon, hbefore⟩ := ih
      refine ⟨hinv.step hcond hstep, stopTriggered_step hon hstep, ?_⟩
      intro i d' hd' hleased
      obtain ⟨d, hd, hdleased⟩ := hinv.leased_before hon hstep hd' hleased
      exact hbefore i d hd hdleased
  refine ⟨?_, ?_, hleased⟩
  -- A thread that issues or verifies a permit stands between its stop check and its drain.
  · intro i nonce now
    by_contra hsome
    obtain ⟨u, hu⟩ := Option.ne_none_iff_exists'.mp hsome
    obtain ⟨d, s', d', hd, hmove, -⟩ := step_drain hu
    have hnone := hinv.prepares_eq_none hstop' (List.mem_of_getElem? hd)
    simp only [Drain.move] at hmove
    split at hmove
    next plan scope hphase => simp [hphase, Phase.prepares] at hnone
    next => cases hmove
  · intro i now
    by_contra hsome
    obtain ⟨u, hu⟩ := Option.ne_none_iff_exists'.mp hsome
    obtain ⟨d, s', d', hd, hmove, -⟩ := step_drain hu
    have hnone := hinv.prepares_eq_none hstop' (List.mem_of_getElem? hd)
    simp only [Drain.move] at hmove
    split at hmove
    next plan scope permit hphase => simp [hphase, Phase.prepares] at hnone
    next => cases hmove

/-! ## A trigger between check and lease -/

/-- The trigger revokes the permit of a thread that has passed its stop check; the permit still
verifies, and the thread leases its first job. -/
theorem revoked_permit_passes :
    ∃ s t, runLabels (World.step sampleDeployment) sampleWorld
        (startCalls oneStep {.passive} ++ beginMoves ++
          [.drain 0 (.load 1), .drain 0 (.issue "nonce" 1), .drain 0 .register, .trigger]) = some s ∧
      s.shared.stopTriggered = true ∧ "nonce" ∈ s.shared.revoker.revoked ∧
      s.drains.map Drain.leased = [false] ∧
      runLabels (World.step sampleDeployment) s
        [.drain 0 (.verify 2), .drain 0 .markUsed, .drain 0 .recordNonce,
          .drain 0 (.checkScope none none 0 2), .drain 0 (.act .dispatchStep),
          .drain 0 (.act .scan), .drain 0 .gateRead, .drain 0 (.act .submit),
          .drain 0 (.act (.lease 0))] = some t ∧
      t.drains.map Drain.leased = [true] ∧
      (t.shared.jobs.get? "job:scan").map Job.status = some .leased := by
  refine ⟨_, _, rfl, rfl, List.mem_singleton_self _, rfl, rfl, rfl, rfl⟩

/-- A drain of `execute` that has not begun. -/
def isQueuedExecute (d : Drain) : Bool := d.kind == .execute && d.phase matches .queued

/-- The trigger finds a thread that is still queued. -/
theorem nothing_begins_after_trigger_queued :
    ∃ s t, Reaches (World.step sampleDeployment) StopsCleanly sampleWorld s ∧
      s.shared.stopTriggered = true ∧ s.drains.length = 1 ∧
      Reaches (World.step sampleDeployment) StopsCleanly s t ∧
      (∀ i nonce now, t.step sampleDeployment (.drain i (.issue nonce now)) = none) ∧
      (∀ i now, t.step sampleDeployment (.drain i (.verify now)) = none) ∧
      ∀ (i : ℕ) (d' : Drain), t.drains[i]? = some d' → d'.leased = true →
        ∃ d : Drain, s.drains[i]? = some d ∧ d.leased = true := by
  obtain ⟨s, hs⟩ : ∃ s, runLabels (World.step sampleDeployment) sampleWorld
      (startCalls oneStep {.passive} ++ [.trigger]) = some s :=
    Option.isSome_iff_exists.mp (by decide +kernel)
  have hordinary : ∀ labels : List WorldLabel, labels.all isOrdinary = true →
      ∀ w, runMeets (World.step sampleDeployment) StopsCleanly w labels := by
    intro labels hall w
    refine runMeets_of_forall fun l hl w => stopsCleanly_of_ordinary ?_ w
    exact List.all_eq_true.mp hall l hl
  have hmeets : runMeets (World.step sampleDeployment) StopsCleanly sampleWorld
      (startCalls oneStep {.passive} ++ [.trigger]) := by
    refine runMeets_append (hordinary _ (by decide +kernel) _) fun w hw => ⟨?_, fun _ _ => trivial⟩
    -- The only thread has not reached its stop check.
    have hqueued : w.drains.all isQueuedExecute = true :=
      eq_of_runLabels (fun w => w.drains.all isQueuedExecute) hw (by decide +kernel)
    intro d hd
    have hd' := List.all_eq_true.mp hqueued d hd
    rw [isQueuedExecute, Bool.and_eq_true] at hd'
    refine .inr (.inr ⟨by simpa using hd'.1, .inl ?_⟩)
    cases hphase : d.phase <;> simp [hphase] at hd' ⊢
  have hreach := Reaches.of_runLabels hs hmeets
  have hstop : s.shared.stopTriggered = true :=
    eq_of_runLabels (fun w => w.shared.stopTriggered) hs (by decide +kernel)
  have hlength : s.drains.length = 1 :=
    eq_of_runLabels (fun w => w.drains.length) hs (by decide +kernel)
  have hsome : (runLabels (World.step sampleDeployment) s beginMoves).isSome = true :=
    eq_of_runLabels (fun w => (runLabels (World.step sampleDeployment) w beginMoves).isSome) hs
      (by decide +kernel)
  obtain ⟨t, ht⟩ := Option.isSome_iff_exists.mp hsome
  have hreach' := Reaches.of_runLabels ht (hordinary _ (by decide +kernel) s)
  exact ⟨s, t, hreach, hstop, hlength, hreach', nothing_begins_after_trigger hreach hstop hreach'⟩

end World

end SecOpent
