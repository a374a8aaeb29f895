import Mathlib.Data.Finset.Basic
import Mathlib.Data.List.Nodup
import Mathlib.Logic.Function.Basic
import SecOpent.Jobs.Orchestrator

/-!
# The course of a plan

What one run of a plan does to its steps, with the job store left out: a step has a status and a
number of attempts, and rounds of running what is ready and unblocking what may run follow each
other. The jobs of other plans, the leases and the ids are not there; the runs of the orchestrator
are courses.

## Main definitions

* `Course`: the states of the steps, the steps that a round still has to run, and the log
* `Course.Step`: what one access to the store, or one move between two rounds, does to a course
* `Course.Lawful`: the invariant, which ties the log to the states

## Main results

* `Lawful.step`: the invariant is kept
-/

namespace SecOpent

/-! ## Phases and events -/

/-- What `run_to_completion` returns. -/
inductive RunAnswer
  | completed | paused | cancelled
  deriving DecidableEq, Repr

/-- Where a run is: at the head of the loop with some rounds left, in `execute_ready` (`executed` says
whether the round has targets), or waiting for the pool after the gate stopped it. -/
inductive RunPhase
  | scanning (rounds : ℕ)
  | executing (rounds : ℕ) (executed : Bool)
  | resolving (rounds : ℕ) (executed : Bool)
  | marking (rounds : ℕ) (executed : Bool)
  | stopping (answer : RunAnswer)
  | returned (answer : RunAnswer)
  deriving DecidableEq

/-- What the log of a run keeps: the runner was called, and how the call ended. -/
inductive RunEvent
  | began (key : String) (attempt : ℕ)
  | ended (key : String) (attempt : ℕ) (outcome : StepOutcome)
  deriving DecidableEq

/-- The steps of a round may run, in the round or while the pool is joined. -/
def RunPhase.RunsSteps (phase : RunPhase) : Prop :=
  (∃ rounds executed, phase = .executing rounds executed) ∨ ∃ answer, phase = .stopping answer

/-- The runner was called for the step. -/
def RunEvent.begins (key : String) : RunEvent → Bool
  | .began key' _ => key' == key
  | .ended _ _ _ => false

/-- A policy failure and a later call for the same step. -/
def RunEvent.Retries : RunEvent → RunEvent → Prop
  | .ended key _ (.failure failure), .began key' _ => key' = key ∧ failure ∈ policyFailures
  | _, _ => False

/-- Every call of the runner comes after the results of the dependencies. -/
def DependenciesFirst (steps : List PlanStep) (log : List RunEvent) : Prop :=
  ∀ earlier key attempt later, log = earlier ++ .began key attempt :: later →
    ∀ step ∈ steps, step.key = key → ∀ d ∈ step.dependencies,
      ∃ attempt' digest, .ended d attempt' (.result digest) ∈ earlier

theorem DependenciesFirst.concat {steps : List PlanStep} {log : List RunEvent} {event : RunEvent}
    (h : DependenciesFirst steps log)
    (hevent : ∀ key attempt, event = .began key attempt → ∀ step ∈ steps, step.key = key →
      ∀ d ∈ step.dependencies, ∃ attempt' digest, .ended d attempt' (.result digest) ∈ log) :
    DependenciesFirst steps (log ++ [event]) := by
  intro earlier key attempt later hlog
  rcases List.eq_nil_or_concat later with rfl | ⟨later, last, rfl⟩
  · obtain ⟨rfl, hlast⟩ := List.append_inj' hlog rfl
    exact hevent key attempt (List.singleton_inj.mp hlast)
  · rw [List.concat_eq_append, ← List.cons_append, ← List.append_assoc] at hlog
    exact h earlier key attempt later (List.append_inj' hlog rfl).1

/-! ## Courses -/

/-- `max_attempts`, which `dispatch` leaves at its default. -/
def maxAttempts : ℕ := 3

/-- The state in which a step is dispatched. -/
def initialState (step : PlanStep) : JobStatus × ℕ :=
  (if step.dependencies = [] then .ready else .blocked, 0)

/-- The state of a step when a call of the runner has ended. -/
def afterOutcome (attempt : ℕ) : StepOutcome → JobStatus × ℕ
  | .result _ => (.succeeded, attempt)
  | .failure failure =>
    if failure ∈ policyFailures then (.policyDenied, attempt)
    else if failure ∈ retryableFailures ∧ attempt < maxAttempts then (.ready, attempt)
    else (.failed, attempt)

theorem afterOutcome_attempts (n : ℕ) (outcome : StepOutcome) : (afterOutcome n outcome).2 = n := by
  cases outcome with
  | result digest => rfl
  | failure failure =>
    simp only [afterOutcome]
    split_ifs <;> rfl

theorem afterOutcome_ready {n : ℕ} {outcome : StepOutcome}
    (h : (afterOutcome n outcome).1 = .ready) : n < maxAttempts := by
  cases outcome with
  | result digest => cases h
  | failure failure =>
    simp only [afterOutcome] at h
    split_ifs at h with _ hretry
    · exact hretry.2

theorem afterOutcome_ne_blocked (n : ℕ) (outcome : StepOutcome) :
    (afterOutcome n outcome).1 ≠ .blocked := by
  cases outcome with
  | result digest => exact JobStatus.noConfusion
  | failure failure =>
    simp only [afterOutcome]
    split_ifs <;> exact JobStatus.noConfusion

theorem afterOutcome_succeeded {n : ℕ} {outcome : StepOutcome}
    (h : (afterOutcome n outcome).1 = .succeeded) : ∃ digest, outcome = .result digest := by
  cases outcome with
  | result digest => exact ⟨digest, rfl⟩
  | failure failure =>
    simp only [afterOutcome] at h
    split_ifs at h

/-- The steps of a plan by key, in the middle of a run: the status and the attempts of those that are
dispatched, the keys that wait for a call of the runner in this round, those that are running, and
those that are about to be marked ready. -/
@[ext]
structure Course where
  states : String → Option (JobStatus × ℕ)
  waiting : Finset String
  running : Finset String
  marked : Finset String
  phase : RunPhase
  log : List RunEvent

namespace Course

/-- The step has succeeded. -/
def Succeeded (c : Course) (key : String) : Prop := ∃ n, c.states key = some (.succeeded, n)

/-- All steps are dispatched. -/
def AllDispatched (steps : List PlanStep) (c : Course) : Prop :=
  ∀ step ∈ steps, ∃ x, c.states step.key = some x

/-- One step of a course. -/
inductive Step (steps : List PlanStep) : Course → Course → Prop
  /-- An access that changes no step of the plan. -/
  | quiet {c : Course} : Step steps c c
  | dispatched {c : Course} {step : PlanStep} {rounds : ℕ} : c.phase = .scanning rounds →
      step ∈ steps → c.states step.key = none →
      Step steps c
        { c with states := Function.update c.states step.key (some (initialState step)) }
  | scanned {c : Course} {waiting : Finset String} {rounds : ℕ} :
      c.phase = .scanning (rounds + 1) → AllDispatched steps c → c.running = ∅ →
      (∀ key, key ∈ waiting ↔ ∃ step ∈ steps, step.key = key ∧
        ∃ n, c.states key = some (.ready, n)) →
      Step steps c { c with waiting, phase := .executing rounds (decide waiting.Nonempty) }
  | began {c : Course} {key : String} {n : ℕ} : c.phase.RunsSteps → key ∈ c.waiting →
      c.states key = some (.ready, n) →
      Step steps c { c with
        states := Function.update c.states key (some (.leased, n + 1))
        waiting := c.waiting.erase key
        running := insert key c.running
        log := c.log ++ [.began key (n + 1)] }
  | ended {c : Course} {key : String} {n : ℕ} (outcome : StepOutcome) : c.phase.RunsSteps →
      key ∈ c.running → c.states key = some (.leased, n) →
      Step steps c { c with
        states := Function.update c.states key (some (afterOutcome n outcome))
        running := c.running.erase key
        log := c.log ++ [.ended key n outcome] }
  | gathered {c : Course} {rounds : ℕ} {executed : Bool} : c.phase = .executing rounds executed →
      c.waiting = ∅ → c.running = ∅ → Step steps c { c with phase := .resolving rounds executed }
  | found {c : Course} {marked : Finset String} {rounds : ℕ} {executed : Bool} :
      c.phase = .resolving rounds executed →
      (∀ key, key ∈ marked ↔ ∃ step ∈ steps, step.key = key ∧
        (∃ n, c.states key = some (.blocked, n)) ∧ ∀ d ∈ step.dependencies, c.Succeeded d) →
      Step steps c { c with marked, phase := .marking rounds executed }
  | readied {c : Course} {key : String} {n rounds : ℕ} {executed : Bool} :
      c.phase = .marking rounds executed → key ∈ c.marked → c.states key = some (.blocked, n) →
      (∀ step ∈ steps, step.key = key → ∀ d ∈ step.dependencies, c.Succeeded d) →
      Step steps c { c with
        states := Function.update c.states key (some (.ready, n))
        marked := c.marked.erase key }
  | next {c : Course} {rounds : ℕ} {executed : Bool} : c.phase = .marking rounds executed →
      c.marked = ∅ →
      Step steps c { c with
        phase := if executed then .scanning rounds else .returned .completed }
  | exhausted {c : Course} : c.phase = .scanning 0 → AllDispatched steps c →
      Step steps c { c with phase := .returned .completed }
  /-- The gate stops the round: its steps that do not run are given up. -/
  | stopped {c : Course} {waiting : Finset String} {answer : RunAnswer} {rounds : ℕ}
      {executed : Bool} : c.phase = .executing rounds executed → answer ≠ .completed →
      Step steps c { c with waiting, phase := .stopping answer }
  | left {c : Course} {answer : RunAnswer} : c.phase = .stopping answer →
      Step steps c { c with phase := .returned answer }

theorem Step.of_eq {steps : List PlanStep} {c c' c'' : Course} (h : Step steps c c')
    (heq : c'' = c') : Step steps c c'' :=
  heq ▸ h

/-! ## The log and the states -/

/-- What ties the log of a course to the states of the steps. -/
structure Lawful (steps : List PlanStep) (c : Course) : Prop where
  attempts : ∀ key, c.log.countP (RunEvent.begins key) = ((c.states key).map Prod.snd).getD 0
  limit : ∀ key status n, c.states key = some (status, n) →
    n ≤ maxAttempts ∧ (status = .ready → n < maxAttempts) ∧ (status = .blocked → n = 0)
  succeeded : ∀ key, c.Succeeded key → ∃ attempt digest,
    .ended key attempt (.result digest) ∈ c.log
  denied : ∀ key attempt failure, .ended key attempt (.failure failure) ∈ c.log →
    failure ∈ policyFailures → ∃ n, c.states key = some (.policyDenied, n)
  unblocked : ∀ step ∈ steps, ∀ status n, c.states step.key = some (status, n) →
    status ≠ .blocked → ∀ d ∈ step.dependencies, c.Succeeded d
  ordered : DependenciesFirst steps c.log
  final : c.log.Pairwise fun event later => ¬event.Retries later

section Lawful

variable {steps : List PlanStep} {c c' : Course} {key : String} {x : JobStatus × ℕ}

/-- A step that has succeeded is left alone by a change of a step that has not. -/
theorem Succeeded.update {d : String} (h : c.Succeeded d) (hnot : ¬c.Succeeded key)
    (hstates : c'.states = Function.update c.states key (some x)) : c'.Succeeded d := by
  obtain ⟨n, hn⟩ := h
  have hne : d ≠ key := by
    rintro rfl
    exact hnot ⟨n, hn⟩
  exact ⟨n, by rw [hstates, Function.update_of_ne hne, hn]⟩

theorem not_succeeded_of_states {status : JobStatus} {n : ℕ}
    (h : c.states key = some (status, n)) (hstatus : status ≠ .succeeded) :
    ¬c.Succeeded key := by
  rintro ⟨m, hm⟩
  rw [h] at hm
  simp only [Option.some.injEq, Prod.mk.injEq] at hm
  exact hstatus hm.1

theorem Lawful.congr (h : Lawful steps c) (hstates : c'.states = c.states)
    (hlog : c'.log = c.log) : Lawful steps c' := by
  have hsucceeded : ∀ d, c'.Succeeded d ↔ c.Succeeded d := by
    intro d
    rw [Succeeded, Succeeded, hstates]
  refine ⟨?_, ?_, ?_, ?_, ?_, hlog ▸ h.ordered, hlog ▸ h.final⟩
  · rw [hstates, hlog]
    exact h.attempts
  · rw [hstates]
    exact h.limit
  · intro key hkey
    rw [hlog]
    exact h.succeeded key ((hsucceeded key).mp hkey)
  · rw [hstates, hlog]
    exact h.denied
  · intro step hstep status n hstatus hne d hd
    rw [hstates] at hstatus
    exact (hsucceeded d).mpr (h.unblocked step hstep status n hstatus hne d hd)

/-- A step that is blocked or not dispatched is given a state and the log stays. -/
theorem Lawful.waits (h : Lawful steps c) (hlog : c'.log = c.log)
    (hstates : c'.states = Function.update c.states key (some x))
    (hold : ∀ status n, c.states key = some (status, n) → status = .blocked)
    (hx : x.2 = 0 ∧ (x.1 = .ready ∨ x.1 = .blocked))
    (hdependencies : x.1 ≠ .blocked → ∀ step ∈ steps, step.key = key →
      ∀ d ∈ step.dependencies, c.Succeeded d) : Lawful steps c' := by
  have hnot : ¬c.Succeeded key := by
    rintro ⟨n, hn⟩
    cases hold _ _ hn
  have hsucceeded : ∀ d, c'.Succeeded d → c.Succeeded d := by
    rintro d ⟨n, hn⟩
    rw [hstates] at hn
    by_cases heq : d = key
    · rw [heq, Function.update_self, Option.some.injEq] at hn
      rcases hx.2 with hx | hx <;> simp [hn] at hx
    · rw [Function.update_of_ne heq] at hn
      exact ⟨n, hn⟩
  refine ⟨fun key' => ?_, fun key' status n hkey => ?_, fun key' hkey => ?_, ?_, ?_,
    hlog ▸ h.ordered, hlog ▸ h.final⟩
  · rw [hlog, h.attempts, hstates]
    by_cases heq : key' = key
    · subst heq
      rw [Function.update_self]
      -- A step that waits has made no attempt.
      cases hold' : c.states key' with
      | none => simp [hx.1]
      | some old =>
        obtain ⟨status, n⟩ := old
        have hzero : n = 0 := (h.limit _ _ _ hold').2.2 (hold _ _ hold')
        simp [hx.1, hzero]
    · rw [Function.update_of_ne heq]
  · rw [hstates] at hkey
    by_cases heq : key' = key
    · rw [heq, Function.update_self, Option.some.injEq] at hkey
      rw [hkey] at hx
      obtain ⟨hzero, -⟩ := hx
      dsimp only at hzero
      rw [hzero]
      exact ⟨Nat.zero_le _, fun _ => by decide, fun _ => rfl⟩
    · rw [Function.update_of_ne heq] at hkey
      exact h.limit _ _ _ hkey
  · rw [hlog]
    exact h.succeeded key' (hsucceeded key' hkey)
  · intro key' attempt failure hmem hpolicy
    rw [hlog] at hmem
    obtain ⟨n, hn⟩ := h.denied key' attempt failure hmem hpolicy
    have heq : key' ≠ key := by
      rintro rfl
      cases hold _ _ hn
    exact ⟨n, by rw [hstates, Function.update_of_ne heq, hn]⟩
  · intro step hstep status n hstatus hne d hd
    refine Succeeded.update ?_ hnot hstates
    rw [hstates] at hstatus
    by_cases heq : step.key = key
    · rw [heq, Function.update_self, Option.some.injEq] at hstatus
      exact hdependencies (by simpa [hstatus] using hne) step hstep heq d hd
    · rw [Function.update_of_ne heq] at hstatus
      exact h.unblocked step hstep status n hstatus hne d hd

/-- A step that was not blocked may change: dependencies that have succeeded still have. -/
theorem Lawful.unblocked_update {old : JobStatus} {n : ℕ} (h : Lawful steps c)
    (hold : c.states key = some (old, n)) (hnot : old ≠ .succeeded) (hblocked : old ≠ .blocked)
    (hstates : c'.states = Function.update c.states key (some x)) :
    ∀ step ∈ steps, ∀ status m, c'.states step.key = some (status, m) → status ≠ .blocked →
      ∀ d ∈ step.dependencies, c'.Succeeded d := by
  intro step hstep status m hstatus hne d hd
  refine Succeeded.update ?_ (not_succeeded_of_states hold hnot) hstates
  by_cases heq : step.key = key
  · exact h.unblocked step hstep old n (heq ▸ hold) hblocked d hd
  · rw [hstates, Function.update_of_ne heq] at hstatus
    exact h.unblocked step hstep status m hstatus hne d hd

/-- A step that was not denied may change: those that were denied still are. -/
theorem Lawful.denied_update {old : JobStatus} {n : ℕ} (h : Lawful steps c)
    (hold : c.states key = some (old, n)) (hnot : old ≠ .policyDenied)
    (hstates : c'.states = Function.update c.states key (some x)) {key' : String} {attempt : ℕ}
    {failure : FailureClass} (hended : .ended key' attempt (.failure failure) ∈ c.log)
    (hpolicy : failure ∈ policyFailures) : ∃ m, c'.states key' = some (.policyDenied, m) := by
  obtain ⟨m, hm⟩ := h.denied key' attempt failure hended hpolicy
  have heq : key' ≠ key := by
    rintro rfl
    rw [hold, Option.some.injEq, Prod.mk.injEq] at hm
    exact hnot hm.1
  exact ⟨m, by rw [hstates, Function.update_of_ne heq, hm]⟩

theorem Lawful.began {n : ℕ} (h : Lawful steps c) (hready : c.states key = some (.ready, n))
    (hstates : c'.states = Function.update c.states key (some (.leased, n + 1)))
    (hlog : c'.log = c.log ++ [.began key (n + 1)]) : Lawful steps c' := by
  have hmem : ∀ key' attempt outcome, RunEvent.ended key' attempt outcome ∈ c'.log →
      RunEvent.ended key' attempt outcome ∈ c.log := by
    intro key' attempt outcome hmem
    rw [hlog] at hmem
    simpa using hmem
  refine ⟨fun key' => ?_, fun key' status m hkey => ?_, fun key' hkey => ?_, ?_, ?_, ?_, ?_⟩
  · have hcount := h.attempts key'
    rw [hlog, List.countP_append, hcount, hstates]
    by_cases heq : key' = key
    · subst heq
      simp [hready, RunEvent.begins]
    · simp [RunEvent.begins, Function.update_of_ne heq, Ne.symm heq]
  · rw [hstates] at hkey
    by_cases heq : key' = key
    · rw [heq, Function.update_self, Option.some.injEq, Prod.mk.injEq] at hkey
      obtain ⟨rfl, rfl⟩ := hkey
      exact ⟨(h.limit _ _ _ hready).2.1 rfl, JobStatus.noConfusion, JobStatus.noConfusion⟩
    · rw [Function.update_of_ne heq] at hkey
      exact h.limit _ _ _ hkey
  · obtain ⟨m, hm⟩ := hkey
    have heq : key' ≠ key := by
      rintro rfl
      rw [hstates, Function.update_self] at hm
      cases hm
    rw [hstates, Function.update_of_ne heq] at hm
    obtain ⟨attempt, digest, hended⟩ := h.succeeded key' ⟨m, hm⟩
    exact ⟨attempt, digest, by rw [hlog]; simp [hended]⟩
  · exact fun key' attempt failure hended => h.denied_update hready JobStatus.noConfusion hstates
      (hmem _ _ _ hended)
  · exact h.unblocked_update hready JobStatus.noConfusion JobStatus.noConfusion hstates
  · rw [hlog]
    refine h.ordered.concat fun key' attempt hevent step hstep hkey d hd => ?_
    -- A step that is ready has dependencies that all succeeded.
    cases hevent
    have hsucceeded := h.unblocked step hstep .ready n (by rw [hkey, hready])
      JobStatus.noConfusion d hd
    exact h.succeeded d hsucceeded
  · rw [hlog, List.pairwise_append]
    refine ⟨h.final, List.pairwise_singleton _ _, fun event hevent later hlater => ?_⟩
    rw [List.mem_singleton.mp hlater]
    intro hretries
    cases event with
    | began => exact hretries
    | ended key' attempt outcome =>
      cases outcome with
      | result digest => exact hretries
      | failure failure =>
        -- A step with a policy failure is denied, not ready.
        obtain ⟨rfl, hpolicy⟩ := hretries
        obtain ⟨m, hm⟩ := h.denied key attempt failure hevent hpolicy
        rw [hready] at hm
        cases hm

theorem Lawful.ended {n : ℕ} {outcome : StepOutcome} (h : Lawful steps c)
    (hleased : c.states key = some (.leased, n))
    (hstates : c'.states = Function.update c.states key (some (afterOutcome n outcome)))
    (hlog : c'.log = c.log ++ [.ended key n outcome]) : Lawful steps c' := by
  refine ⟨fun key' => ?_, fun key' status m hkey => ?_, fun key' hkey => ?_, ?_, ?_, ?_, ?_⟩
  · have hcount := h.attempts key'
    rw [hlog, List.countP_append, hcount, hstates]
    by_cases heq : key' = key
    · subst heq
      simp [hleased, RunEvent.begins, afterOutcome_attempts]
    · simp [RunEvent.begins, Function.update_of_ne heq]
  · rw [hstates] at hkey
    by_cases heq : key' = key
    · rw [heq, Function.update_self, Option.some.injEq] at hkey
      have hn : n = m := by rw [← afterOutcome_attempts n outcome, hkey]
      have hstatus : (afterOutcome n outcome).1 = status := by rw [hkey]
      rw [← hn, ← hstatus]
      exact ⟨(h.limit _ _ _ hleased).1, afterOutcome_ready,
        fun hblocked => absurd hblocked (afterOutcome_ne_blocked n outcome)⟩
    · rw [Function.update_of_ne heq] at hkey
      exact h.limit _ _ _ hkey
  · obtain ⟨m, hm⟩ := hkey
    rw [hstates] at hm
    by_cases heq : key' = key
    · rw [heq, Function.update_self, Option.some.injEq] at hm
      obtain ⟨digest, rfl⟩ := afterOutcome_succeeded (by rw [hm])
      exact ⟨n, digest, by rw [hlog, heq]; simp⟩
    · rw [Function.update_of_ne heq] at hm
      obtain ⟨attempt, digest, hended⟩ := h.succeeded key' ⟨m, hm⟩
      exact ⟨attempt, digest, by rw [hlog]; simp [hended]⟩
  · intro key' attempt failure hended hpolicy
    rw [hlog, List.mem_append, List.mem_singleton] at hended
    rcases hended with hended | hended
    · exact h.denied_update hleased JobStatus.noConfusion hstates hended hpolicy
    · cases hended
      exact ⟨n, by simp [hstates, afterOutcome, hpolicy]⟩
  · exact h.unblocked_update hleased JobStatus.noConfusion JobStatus.noConfusion hstates
  · rw [hlog]
    exact h.ordered.concat fun key' attempt hevent => by cases hevent
  · rw [hlog, List.pairwise_append]
    refine ⟨h.final, List.pairwise_singleton _ _, fun event _ later hlater => ?_⟩
    rw [List.mem_singleton.mp hlater]
    cases event with
    | began => exact not_false
    | ended key' attempt outcome =>
      cases outcome with
      | result digest => exact not_false
      | failure failure => exact not_false

/-- **Every step of a course keeps the log lawful.** -/
theorem Lawful.step (hkeys : (steps.map PlanStep.key).Nodup) (h : Lawful steps c)
    (hstep : Step steps c c') : Lawful steps c' := by
  cases hstep with
  | quiet => exact h
  | dispatched hphase hmem hnone =>
    refine h.waits rfl rfl (fun status n hold => ?_) ?_ ?_
    · rw [hnone] at hold
      cases hold
    · refine ⟨rfl, ?_⟩
      simp only [initialState]
      split_ifs
      exacts [.inl rfl, .inr rfl]
    · intro hready step hstep hkey d hd
      -- A step is dispatched ready only without dependencies.
      rw [List.inj_on_of_nodup_map hkeys hstep hmem hkey] at hd
      simp only [initialState] at hready
      split_ifs at hready with hempty
      · rw [hempty] at hd
        cases hd
      · exact absurd rfl hready
  | began hphase hwaiting hready => exact h.began hready rfl rfl
  | ended outcome hphase hrunning hleased => exact h.ended hleased rfl rfl
  | readied hphase hmarked hblocked hdependencies =>
    refine h.waits rfl rfl (fun status n hold => ?_) ?_ fun _ => hdependencies
    · rw [hblocked] at hold
      cases hold
      rfl
    · exact ⟨(h.limit _ _ _ hblocked).2.2 rfl, .inl rfl⟩
  | scanned | gathered | found | next | exhausted | stopped | left => exact h.congr rfl rfl

end Lawful

end Course

end SecOpent
