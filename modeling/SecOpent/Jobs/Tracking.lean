import Mathlib.Data.List.Perm.Lattice
import SecOpent.Jobs.PlanRuns

/-!
# Runs are courses

What the orchestrator holds between its accesses to the store agrees with the store: a target that
waits is a ready job, a target that runs is a leased one, and a job that is about to be marked ready
is blocked. So every step of a run is a step of its course, and what is known about courses holds for
the store and the log of a run.

## Main definitions

* `Tracks`: the orchestrator and the store agree about the jobs of the plan
* `Follows`: the agreement after a step, which is a step of the course

## Main results

* `Tracks.step`: every step keeps the agreement, and is a step of the course
-/

namespace SecOpent

open Python

/-- The orchestrator and the store agree about the jobs of the plan. -/
structure Tracks (plan : ExecutionPlan) (s : PlanRun) : Prop where
  identified : Identified plan s.store s.orchestrator
  waiting : ∀ target ∈ s.orchestrator.targets ++ s.orchestrator.submitted,
    target.2 ∈ plan.steps ∧ target.1.id = jobIdOf target.2 ∧
      ∃ n, stateOf plan s.store target.2.key = some (.ready, n)
  running : ∀ target ∈ s.orchestrator.running,
    target.2 ∈ plan.steps ∧ target.1.id = jobIdOf target.2 ∧ target.1.maxAttempts = maxAttempts ∧
      stateOf plan s.store target.2.key = some (.leased, target.1.attempt)
  once : (targetKeys (s.orchestrator.targets ++ s.orchestrator.submitted ++
    s.orchestrator.running)).Nodup
  leased : ∀ key n, stateOf plan s.store key = some (.leased, n) →
    key ∈ targetKeys s.orchestrator.running
  succeeded : ∀ d ∈ s.orchestrator.succeeded, d ∈ plan.steps.map PlanStep.key →
    ∃ n, stateOf plan s.store d = some (.succeeded, n)
  gathered : ∀ rounds executed, s.phase = .resolving rounds executed →
    ∀ key n, stateOf plan s.store key = some (.succeeded, n) → key ∈ s.orchestrator.succeeded
  marked : ∀ step ∈ plan.steps, jobIdOf step ∈ s.orchestrator.toMark →
    (∃ n, stateOf plan s.store step.key = some (.blocked, n)) ∧
      ∀ d ∈ step.dependencies, d ∈ s.orchestrator.succeeded
  markedOnce : s.orchestrator.toMark.Nodup

/-- The agreement after a step, which is a step of the course. -/
def Follows (plan : ExecutionPlan) (s s' : PlanRun) : Prop :=
  Tracks plan s' ∧ Course.Step plan.steps (s.course plan) (s'.course plan)

section Tracks

variable {plan : ExecutionPlan} {backend : Backend} {ttl : Time} {s s' : PlanRun}

theorem mem_targetKeys {targets : List (Job × PlanStep)} {key : String} :
    key ∈ targetKeys targets ↔ ∃ target ∈ targets, target.2.key = key :=
  List.mem_map

/-- A step that changes no state of the plan, and after which fewer targets may be left. -/
theorem Tracks.congr (h : Tracks plan s) (hidentified : Identified plan s'.store s'.orchestrator)
    (hstates : stateOf plan s'.store = stateOf plan s.store)
    (hwaiting : ∀ target ∈ s'.orchestrator.targets ++ s'.orchestrator.submitted,
      target ∈ s.orchestrator.targets ++ s.orchestrator.submitted)
    (hrunning : s'.orchestrator.running = s.orchestrator.running)
    (honce : (targetKeys (s'.orchestrator.targets ++ s'.orchestrator.submitted ++
      s'.orchestrator.running)).Nodup)
    (hsucceeded : s'.orchestrator.succeeded = s.orchestrator.succeeded)
    (htoMark : s'.orchestrator.toMark.Sublist s.orchestrator.toMark)
    (hphase : ∀ rounds executed, s'.phase ≠ .resolving rounds executed) : Tracks plan s' := by
  refine ⟨hidentified, ?_, ?_, honce, ?_, ?_, ?_, ?_, ?_⟩
  · rw [hstates]
    exact fun target htarget => h.waiting target (hwaiting target htarget)
  · rw [hstates, hrunning]
    exact h.running
  · rw [hstates, hrunning]
    exact h.leased
  · rw [hstates, hsucceeded]
    exact h.succeeded
  · exact fun rounds executed hresolving => absurd hresolving (hphase rounds executed)
  · rw [hstates, hsucceeded]
    exact fun step hstep hmarked => h.marked step hstep (htoMark.mem hmarked)
  · exact h.markedOnce.sublist htoMark

/-! ## The moves of `run_to_completion` -/

/-- A move that only changes the phase. -/
theorem Tracks.move (h : Tracks plan s) {phase : RunPhase}
    (hphase : ∀ rounds executed, phase ≠ .resolving rounds executed) :
    Tracks plan { s with phase } :=
  h.congr h.identified rfl (fun _ htarget => htarget) rfl h.once rfl (.refl _) hphase

theorem course_move (plan : ExecutionPlan) (s : PlanRun) (phase : RunPhase) :
    PlanRun.course plan { s with phase } = { s.course plan with phase } := rfl

/-- All steps are dispatched when none is left. -/
theorem Tracks.allDispatched (h : Tracks plan s) (hnone : s.orchestrator.undispatched = []) :
    (s.course plan).AllDispatched plan.steps := by
  intro step hstep
  obtain ⟨done, hdone, hsteps⟩ := h.identified.dispatched
  rw [hnone, List.append_nil] at hdone
  obtain ⟨-, job, hjob⟩ := hsteps step (hdone ▸ hstep)
  exact ⟨job.state, by rw [course_states, stateOf_step hstep, hjob]; rfl⟩

theorem Tracks.exhaust (h : Tracks plan s) (hstep : s.step backend ttl .exhaust = some s') :
    Follows plan s s' := by
  simp only [PlanRun.step] at hstep
  split at hstep
  next hend =>
    cases hstep
    refine ⟨h.move fun _ _ => RunPhase.noConfusion, ?_⟩
    rw [course_move]
    exact .exhausted hend.1 (h.allDispatched hend.2)
  next => cases hstep

theorem Tracks.stop {answer : RunAnswer} (h : Tracks plan s)
    (hstep : s.step backend ttl (.stop answer) = some s') : Follows plan s s' := by
  simp only [PlanRun.step] at hstep
  split at hstep
  next rounds executed hphase =>
    split at hstep
    next hgate =>
      cases hstep
      refine ⟨h.congr (h.identified.congr rfl rfl rfl) rfl ?_ rfl ?_ rfl (.refl _)
        fun _ _ => RunPhase.noConfusion, ?_⟩
      · intro target htarget
        exact List.mem_append_right _ (by simpa using htarget)
      · refine List.Nodup.sublist ?_ h.once
        simp only [targetKeys, List.nil_append, List.map_append, List.append_assoc]
        exact List.sublist_append_right _ _
      · exact .stopped (c := s.course plan) hphase hgate.1
    next => cases hstep
  next => cases hstep

theorem Tracks.leave (h : Tracks plan s) (hstep : s.step backend ttl .leave = some s') :
    Follows plan s s' := by
  simp only [PlanRun.step] at hstep
  split at hstep
  next answer hphase =>
    split at hstep
    · cases hstep
      refine ⟨h.move fun _ _ => RunPhase.noConfusion, ?_⟩
      rw [course_move]
      exact .left hphase
    · cases hstep
  next => cases hstep

theorem Tracks.next (h : Tracks plan s) (hstep : s.step backend ttl .next = some s') :
    Follows plan s s' := by
  simp only [PlanRun.step] at hstep
  split at hstep
  next rounds executed hphase =>
    split at hstep
    next hnone =>
      cases hstep
      refine ⟨h.move fun rounds' executed' => ?_, ?_⟩
      · split_ifs <;> exact RunPhase.noConfusion
      · rw [course_move]
        refine .next hphase ?_
        simp [PlanRun.course, hnone]
    next => cases hstep
  next => cases hstep

/-! ## Accesses to the store -/

theorem Tracks.dispatchStep (hkeys : (plan.steps.map PlanStep.key).Nodup) (h : Tracks plan s)
    (hstep : s.step backend ttl (.access .dispatchStep) = some s') : Follows plan s s' := by
  obtain ⟨store', o', phase, hact, hafter, rfl⟩ := step_access hstep
  obtain ⟨rfl, rounds, hphase⟩ := after_dispatchStep hafter
  cases hundispatched : s.orchestrator.undispatched with
  | nil => simp [Orchestrator.act, hundispatched] at hact
  | cons step rest =>
    obtain ⟨hadd, hidentified⟩ := h.identified.dispatch hkeys hundispatched
    simp only [Orchestrator.act, hundispatched, hadd, Option.some.injEq, Prod.mk.injEq] at hact
    obtain ⟨rfl, rfl⟩ := hact
    obtain ⟨done, hdone, -⟩ := h.identified.dispatched
    have hmem : step ∈ plan.steps := by simp [hdone, hundispatched]
    -- The store has no job of the step.
    have hnone : stateOf plan s.store step.key = none := by
      rw [stateOf_step hmem, Option.map_eq_none_iff]
      by_contra hsome
      obtain ⟨job, hjob⟩ := Option.ne_none_iff_exists'.mp hsome
      have hid : job.id = jobIdOf step := JobStore.id_of_get? hjob
      exact h.identified.fresh step (by simp [hundispatched]) job
        (JobStore.mem_all.mpr (hid ▸ hjob)) (.inl hid)
    have hstates : stateOf plan (s.store.put (jobOf plan.digest step)) =
        Function.update (stateOf plan s.store) step.key (some (initialState step)) :=
      stateOf_put hmem rfl
    have hother : ∀ {key x}, stateOf plan s.store key = some x →
        stateOf plan (s.store.put (jobOf plan.digest step)) key = some x := by
      intro key x hkey
      rw [hstates, Function.update_of_ne, hkey]
      rintro rfl
      rw [hnone] at hkey
      cases hkey
    refine ⟨⟨hidentified, ?_, ?_, h.once, ?_, ?_, ?_, ?_, h.markedOnce⟩, ?_⟩
    · intro target htarget
      obtain ⟨hplan, hid, n, hready⟩ := h.waiting target htarget
      exact ⟨hplan, hid, n, hother hready⟩
    · intro target htarget
      obtain ⟨hplan, hid, hmax, hleased⟩ := h.running target htarget
      exact ⟨hplan, hid, hmax, hother hleased⟩
    · intro key n hleased
      simp only [hstates] at hleased
      by_cases heq : key = step.key
      · rw [heq, Function.update_self, Option.some.injEq, initialState] at hleased
        split_ifs at hleased <;> cases hleased
      · rw [Function.update_of_ne heq] at hleased
        exact h.leased key n hleased
    · intro d hd hplan
      obtain ⟨n, hn⟩ := h.succeeded d hd hplan
      exact ⟨n, hother hn⟩
    · intro _ _ hresolving
      rw [hphase] at hresolving
      cases hresolving
    · intro other hother' hmarked
      obtain ⟨⟨n, hn⟩, hdeps⟩ := h.marked other hother' hmarked
      exact ⟨⟨n, hother hn⟩, hdeps⟩
    · have hcourse := Course.Step.dispatched (c := s.course plan) hphase hmem hnone
      rw [course_states, ← hstates] at hcourse
      simpa [PlanRun.course, Orchestrator.events, hphase] using hcourse

theorem Tracks.identity (h : Tracks plan s) {step : PlanStep} (hstep : step ∈ plan.steps) {job : Job}
    (hjob : s.store.get? (jobIdOf step) = some job) :
    job.identity = (jobOf plan.digest step).identity := by
  have hid : job.id = jobIdOf step := JobStore.id_of_get? hjob
  exact h.identified.own job (JobStore.mem_all.mpr (hid ▸ hjob)) step hstep (.inl hid)

/-- The state of a step in the job that has its key. -/
theorem Tracks.stateOf_of_mem (h : Tracks plan s) {job : Job} (hjob : job ∈ s.store.all)
    {step : PlanStep} (hstep : step ∈ plan.steps) (hkey : job.planStepKey = step.key) :
    job.id = jobIdOf step ∧ job.dependencies = step.dependencies ∧
      stateOf plan s.store step.key = some job.state := by
  have hidentity := h.identified.own job hjob step hstep (.inr (.inl hkey))
  simp only [Job.identity, Prod.mk.injEq] at hidentity
  obtain ⟨hid, -, -, hdependencies, -⟩ := hidentity
  refine ⟨hid, hdependencies, ?_⟩
  have hget := JobStore.mem_all.mp hjob
  rw [stateOf_step hstep, show jobIdOf step = job.id from hid.symm, hget, Option.map_some]

theorem Tracks.scan (h : Tracks plan s) (hstep : s.step backend ttl (.access .scan) = some s') :
    Follows plan s s' := by
  obtain ⟨store', o', phase, hact, hafter, rfl⟩ := step_access hstep
  obtain ⟨rounds, hphase, rfl⟩ := after_scan hafter
  simp only [Orchestrator.act] at hact
  split at hact
  swap
  · cases hact
  next hguard =>
  simp only [Orchestrator.idle, Bool.and_eq_true, List.isEmpty_iff] at hguard
  obtain ⟨⟨hundispatched, ⟨-, hsubmitted⟩, hrunning⟩, htoMark⟩ := hguard
  cases hact
  set found := (s.store.leaseable s.orchestrator.now).filterMap fun job =>
    (s.orchestrator.steps.get? job.planStepKey).map fun step => (job, step) with hfound
  -- A target is the job of a step that is ready: nothing is leased before the round.
  have htarget : ∀ target ∈ found, target.2 ∈ plan.steps ∧ target.1.id = jobIdOf target.2 ∧
      ∃ n, stateOf plan s.store target.2.key = some (.ready, n) := by
    intro target htarget
    obtain ⟨job, hjob, hpair⟩ := List.mem_filterMap.mp htarget
    obtain ⟨step, hget, rfl⟩ := Option.map_eq_some_iff.mp hpair
    obtain ⟨hjob, hleaseable⟩ := JobStore.mem_leaseable.mp hjob
    obtain ⟨hmem, hkey⟩ := h.identified.known _ _ hget
    obtain ⟨hid, -, hstate⟩ := h.stateOf_of_mem (JobStore.mem_all.mpr hjob) hmem hkey.symm
    refine ⟨hmem, hid, job.attempt, ?_⟩
    simp only [JobStore.isLeaseable, JobStore.isStale, Bool.or_eq_true, Bool.and_eq_true,
      beq_iff_eq] at hleaseable
    rcases hleaseable with hready | ⟨hleased, -⟩
    · rw [hstate, Job.state, hready]
    · have hnone := h.leased step.key job.attempt (by rw [hstate, Job.state, hleased])
      rw [hrunning] at hnone
      cases hnone
  have hready : ∀ key n, stateOf plan s.store key = some (.ready, n) → key ∈ targetKeys found := by
    intro key n hkey
    obtain ⟨step, hmem, rfl, job, hjob, hstate⟩ := exists_of_stateOf hkey
    obtain ⟨done, hdone, hsteps⟩ := h.identified.dispatched
    rw [hundispatched, List.append_nil] at hdone
    have hidentity := h.identity hmem hjob
    simp only [Job.identity, Prod.mk.injEq] at hidentity
    refine mem_targetKeys.mpr ⟨(job, step), ?_, rfl⟩
    refine List.mem_filterMap.mpr ⟨job, JobStore.mem_leaseable.mpr ⟨?_, ?_⟩, ?_⟩
    · rw [hidentity.1]
      exact hjob
    · have hstatus : job.status = .ready := congrArg Prod.fst hstate
      simp [JobStore.isLeaseable, hstatus]
    · rw [show job.planStepKey = step.key from hidentity.2.1, (hsteps step (hdone ▸ hmem)).1]
      rfl
  have honce : (targetKeys found).Nodup := by
    have hids := (filterMap_ids_sublist (fun job => s.orchestrator.steps.get? job.planStepKey)
      (s.store.leaseable s.orchestrator.now)).nodup
      (loopJobsFirst_nodup List.filter_sublist s.store.ids_nodup)
    have hmap : found.map (fun target => target.1.id) =
        (targetKeys found).map ("job:" ++ ·) := by
      rw [targetKeys, List.map_map]
      exact List.map_congr_left fun target hmem => (htarget target hmem).2.1
    exact List.Nodup.of_map _ (hmap ▸ hids)
  refine ⟨⟨h.identified.congr rfl rfl rfl, ?_, ?_, ?_, h.leased, h.succeeded, ?_, h.marked,
    h.markedOnce⟩, ?_⟩
  · intro target hmem
    rw [hsubmitted, List.append_nil] at hmem
    exact htarget target hmem
  · exact h.running
  · rw [hsubmitted, hrunning, List.append_nil, List.append_nil]
    exact honce
  · exact fun _ _ => RunPhase.noConfusion
  · have hcourse := @Course.Step.scanned plan.steps (s.course plan)
      (targetKeys found).toFinset rounds hphase (h.allDispatched hundispatched) (by
        simp [PlanRun.course, targetKeys, hrunning]) ?_
    · have hexecuted : decide (targetKeys found).toFinset.Nonempty = !found.isEmpty := by
        cases found with
        | nil => rfl
        | cons target found => simp [targetKeys]
      rw [hexecuted] at hcourse
      simpa [PlanRun.course, Orchestrator.events, hsubmitted] using hcourse
    · intro key
      rw [List.mem_toFinset, course_states]
      constructor
      · intro hkey
        obtain ⟨target, hmem, rfl⟩ := mem_targetKeys.mp hkey
        obtain ⟨hplan, -, hstate⟩ := htarget target hmem
        exact ⟨target.2, hplan, rfl, hstate⟩
      · rintro ⟨step, -, -, n, hn⟩
        exact hready key n hn

theorem Tracks.submit (h : Tracks plan s) (hstep : s.step backend ttl (.access .submit) = some s') :
    Follows plan s s' := by
  obtain ⟨store', o', phase, hact, hafter, rfl⟩ := step_access hstep
  obtain ⟨rfl, rounds, executed, hphase⟩ := after_submit hafter
  cases htargets : s.orchestrator.targets with
  | nil => simp [Orchestrator.act, htargets] at hact
  | cons target rest =>
    simp only [Orchestrator.act, htargets] at hact
    split at hact
    swap
    · cases hact
    cases hact
    have hperm : (rest ++ (s.orchestrator.submitted ++ [target])).Perm
        (s.orchestrator.targets ++ s.orchestrator.submitted) := by
      rw [htargets, ← List.append_assoc, List.cons_append]
      exact List.perm_append_singleton _ _
    refine ⟨h.congr (h.identified.congr rfl rfl rfl) rfl
      (fun target hmem => hperm.mem_iff.mp hmem) rfl ?_ rfl (.refl _) ?_, ?_⟩
    · exact ((hperm.append_right _).map _).nodup_iff.mpr h.once
    · intro _ _ hresolving
      rw [hphase] at hresolving
      cases hresolving
    · exact .of_eq .quiet (Course.ext rfl (List.toFinset_eq_of_perm _ _ (hperm.map _)) rfl rfl rfl
        (List.append_nil _))

/-! ### Workers -/

theorem targetKeys_perm {targets : List (Job × PlanStep)} {index : ℕ} {target : Job × PlanStep}
    (h : targets[index]? = some target) :
    (targetKeys targets).Perm (target.2.key :: targetKeys (targets.eraseIdx index)) := by
  obtain ⟨hlt, rfl⟩ := List.getElem?_eq_some_iff.mp h
  exact ((List.getElem_cons_eraseIdx_perm hlt).map fun target => target.2.key).symm

theorem toFinset_erase {keys keys' : List String} {key : String} (hperm : keys.Perm (key :: keys'))
    (hnodup : keys.Nodup) : keys'.toFinset = keys.toFinset.erase key := by
  have hnotMem : key ∉ keys' := (List.nodup_cons.mp (hperm.nodup_iff.mp hnodup)).1
  rw [List.toFinset_eq_of_perm _ _ hperm, List.toFinset_cons,
    Finset.erase_insert (by simpa using hnotMem)]

/-- A change of one step leaves the states of those that were in another state. -/
theorem update_of_state_ne {states : String → Option (JobStatus × ℕ)} {key key' : String}
    {x x' : JobStatus × ℕ} (y : Option (JobStatus × ℕ)) (hkey : states key = some x)
    (hkey' : states key' = some x') (hne : x' ≠ x) : Function.update states key y key' = some x' := by
  rw [Function.update_of_ne, hkey']
  rintro rfl
  rw [hkey] at hkey'
  exact hne (Option.some.inj hkey').symm

theorem Tracks.lease {index : ℕ} (h : Tracks plan s)
    (hstep : s.step backend ttl (.access (.lease index)) = some s') : Follows plan s s' := by
  obtain ⟨store', o', phase, hact, hafter, rfl⟩ := step_access hstep
  obtain ⟨rfl, hruns⟩ := after_worker (.inl ⟨index, rfl⟩) hafter
  cases hsubmitted : s.orchestrator.submitted[index]? with
  | none => simp [Orchestrator.act, hsubmitted] at hact
  | some target =>
    obtain ⟨job, step⟩ := target
    have hmemSubmitted := List.mem_of_getElem? hsubmitted
    obtain ⟨hmem, hid, n, hready⟩ := h.waiting _ (List.mem_append_right _ hmemSubmitted)
    dsimp only at hmem hid hready
    -- What waits is ready, so it can be leased.
    have hget := hready
    rw [stateOf_step hmem] at hget
    obtain ⟨found, hfound, hstate⟩ := Option.map_eq_some_iff.mp hget
    obtain ⟨hstatus, rfl⟩ : found.status = .ready ∧ found.attempt = n := by
      simpa [Job.state] using hstate
    have hfoundId : found.id = jobIdOf step := JobStore.id_of_get? hfound
    set leased := JobStore.leasedTo leaseOwnerName (s.orchestrator.now + ttl) found with hleased
    have hlease : s.store.lease ttl job.id leaseOwnerName s.orchestrator.now =
        .ok (s.store.put leased, leased) :=
      JobStore.lease_ok_iff.mpr ⟨found, by rw [hid, hfound],
        by simp [JobStore.isLeaseable, hstatus], rfl, rfl⟩
    have hidentity := h.identity hmem hfound
    simp only [Job.identity, Prod.mk.injEq] at hidentity
    simp only [Orchestrator.act, hsubmitted, hlease, Option.some.injEq, Prod.mk.injEq] at hact
    obtain ⟨rfl, rfl⟩ := hact
    have hstates : stateOf plan (s.store.put leased) =
        Function.update (stateOf plan s.store) step.key (some (.leased, found.attempt + 1)) :=
      stateOf_put hmem hfoundId
    have hwaitingPerm : (targetKeys (s.orchestrator.targets ++ s.orchestrator.submitted)).Perm
        (step.key :: targetKeys (s.orchestrator.targets ++
          s.orchestrator.submitted.eraseIdx index)) := by
      simp only [targetKeys, List.map_append]
      exact ((targetKeys_perm hsubmitted).append_left _).trans List.perm_middle
    have honce := h.once
    rw [targetKeys, List.map_append] at honce
    have hwaitingOnce : (targetKeys (s.orchestrator.targets ++ s.orchestrator.submitted)).Nodup :=
      honce.of_append_left
    have hnotWaiting : step.key ∉ targetKeys (s.orchestrator.targets ++
        s.orchestrator.submitted.eraseIdx index) :=
      (List.nodup_cons.mp (hwaitingPerm.nodup_iff.mp hwaitingOnce)).1
    refine ⟨⟨?_, ?_, ?_, ?_, ?_, ?_, ?_, ?_, h.markedOnce⟩, ?_⟩
    · have hold : s.store.get? leased.id = some found := by
        rw [hleased, JobStore.leasedTo_id, hfoundId, hfound]
      exact (h.identified.put hold rfl).congr rfl rfl rfl
    · intro target htarget
      have hold : target ∈ s.orchestrator.targets ++ s.orchestrator.submitted := by
        rcases List.mem_append.mp htarget with htarget | htarget
        · exact List.mem_append_left _ htarget
        · exact List.mem_append_right _ (List.mem_of_mem_eraseIdx htarget)
      obtain ⟨hplan, hid', m, hm⟩ := h.waiting target hold
      refine ⟨hplan, hid', m, ?_⟩
      dsimp only
      rw [hstates, Function.update_of_ne, hm]
      intro heq
      exact hnotWaiting (mem_targetKeys.mpr ⟨target, htarget, heq⟩)
    · intro target htarget
      dsimp only at htarget ⊢
      rw [hstates]
      rcases List.mem_append.mp htarget with htarget | htarget
      · obtain ⟨hplan, hid', hmax, hrunning⟩ := h.running target htarget
        exact ⟨hplan, hid', hmax, update_of_state_ne _ hready hrunning (by simp)⟩
      · rw [List.mem_singleton.mp htarget]
        exact ⟨hmem, hfoundId, hidentity.2.2.2.2, Function.update_self _ _ _⟩
    · have hperm : (targetKeys (s.orchestrator.targets ++ s.orchestrator.submitted ++
          s.orchestrator.running)).Perm (targetKeys (s.orchestrator.targets ++
            s.orchestrator.submitted.eraseIdx index ++ (s.orchestrator.running ++
              [(leased, step)]))) := by
        have happend := (hwaitingPerm.append_right (targetKeys s.orchestrator.running)).trans
          (List.perm_append_singleton _ _).symm
        simpa [targetKeys] using happend
      exact hperm.nodup_iff.mp h.once
    · intro key m hkey
      dsimp only at hkey ⊢
      rw [hstates] at hkey
      refine mem_targetKeys.mpr ?_
      by_cases heq : key = step.key
      · exact ⟨(leased, step), by simp, heq.symm⟩
      · rw [Function.update_of_ne heq] at hkey
        obtain ⟨target, htarget, hkey⟩ := mem_targetKeys.mp (h.leased key m hkey)
        exact ⟨target, List.mem_append_left _ htarget, hkey⟩
    · intro d hd hplan
      obtain ⟨m, hm⟩ := h.succeeded d hd hplan
      exact ⟨m, by rw [hstates]; exact update_of_state_ne _ hready hm (by simp)⟩
    · exact fun rounds executed hphase => absurd hphase (hruns.ne_resolving rounds executed)
    · intro other hother hmarked
      obtain ⟨⟨m, hm⟩, hdependencies⟩ := h.marked other hother hmarked
      exact ⟨⟨m, by rw [hstates]; exact update_of_state_ne _ hready hm (by simp)⟩, hdependencies⟩
    · have hcourse := @Course.Step.began plan.steps (s.course plan) step.key
        found.attempt hruns ?_ hready
      · refine hcourse.of_eq (Course.ext hstates (toFinset_erase hwaitingPerm hwaitingOnce) ?_ rfl
          rfl ?_)
        · ext key
          simp only [PlanRun.course, targetKeys, List.map_append, List.map_cons, List.map_nil,
            List.mem_toFinset, List.mem_append, List.mem_singleton, Finset.mem_insert]
          exact or_comm
        · simp only [PlanRun.course, Orchestrator.events, hsubmitted, hlease]
          rfl
      · simp only [PlanRun.course, List.mem_toFinset]
        exact hwaitingPerm.mem_iff.mpr List.mem_cons_self

theorem Tracks.renew {index : ℕ} {time : Time} (h : Tracks plan s)
    (hstep : s.step backend ttl (.access (.renew index time)) = some s') : Follows plan s s' := by
  obtain ⟨store', o', phase, hact, hafter, rfl⟩ := step_access hstep
  obtain ⟨rfl, hruns⟩ := after_worker (.inr (.inl ⟨index, time, rfl⟩)) hafter
  cases hrunning : s.orchestrator.running[index]? with
  | none => simp [Orchestrator.act, hrunning] at hact
  | some target =>
    obtain ⟨leased, step⟩ := target
    simp only [Orchestrator.act, hrunning, Option.some.injEq, Prod.mk.injEq] at hact
    obtain ⟨rfl, rfl⟩ := hact
    -- A renewal writes the expiry of the lease only.
    obtain ⟨hidentified, hstates⟩ : Identified plan (orElseStore s.store
        (s.store.renew ttl leased.id leaseOwnerName time)) s.orchestrator ∧
        stateOf plan (orElseStore s.store (s.store.renew ttl leased.id leaseOwnerName time)) =
          stateOf plan s.store := by
      cases hrenew : s.store.renew ttl leased.id leaseOwnerName time with
      | error e => exact ⟨h.identified, rfl⟩
      | ok store' =>
        obtain ⟨job, hjob, -, rfl⟩ := JobStore.renew_ok_iff.mp hrenew
        have hid : job.id = leased.id := JobStore.id_of_get? hjob
        rw [← hid] at hjob
        exact ⟨h.identified.put hjob rfl, stateOf_put_same hjob rfl⟩
    refine ⟨h.congr hidentified hstates (fun _ hmem => hmem) rfl h.once rfl (.refl _)
      hruns.ne_resolving, ?_⟩
    exact .of_eq .quiet (Course.ext hstates rfl rfl rfl rfl (List.append_nil _))

/-- The state of a leased job when its outcome was reported. -/
theorem reported_state {leased job : Job} (outcome : StepOutcome)
    (hmax : leased.maxAttempts = maxAttempts) (hattempt : job.attempt = leased.attempt) :
    (reported leased outcome job).state = afterOutcome leased.attempt outcome := by
  cases outcome with
  | result digest => simp [reported, afterOutcome, Job.state, hattempt]
  | failure failure =>
    simp only [reported, afterOutcome, hmax]
    split_ifs <;> simp [Job.state, hattempt]

theorem reported_identity (leased : Job) (outcome : StepOutcome) (job : Job) :
    (reported leased outcome job).identity = job.identity := by
  cases outcome with
  | result digest => rfl
  | failure failure =>
    simp only [reported]
    split_ifs <;> rfl

theorem Tracks.report {index : ℕ} {outcome : StepOutcome} (h : Tracks plan s)
    (hstep : s.step backend ttl (.access (.report index outcome)) = some s') :
    Follows plan s s' := by
  obtain ⟨store', o', phase, hact, hafter, rfl⟩ := step_access hstep
  obtain ⟨rfl, hruns⟩ := after_worker (.inr (.inr ⟨index, outcome, rfl⟩)) hafter
  cases hrunning : s.orchestrator.running[index]? with
  | none => simp [Orchestrator.act, hrunning] at hact
  | some target =>
    obtain ⟨leased, step⟩ := target
    obtain ⟨hmem, hid, hmax, hleased⟩ := h.running _ (List.mem_of_getElem? hrunning)
    dsimp only at hmem hid hmax hleased
    have hget := hleased
    rw [stateOf_step hmem] at hget
    obtain ⟨found, hfound, hstate⟩ := Option.map_eq_some_iff.mp hget
    have hattempt : found.attempt = leased.attempt := congrArg Prod.snd hstate
    have hfoundId : found.id = jobIdOf step := JobStore.id_of_get? hfound
    -- The report writes the job that was leased.
    set job := reported leased outcome found with hjob
    have hjobId : job.id = jobIdOf step :=
      ((keepsIdentity_reported leased outcome).id found).trans hfoundId
    have hwrite : orElseStore s.store (Orchestrator.reportOutcome s.store leased outcome) =
        s.store.put job := by
      have hsame : ({ reported leased outcome found with id := found.id } : Job) = job := by
        rw [hfoundId, ← hjobId]
      rw [reportOutcome_eq_update, JobStore.update_ok_iff.mpr ⟨found, by rw [hid, hfound], rfl⟩,
        hsame, orElseStore]
    simp only [Orchestrator.act, hrunning, hwrite, Option.some.injEq, Prod.mk.injEq] at hact
    obtain ⟨rfl, rfl⟩ := hact
    have hstates : stateOf plan (s.store.put job) = Function.update (stateOf plan s.store) step.key
        (some (afterOutcome leased.attempt outcome)) := by
      rw [stateOf_put hmem hjobId, hjob, reported_state outcome hmax hattempt]
    have hrunningPerm := targetKeys_perm hrunning
    have honce := h.once
    rw [targetKeys, List.map_append] at honce
    have hrunningOnce : (targetKeys s.orchestrator.running).Nodup := honce.of_append_right
    have hnotRunning : step.key ∉ targetKeys (s.orchestrator.running.eraseIdx index) :=
      (List.nodup_cons.mp (hrunningPerm.nodup_iff.mp hrunningOnce)).1
    refine ⟨⟨?_, ?_, ?_, ?_, ?_, ?_, ?_, ?_, h.markedOnce⟩, ?_⟩
    · have hold : s.store.get? job.id = some found := by rw [hjobId, hfound]
      exact (h.identified.put hold (reported_identity leased outcome found)).congr rfl rfl rfl
    · intro target htarget
      obtain ⟨hplan, hid', m, hm⟩ := h.waiting target htarget
      exact ⟨hplan, hid', m, by rw [hstates]; exact update_of_state_ne _ hleased hm (by simp)⟩
    · intro target htarget
      obtain ⟨hplan, hid', hmax', hleased'⟩ := h.running target (List.mem_of_mem_eraseIdx htarget)
      refine ⟨hplan, hid', hmax', ?_⟩
      dsimp only
      rw [hstates, Function.update_of_ne, hleased']
      intro heq
      exact hnotRunning (mem_targetKeys.mpr ⟨target, htarget, heq⟩)
    · exact h.once.sublist (((List.eraseIdx_sublist _ _).append_left _).map _)
    · intro key m hkey
      dsimp only at hkey ⊢
      rw [hstates] at hkey
      by_cases heq : key = step.key
      · rw [heq, Function.update_self, Option.some.injEq] at hkey
        have hstatus := reported_status_ne_leased leased outcome found
        rw [← hjob, show job.status = job.state.1 from rfl, hjob,
          reported_state outcome hmax hattempt, hkey] at hstatus
        exact absurd rfl hstatus
      · rw [Function.update_of_ne heq] at hkey
        have hkey := hrunningPerm.mem_iff.mp (h.leased key m hkey)
        exact (List.mem_cons.mp hkey).resolve_left heq
    · intro d hd hplan
      obtain ⟨m, hm⟩ := h.succeeded d hd hplan
      exact ⟨m, by rw [hstates]; exact update_of_state_ne _ hleased hm (by simp)⟩
    · exact fun rounds executed hphase => absurd hphase (hruns.ne_resolving rounds executed)
    · intro other hother hmarked
      obtain ⟨⟨m, hm⟩, hdependencies⟩ := h.marked other hother hmarked
      exact ⟨⟨m, by rw [hstates]; exact update_of_state_ne _ hleased hm (by simp)⟩, hdependencies⟩
    · have hcourse := @Course.Step.ended plan.steps (s.course plan) step.key
        leased.attempt outcome hruns ?_ hleased
      · refine hcourse.of_eq (Course.ext hstates rfl (toFinset_erase hrunningPerm hrunningOnce) rfl
          rfl ?_)
        simp only [PlanRun.course, Orchestrator.events, hrunning]
      · simp only [PlanRun.course, List.mem_toFinset]
        exact hrunningPerm.mem_iff.mpr List.mem_cons_self

/-! ### Dependencies -/

/-- The job of a step that has a state. -/
theorem Tracks.exists_job (h : Tracks plan s) {step : PlanStep} (hstep : step ∈ plan.steps)
    {status : JobStatus} {n : ℕ} (hn : stateOf plan s.store step.key = some (status, n)) :
    ∃ job ∈ s.store.all, job.id = jobIdOf step ∧ job.planStepKey = step.key ∧
      job.dependencies = step.dependencies ∧ job.status = status := by
  rw [stateOf_step hstep] at hn
  obtain ⟨job, hjob, hstate⟩ := Option.map_eq_some_iff.mp hn
  have hidentity := h.identity hstep hjob
  simp only [Job.identity, Prod.mk.injEq] at hidentity
  obtain ⟨hid, hkey, -, hdependencies, -⟩ := hidentity
  exact ⟨job, JobStore.mem_all.mpr (hid ▸ hjob), hid, hkey, hdependencies, congrArg Prod.fst hstate⟩

theorem Tracks.scanSucceeded (hdependencies : ∀ step ∈ plan.steps, ∀ d ∈ step.dependencies,
      d ∈ plan.steps.map PlanStep.key) (h : Tracks plan s)
    (hstep : s.step backend ttl (.access .scanSucceeded) = some s') : Follows plan s s' := by
  obtain ⟨store', o', phase, hact, hafter, rfl⟩ := step_access hstep
  obtain ⟨rounds, executed, hphase, rfl⟩ := after_scanSucceeded hafter
  simp only [Orchestrator.act] at hact
  split at hact
  swap
  · cases hact
  next hidle =>
  simp only [Orchestrator.idle, Bool.and_eq_true, List.isEmpty_iff] at hidle
  obtain ⟨⟨htargets, hsubmitted⟩, hrunning⟩ := hidle
  cases hact
  -- The keys that were collected are those of the steps that have succeeded.
  have hkeys : ∀ step ∈ plan.steps,
      step.key ∈ (s.store.all.filter fun job => job.status == .succeeded).map Job.planStepKey ↔
        ∃ n, stateOf plan s.store step.key = some (.succeeded, n) := by
    intro step hstep
    rw [List.mem_map]
    constructor
    · rintro ⟨job, hjob, hkey⟩
      obtain ⟨hmem, hstatus⟩ := List.mem_filter.mp hjob
      refine ⟨job.attempt, ?_⟩
      rw [(h.stateOf_of_mem hmem hstep hkey).2.2, Job.state, eq_of_beq hstatus]
    · rintro ⟨n, hn⟩
      obtain ⟨job, hjob, -, hkey, -, hstatus⟩ := h.exists_job hstep hn
      exact ⟨job, List.mem_filter.mpr ⟨hjob, beq_iff_eq.mpr hstatus⟩, hkey⟩
  refine ⟨⟨h.identified.congr rfl rfl rfl, h.waiting, h.running, h.once, h.leased, ?_, ?_, ?_,
    h.markedOnce⟩, ?_⟩
  · intro d hd hplan
    obtain ⟨step, hstep, rfl⟩ := List.mem_map.mp hplan
    exact (hkeys step hstep).mp hd
  · intro _ _ _ key n hkey
    obtain ⟨step, hstep, rfl, -⟩ := exists_of_stateOf hkey
    exact (hkeys step hstep).mpr ⟨n, hkey⟩
  · intro step hstep hmarked
    obtain ⟨hblocked, hold⟩ := h.marked step hstep hmarked
    refine ⟨hblocked, fun d hd => ?_⟩
    obtain ⟨other, hother, rfl⟩ := List.mem_map.mp (hdependencies step hstep d hd)
    exact (hkeys other hother).mpr
      (h.succeeded other.key (hold _ hd) (List.mem_map_of_mem hother))
  · refine Course.Step.of_eq (.gathered (c := s.course plan) hphase ?_ ?_)
      (Course.ext rfl rfl rfl rfl rfl (List.append_nil _))
    · simp [PlanRun.course, targetKeys, htargets, hsubmitted]
    · simp [PlanRun.course, targetKeys, hrunning]

theorem Tracks.scanBlocked (hdependencies : ∀ step ∈ plan.steps, ∀ d ∈ step.dependencies,
      d ∈ plan.steps.map PlanStep.key) (h : Tracks plan s)
    (hstep : s.step backend ttl (.access .scanBlocked) = some s') : Follows plan s s' := by
  obtain ⟨store', o', phase, hact, hafter, rfl⟩ := step_access hstep
  obtain ⟨rounds, executed, hphase, rfl⟩ := after_scanBlocked hafter
  simp only [Orchestrator.act] at hact
  split at hact
  swap
  · cases hact
  cases hact
  set toMark := (s.store.all.filter fun job =>
    job.status == .blocked && job.dependencies.all fun d => d ∈ s.orchestrator.succeeded).map Job.id
    with htoMark
  have hmarked : ∀ step ∈ plan.steps, jobIdOf step ∈ toMark ↔
      (∃ n, stateOf plan s.store step.key = some (.blocked, n)) ∧
        ∀ d ∈ step.dependencies, d ∈ s.orchestrator.succeeded := by
    intro step hstep
    rw [htoMark, List.mem_map]
    constructor
    · rintro ⟨job, hjob, hid⟩
      obtain ⟨hmem, hcond⟩ := List.mem_filter.mp hjob
      simp only [Bool.and_eq_true, beq_iff_eq, List.all_eq_true, decide_eq_true_eq] at hcond
      have hidentity := h.identified.own job hmem step hstep (.inl hid)
      simp only [Job.identity, Prod.mk.injEq] at hidentity
      obtain ⟨-, hjobDependencies, hstate⟩ := h.stateOf_of_mem hmem hstep hidentity.2.1
      refine ⟨⟨job.attempt, by rw [hstate, Job.state, hcond.1]⟩, ?_⟩
      rw [← hjobDependencies]
      exact hcond.2
    · rintro ⟨⟨n, hn⟩, hall⟩
      obtain ⟨job, hjob, hid, -, hjobDependencies, hstatus⟩ := h.exists_job hstep hn
      refine ⟨job, List.mem_filter.mpr ⟨hjob, ?_⟩, hid⟩
      simpa [hstatus, hjobDependencies] using hall
  refine ⟨⟨h.identified.congr rfl rfl rfl, h.waiting, h.running, h.once, h.leased, h.succeeded,
    fun _ _ => RunPhase.noConfusion, fun step hstep => (hmarked step hstep).mp, ?_⟩, ?_⟩
  · exact s.store.ids_nodup.sublist (List.filter_sublist.map Job.id)
  · refine Course.Step.of_eq (@Course.Step.found plan.steps (s.course plan)
      ((plan.steps.filter fun step => jobIdOf step ∈ toMark).map PlanStep.key).toFinset rounds
      executed hphase fun key => ?_) (Course.ext rfl rfl rfl rfl rfl (List.append_nil _))
    simp only [List.mem_toFinset, List.mem_map, List.mem_filter, decide_eq_true_eq]
    constructor
    · rintro ⟨step, ⟨hstep, hmem⟩, rfl⟩
      obtain ⟨hblocked, hall⟩ := (hmarked step hstep).mp hmem
      exact ⟨step, hstep, rfl, hblocked, fun d hd =>
        h.succeeded d (hall d hd) (hdependencies step hstep d hd)⟩
    · rintro ⟨step, hstep, rfl, hblocked, hall⟩
      refine ⟨step, ⟨hstep, (hmarked step hstep).mpr ⟨hblocked, fun d hd => ?_⟩⟩, rfl⟩
      obtain ⟨n, hn⟩ := hall d hd
      exact h.gathered rounds executed hphase d n hn

theorem readied_identity (backend : Backend) (job : Job) :
    (readied backend job).identity = job.identity := by
  cases backend <;> rfl

theorem readied_state (backend : Backend) (job : Job) :
    (readied backend job).state = (.ready, job.attempt) := by
  cases backend <;> rfl

/-- Marking a job ready writes the job if it is there. -/
theorem markReady_cases (backend : Backend) (store : JobStore) (jobId : String) :
    (store.get? jobId = none ∧ orElseStore store (store.markReady backend jobId) = store) ∨
      ∃ job, store.get? jobId = some job ∧
        orElseStore store (store.markReady backend jobId) = store.put (readied backend job) := by
  have hchange : store.markReady backend jobId = store.update jobId (readied backend) := by
    cases backend <;> rfl
  rw [hchange, JobStore.update]
  cases hget : store.get? jobId with
  | none => exact .inl ⟨rfl, rfl⟩
  | some job => exact .inr ⟨job, rfl, by cases backend <;> rfl⟩

/-- The run after the first id of those that are to be marked. -/
def PlanRun.afterMark (s : PlanRun) (backend : Backend) (id : String) (rest : List String) : PlanRun :=
  { s with
    store := orElseStore s.store (s.store.markReady backend id)
    orchestrator := { s.orchestrator with toMark := rest } }

section MarkReady

variable {id : String} {rest : List String} {rounds : ℕ} {executed : Bool}

theorem PlanRun.not_resolving (hphase : s.phase = .marking rounds executed) :
    ∀ rounds executed, s.phase ≠ .resolving rounds executed := by
  intro _ _ heq
  rw [hphase] at heq
  cases heq

/-- The step of a job that is to be marked. -/
theorem Tracks.markOwn (hkeys : (plan.steps.map PlanStep.key).Nodup)
    (hdependencies : ∀ step ∈ plan.steps, ∀ d ∈ step.dependencies,
      d ∈ plan.steps.map PlanStep.key) (h : Tracks plan s) {step : PlanStep}
    (hmem : step ∈ plan.steps) (htoMark : s.orchestrator.toMark = jobIdOf step :: rest)
    (hphase : s.phase = .marking rounds executed) :
    Follows plan s (s.afterMark backend (jobIdOf step) rest) := by
  have hmarkedOnce := h.markedOnce
  rw [htoMark] at hmarkedOnce
  obtain ⟨hnotMem, hrest⟩ := List.nodup_cons.mp hmarkedOnce
  obtain ⟨⟨n, hblocked⟩, hall⟩ := h.marked step hmem (by simp [htoMark])
  have hget := hblocked
  rw [stateOf_step hmem] at hget
  obtain ⟨found, hfound, hstate⟩ := Option.map_eq_some_iff.mp hget
  have hattempt : found.attempt = n := congrArg Prod.snd hstate
  have hreadiedId : (readied backend found).id = jobIdOf step :=
    ((keepsIdentity_readied backend).id found).trans (JobStore.id_of_get? hfound)
  have hwrite : orElseStore s.store (s.store.markReady backend (jobIdOf step)) =
      s.store.put (readied backend found) := by
    rcases markReady_cases backend s.store (jobIdOf step) with ⟨hnone, -⟩ | ⟨job, hjob, heq⟩
    · rw [hfound] at hnone
      cases hnone
    · rw [hfound] at hjob
      rw [heq, Option.some.inj hjob]
  have hstates : stateOf plan (s.afterMark backend (jobIdOf step) rest).store =
      Function.update (stateOf plan s.store) step.key (some (.ready, n)) := by
    rw [PlanRun.afterMark, hwrite, stateOf_put hmem hreadiedId, readied_state, hattempt]
  refine ⟨⟨?_, ?_, ?_, h.once, ?_, ?_, ?_, ?_, hrest⟩, ?_⟩
  · have hold : s.store.get? (readied backend found).id = some found := by
      rw [hreadiedId, hfound]
    rw [PlanRun.afterMark, hwrite]
    exact (h.identified.put hold (readied_identity backend found)).congr rfl rfl rfl
  · intro target htarget
    obtain ⟨hin, hid, m, hm⟩ := h.waiting target htarget
    exact ⟨hin, hid, m, by rw [hstates]; exact update_of_state_ne _ hblocked hm (by simp)⟩
  · intro target htarget
    obtain ⟨hin, hid, hmax, hm⟩ := h.running target htarget
    exact ⟨hin, hid, hmax, by rw [hstates]; exact update_of_state_ne _ hblocked hm (by simp)⟩
  · intro key m hkey
    rw [hstates] at hkey
    by_cases heq : key = step.key
    · rw [heq, Function.update_self] at hkey
      cases hkey
    · rw [Function.update_of_ne heq] at hkey
      exact h.leased key m hkey
  · intro d hd hin
    obtain ⟨m, hm⟩ := h.succeeded d hd hin
    exact ⟨m, by rw [hstates]; exact update_of_state_ne _ hblocked hm (by simp)⟩
  · exact fun rounds executed heq => absurd heq (PlanRun.not_resolving hphase rounds executed)
  · intro other hother hmarked
    obtain ⟨⟨m, hm⟩, hdeps⟩ :=
      h.marked other hother (htoMark ▸ List.mem_cons_of_mem _ hmarked)
    refine ⟨⟨m, ?_⟩, hdeps⟩
    rw [hstates, Function.update_of_ne, hm]
    intro heq
    refine hnotMem ?_
    rw [jobIdOf, ← heq]
    exact hmarked
  · refine Course.Step.of_eq (@Course.Step.readied plan.steps (s.course plan) step.key n rounds
      executed hphase ?_ hblocked ?_) (Course.ext hstates rfl rfl ?_ rfl rfl)
    · simp only [PlanRun.course, List.mem_toFinset]
      exact List.mem_map_of_mem (List.mem_filter.mpr ⟨hmem, by simp [htoMark]⟩)
    · intro other hother hkey d hd
      rw [List.inj_on_of_nodup_map hkeys hother hmem hkey] at hd
      exact h.succeeded d (hall d hd) (hdependencies step hmem d hd)
    · ext key
      dsimp only [PlanRun.course, PlanRun.afterMark]
      simp only [htoMark, List.mem_toFinset, List.mem_map, List.mem_filter, decide_eq_true_eq,
        List.mem_cons, Finset.mem_erase]
      constructor
      · rintro ⟨other, ⟨hother, hin⟩, rfl⟩
        refine ⟨fun heq => hnotMem ?_, other, ⟨hother, .inr hin⟩, rfl⟩
        rw [jobIdOf, ← heq]
        exact hin
      · rintro ⟨hne, other, ⟨hother, heq | hin⟩, rfl⟩
        · exact absurd (jobIdOf_inj heq) hne
        · exact ⟨other, ⟨hother, hin⟩, rfl⟩

/-- The job of another plan is marked. -/
theorem Tracks.markOther (h : Tracks plan s) (hother : ∀ step ∈ plan.steps, jobIdOf step ≠ id)
    (htoMark : s.orchestrator.toMark = id :: rest) (hphase : s.phase = .marking rounds executed) :
    Follows plan s (s.afterMark backend id rest) := by
  obtain ⟨hidentified, hstates⟩ : Identified plan (orElseStore s.store
      (s.store.markReady backend id)) s.orchestrator ∧
      stateOf plan (orElseStore s.store (s.store.markReady backend id)) = stateOf plan s.store := by
    rcases markReady_cases backend s.store id with ⟨-, heq⟩ | ⟨job, hjob, heq⟩
    · rw [heq]
      exact ⟨h.identified, rfl⟩
    · rw [heq]
      have hid : (readied backend job).id = id :=
        ((keepsIdentity_readied backend).id job).trans (JobStore.id_of_get? hjob)
      refine ⟨h.identified.put (hid ▸ hjob) (readied_identity backend job), ?_⟩
      exact stateOf_put_other fun step hstep heq => hother step hstep (heq.symm.trans hid)
  refine ⟨h.congr (hidentified.congr rfl rfl rfl) hstates (fun _ hmem => hmem) rfl h.once rfl
    (by rw [htoMark]; exact List.sublist_cons_self _ _) (PlanRun.not_resolving hphase), ?_⟩
  refine Course.Step.of_eq .quiet (Course.ext hstates rfl rfl ?_ rfl rfl)
  ext key
  dsimp only [PlanRun.course, PlanRun.afterMark]
  simp only [htoMark, List.mem_toFinset, List.mem_map, List.mem_filter, decide_eq_true_eq,
    List.mem_cons]
  constructor
  · rintro ⟨other, ⟨hin, hrest⟩, rfl⟩
    exact ⟨other, ⟨hin, .inr hrest⟩, rfl⟩
  · rintro ⟨other, ⟨hin, heq | hrest⟩, rfl⟩
    · exact absurd heq (hother other hin)
    · exact ⟨other, ⟨hin, hrest⟩, rfl⟩

end MarkReady

theorem Tracks.markReady (hkeys : (plan.steps.map PlanStep.key).Nodup)
    (hdependencies : ∀ step ∈ plan.steps, ∀ d ∈ step.dependencies,
      d ∈ plan.steps.map PlanStep.key) (h : Tracks plan s)
    (hstep : s.step backend ttl (.access .markReady) = some s') : Follows plan s s' := by
  obtain ⟨store', o', phase, hact, hafter, rfl⟩ := step_access hstep
  obtain ⟨rfl, rounds, executed, hphase⟩ := after_markReady hafter
  have hlog : s.log ++ s.orchestrator.events ttl s.store .markReady = s.log := List.append_nil _
  cases htoMark : s.orchestrator.toMark with
  | nil => simp [Orchestrator.act, htoMark] at hact
  | cons id rest =>
    simp only [Orchestrator.act, htoMark, Option.some.injEq, Prod.mk.injEq] at hact
    obtain ⟨rfl, rfl⟩ := hact
    rw [hlog]
    by_cases hplan : ∃ step ∈ plan.steps, jobIdOf step = id
    · obtain ⟨step, hmem, rfl⟩ := hplan
      exact h.markOwn hkeys hdependencies hmem htoMark hphase
    · exact h.markOther (fun step hstep heq => hplan ⟨step, hstep, heq⟩) htoMark hphase

/-! ## Runs -/

/-- **Every step of a run keeps the orchestrator and the store together, and is a step of the
course.** -/
theorem Tracks.step (hkeys : (plan.steps.map PlanStep.key).Nodup)
    (hdependencies : ∀ step ∈ plan.steps, ∀ d ∈ step.dependencies,
      d ∈ plan.steps.map PlanStep.key) (h : Tracks plan s) {label : RunLabel}
    (hstep : s.step backend ttl label = some s') : Follows plan s s' := by
  cases label with
  | exhaust => exact h.exhaust hstep
  | stop answer => exact h.stop hstep
  | leave => exact h.leave hstep
  | next => exact h.next hstep
  | access action =>
    cases action with
    | dispatchStep => exact h.dispatchStep hkeys hstep
    | scan => exact h.scan hstep
    | submit => exact h.submit hstep
    | lease index => exact h.lease hstep
    | renew index time => exact h.renew hstep
    | report index outcome => exact h.report hstep
    | scanSucceeded => exact h.scanSucceeded hdependencies hstep
    | scanBlocked => exact h.scanBlocked hdependencies hstep
    | markReady => exact h.markReady hkeys hdependencies hstep
    | abort | scanUnfinished | skipNext =>
      obtain ⟨_, _, _, -, hafter, -⟩ := step_access hstep
      rw [after_skip (by simp)] at hafter
      cases hafter

end Tracks

end SecOpent
