import SecOpent.Execution.Calls
import SecOpent.Jobs.SucceededJobs

/-!
# Runs without success

Every call has a run to its end in which no step succeeds: round after round, each target passes the
gate, is leased, and is refused by a policy. The run exists for every plan and every store, so what a
call does about it does not depend on luck.

## Main definitions

* `Executor.Fruitless`: the moves in which no step gives a result
* `Executor.Pool`, `Executor.Standing`: a drain that goes well, and one between two targets

## Main results

* `Standing.target`, `Standing.round`, `Standing.drain`: a target, a round and a drain without success
* `exists_fruitless_drain`: every call has such a drain
* `Standing.completes`: it is completed if a job of the store has succeeded
* `log_of_fruitless`: no result is logged
-/

namespace SecOpent

open Python Transition

namespace Executor

variable {E : Executor} {c c' : ExecutionCall} {move : ExecutionMove}

theorem anySucceeded_iff {store : JobStore} :
    anySucceeded store = true ↔ ∃ job ∈ store.all, job.status = .succeeded := by
  simp [anySucceeded]

/-- No step gives a result. -/
def Fruitless (_ : ExecutionCall) : ExecutionMove → Prop
  | .run (.access (.report _ (.result _))) => False
  | _ => True

theorem reaches_step {c c' : ExecutionCall} {move : ExecutionMove} (h : E.step c move = some c')
    (hmove : Fruitless c move) : Reaches E.step Fruitless c c' :=
  .tail .refl hmove h

variable (E) in
/-- The assessment is running, and the gate will let it pass. -/
def Unasked (repo : Repositories) : Prop :=
  ∃ row, repo.assessments.get? E.assessmentId = some row ∧ row.status = .running ∧
    (row.control = .none ∨ row.control = .resumeRequested)

/-- A drain that goes well, with its gate, its store and its orchestrator. -/
structure Pool (c : ExecutionCall) (repo : Repositories) (gate : Gate) (phase : RunPhase)
    (store : JobStore) (o : Orchestrator) : Prop where
  stage : c.stage = .draining gate
  sound : c.broken = false
  repo : c.repo = repo
  phase : c.run.phase = phase
  store : c.run.store = store
  orchestrator : c.run.orchestrator = o

/-- A drain between two targets: its gate is closed, and no worker is on a step. -/
structure Standing (E : Executor) (c : ExecutionCall) (phase : RunPhase) (left : List PlanStep)
    (targets : List (Job × PlanStep)) (toMark : List String) : Prop where
  pool : Pool c c.repo .closed phase c.run.store c.run.orchestrator
  left : c.run.orchestrator.undispatched = left
  targets : c.run.orchestrator.targets = targets
  submitted : c.run.orchestrator.submitted = []
  running : c.run.orchestrator.running = []
  toMark : c.run.orchestrator.toMark = toMark
  unasked : E.Unasked c.repo

section Construction

variable {repo : Repositories} {gate : Gate} {phase phase' : RunPhase} {store store' : JobStore}
  {o o' : Orchestrator} {left : List PlanStep} {targets : List (Job × PlanStep)}
  {toMark : List String} {rounds : ℕ} {executed : Bool}

theorem Pool.standing (h : Pool c repo .closed phase store o) (hleft : o.undispatched = left)
    (htargets : o.targets = targets) (hsubmitted : o.submitted = []) (hrunning : o.running = [])
    (htoMark : o.toMark = toMark) (hunasked : E.Unasked repo) :
    E.Standing c phase left targets toMark := by
  obtain ⟨hstage, hsound, rfl, hphase, rfl, rfl⟩ := h
  exact ⟨⟨hstage, hsound, rfl, hphase, rfl, rfl⟩, hleft, htargets, hsubmitted, hrunning, htoMark,
    hunasked⟩

/-- An access of the run that does not raise. -/
theorem Pool.access (h : Pool c repo gate phase store o) {action : OrchestratorAction}
    (hallows : gate.allows action = true)
    (hact : o.act E.backend E.leaseTtl store action = some (store', o'))
    (hafter : phase.after o' action = some phase')
    (hraises : o.raises E.backend E.leaseTtl store action = false) :
    ∃ c', E.step c (.run (.access action)) = some c' ∧
      Pool c' repo (gate.after action) phase' store' o' := by
  obtain ⟨hstage, hsound, rfl, rfl, rfl, rfl⟩ := h
  have hrun : c.run.step E.backend E.leaseTtl (.access action) = some ⟨store', o', phase',
      c.run.log ++ c.run.orchestrator.events E.leaseTtl c.run.store action⟩ := by
    simp [PlanRun.step, hact, hafter]
  have hpermits : (gate.permits (.access action) && E.goesOn c (.access action)) = true := by
    simp [Gate.permits, hallows, goesOn, hsound]
  have hstep : E.step c (.run (.access action)) = some { c with
      stage := .draining (gate.after action)
      run := ⟨store', o', phase',
        c.run.log ++ c.run.orchestrator.events E.leaseTtl c.run.store action⟩ } := by
    simp only [step, hstage, hpermits, if_true, hrun, Option.map_some, Gate.afterRun,
      PlanRun.raises, hraises, Bool.or_false]
  exact ⟨_, hstep, rfl, hsound, rfl, rfl, rfl, rfl⟩

/-- A move of `run_to_completion` itself. -/
theorem Pool.turn (h : Pool c repo .closed phase store o) {label : RunLabel}
    (hlabel : label = .exhaust ∨ label = .next)
    (hrun : ∀ log, PlanRun.step E.backend E.leaseTtl ⟨store, o, phase, log⟩ label =
      some ⟨store, o, phase', log⟩) :
    ∃ c', E.step c (.run label) = some c' ∧ Pool c' repo .closed phase' store o := by
  obtain ⟨hstage, hsound, rfl, rfl, rfl, rfl⟩ := h
  have hpermits : (Gate.closed.permits label && E.goesOn c label) = true := by
    rcases hlabel with rfl | rfl <;> simp [Gate.permits, goesOn, hsound]
  have hraises : c.run.raises E.backend E.leaseTtl label = false := by
    rcases hlabel with rfl | rfl <;> rfl
  have hafter : Gate.closed.afterRun label = .closed := by
    rcases hlabel with rfl | rfl <;> rfl
  have hstep : E.step c (.run label) = some { c with
      stage := .draining .closed
      run := ⟨c.run.store, c.run.orchestrator, phase', c.run.log⟩ } := by
    simp only [step, hstage, hpermits, if_true, hrun c.run.log, Option.map_some, hafter, hraises,
      Bool.or_false]
  exact ⟨_, hstep, rfl, hsound, rfl, rfl, rfl, rfl⟩

theorem Standing.dispatchStep {step : PlanStep}
    (h : E.Standing c (.scanning rounds) (step :: left) targets toMark) :
    ∃ c', E.step c (.run (.access .dispatchStep)) = some c' ∧
      E.Standing c' (.scanning rounds) left targets toMark := by
  have hact : c.run.orchestrator.act E.backend E.leaseTtl c.run.store .dispatchStep =
      some ((c.run.store.add (jobOf c.run.orchestrator.planDigest step)).1,
        { c.run.orchestrator with
          undispatched := left, steps := c.run.orchestrator.steps.set step.key step }) := by
    simp only [Orchestrator.act, h.left]
  obtain ⟨c', hstep, hpool⟩ := h.pool.access rfl hact rfl rfl
  exact ⟨c', hstep, hpool.standing rfl h.targets h.submitted h.running h.toMark h.unasked⟩

theorem Standing.dispatchAll : ∀ {left : List PlanStep} {c : ExecutionCall},
    E.Standing c (.scanning rounds) left [] [] →
      ∃ c', Reaches E.step Fruitless c c' ∧ E.Standing c' (.scanning rounds) [] [] []
  | [], c, h => ⟨c, .refl, h⟩
  | _ :: _, _, h => by
    obtain ⟨c', hstep, hc'⟩ := h.dispatchStep
    obtain ⟨c'', hreaches, hc''⟩ := hc'.dispatchAll
    exact ⟨c'', (reaches_step hstep trivial).trans hreaches, hc''⟩

/-- The targets can all be leased, each under an id of its own. -/
def Leaseable (store : JobStore) (now : Time) (targets : List (Job × PlanStep)) : Prop :=
  (targets.map fun target => target.1.id).Nodup ∧ ∀ target ∈ targets, ∃ job,
    store.get? target.1.id = some job ∧ JobStore.isLeaseable now job = true

theorem Standing.scan (h : E.Standing c (.scanning (rounds + 1)) [] [] []) :
    ∃ c' targets, E.step c (.run (.access .scan)) = some c' ∧
      E.Standing c' (.executing rounds (!targets.isEmpty)) [] targets [] ∧
      Leaseable c'.run.store c'.run.orchestrator.now targets := by
  let targets := (c.run.store.leaseable c.run.orchestrator.now).filterMap fun job =>
    (c.run.orchestrator.steps.get? job.planStepKey).map fun step => (job, step)
  have hact : c.run.orchestrator.act E.backend E.leaseTtl c.run.store .scan =
      some (c.run.store, { c.run.orchestrator with targets := targets }) := by
    simp [Orchestrator.act, Orchestrator.idle, h.left, h.targets, h.submitted, h.running, h.toMark,
      targets]
  obtain ⟨c', hstep, hpool⟩ := h.pool.access rfl hact rfl rfl
  refine ⟨c', targets, hstep, hpool.standing h.left rfl h.submitted h.running h.toMark h.unasked, ?_⟩
  rw [hpool.store, hpool.orchestrator]
  refine ⟨?_, fun target htarget => ?_⟩
  · refine (filterMap_ids_sublist _ _).nodup ?_
    exact loopJobsFirst_nodup List.filter_sublist c.run.store.ids_nodup
  · obtain ⟨job, hjob, htarget⟩ := List.mem_filterMap.mp htarget
    obtain ⟨step, -, rfl⟩ := Option.map_eq_some_iff.mp htarget
    exact ⟨job, JobStore.mem_leaseable.mp hjob⟩

/-- The gate lets the next target pass. -/
theorem Standing.passes {target : Job × PlanStep}
    (h : E.Standing c (.executing rounds executed) left (target :: targets) toMark) :
    ∃ c' repo, Reaches E.step Fruitless c c' ∧ E.Unasked repo ∧
      Pool c' repo .passed (.executing rounds executed) c.run.store c.run.orchestrator := by
  obtain ⟨row, hrow, hrunning, hcontrol⟩ := h.unasked
  have hasks : (asksGate c.run.orchestrator && (!c.broken || decide (1 < E.maxWorkers))) = true := by
    simp [asksGate, h.targets, h.submitted, h.running, h.pool.sound]
  have hread : E.step c .gateRead = some { c with
      stage := .draining (if row.control = .none then .passed else .signal row) } := by
    simp only [step, h.pool.stage, h.pool.phase, hasks, if_true, hrow]
  rcases hcontrol with hnone | hresume
  · rw [if_pos hnone] at hread
    exact ⟨_, c.repo, reaches_step hread trivial, ⟨row, hrow, hrunning, .inl hnone⟩, rfl,
      h.pool.sound, rfl, h.pool.phase, rfl, rfl⟩
  · -- The request to resume is consumed.
    rw [if_neg (by simp [hresume])] at hread
    have hclear : E.step { c with stage := .draining (.signal row) } .gateClear = some { c with
        repo := c.repo.addAssessment { row with control := .none }
        stage := .draining (Gate.ofSignal row.control)
        pauseRead := c.pauseRead || row.control == .pauseRequested } := rfl
    refine ⟨_, _, (reaches_step hread trivial).trans (reaches_step hclear trivial),
      ⟨{ row with control := .none }, ?_, hrunning, .inl rfl⟩, ?_, h.pool.sound, rfl, h.pool.phase,
      rfl, rfl⟩
    · have hid : E.assessmentId = row.id := (Table.key_of_get? hrow).symm
      rw [Repositories.addAssessment, Table.get?_put, if_pos hid]
    · simp [hresume, Gate.ofSignal]

/-- The only submitted target is leased. -/
theorem act_lease_first {target : Job × PlanStep} {job : Job} (hsubmitted : o.submitted = [target])
    (hrunning : o.running = []) (hjob : store.get? target.1.id = some job)
    (hleaseable : JobStore.isLeaseable o.now job = true) :
    ∃ store' leased, o.act E.backend E.leaseTtl store (.lease 0) =
        some (store', { o with submitted := [], running := [(leased, target.2)] }) ∧
      o.raises E.backend E.leaseTtl store (.lease 0) = false ∧
      store'.get? target.1.id = some leased ∧ leased.id = target.1.id ∧
      ∀ id ≠ target.1.id, store'.get? id = store.get? id := by
  obtain ⟨leased, hid, hlease⟩ : ∃ leased, leased.id = target.1.id ∧
      store.lease E.leaseTtl target.1.id leaseOwnerName o.now = .ok (store.put leased, leased) :=
    ⟨_, JobStore.id_of_get? hjob,
      JobStore.lease_ok_iff.mpr ⟨job, hjob, hleaseable, rfl, rfl⟩⟩
  refine ⟨store.put leased, leased, ?_, ?_, ?_, hid, fun id hne => ?_⟩
  · simp [Orchestrator.act, hsubmitted, hlease, hrunning]
  · simp [Orchestrator.raises, hsubmitted, hlease, Except.isOk, Except.toBool]
  · rw [JobStore.get?_put, if_pos hid.symm]
  · rw [JobStore.get?_put, hid, if_neg hne]

/-- The only step that runs is refused by a policy. -/
theorem act_report_first {leased job : Job} {step : PlanStep} (hrunning : o.running = [(leased, step)])
    (hjob : store.get? leased.id = some job) :
    ∃ store', o.act E.backend E.leaseTtl store (.report 0 (.failure .outOfScope)) =
        some (store', { o with running := [] }) ∧
      o.raises E.backend E.leaseTtl store (.report 0 (.failure .outOfScope)) = false ∧
      ∀ id ≠ leased.id, store'.get? id = store.get? id := by
  obtain ⟨store', hreport⟩ : ∃ store', Orchestrator.reportOutcome store leased
      (.failure .outOfScope) = .ok store' := by
    rw [reportOutcome_eq_update]
    exact ⟨_, JobStore.update_ok_iff.mpr ⟨job, hjob, rfl⟩⟩
  refine ⟨store', ?_, ?_, fun id hne => ?_⟩
  · simp only [Orchestrator.act, hrunning, List.getElem?_cons_zero, hreport, orElseStore]
    rfl
  · simp [Orchestrator.raises, hrunning, hreport, Except.isOk, Except.toBool]
  · rw [reportOutcome_eq_update] at hreport
    rw [JobStore.get?_update hreport, if_neg hne]

/-- A target is executed, and its step is refused by a policy. -/
theorem Standing.target {target : Job × PlanStep}
    (h : E.Standing c (.executing rounds executed) [] (target :: targets) [])
    (hleaseable : Leaseable c.run.store c.run.orchestrator.now (target :: targets)) :
    ∃ c', Reaches E.step Fruitless c c' ∧
      E.Standing c' (.executing rounds executed) [] targets [] ∧
      Leaseable c'.run.store c'.run.orchestrator.now targets := by
  obtain ⟨hnodup, hfound⟩ := hleaseable
  rw [List.map_cons, List.nodup_cons] at hnodup
  obtain ⟨job, hjob, hjobLeaseable⟩ := hfound target List.mem_cons_self
  obtain ⟨c₁, repo, hreaches, hunasked, hpool₁⟩ := h.passes
  have hsubmit : c.run.orchestrator.act E.backend E.leaseTtl c.run.store .submit =
      some (c.run.store,
        { c.run.orchestrator with targets := targets, submitted := [target] }) := by
    simp [Orchestrator.act, h.targets, h.submitted, h.running]
  obtain ⟨c₂, hstep₂, hpool₂⟩ := hpool₁.access rfl hsubmit rfl rfl
  obtain ⟨store₃, leased, hlease, hraises₃, hget, hid, hsame₃⟩ :=
    act_lease_first (E := E) (o := { c.run.orchestrator with
      targets := targets, submitted := [target] }) rfl h.running hjob hjobLeaseable
  obtain ⟨c₃, hstep₃, hpool₃⟩ := hpool₂.access rfl hlease rfl hraises₃
  obtain ⟨store₄, hreport, hraises₄, hsame₄⟩ :=
    act_report_first (E := E) (o := { c.run.orchestrator with
      targets := targets, submitted := [], running := [(leased, target.2)] }) rfl (hid ▸ hget)
  obtain ⟨c₄, hstep₄, hpool₄⟩ := hpool₃.access rfl hreport rfl hraises₄
  refine ⟨c₄, ?_, hpool₄.standing h.left rfl rfl rfl h.toMark hunasked, hnodup.2, ?_⟩
  · have hsteps := ((reaches_step hstep₂ trivial).trans (reaches_step hstep₃ trivial)).trans
      (reaches_step hstep₄ trivial)
    exact hreaches.trans hsteps
  · -- The other targets are as they were.
    intro other hother
    have hne : other.1.id ≠ target.1.id := fun heq =>
      hnodup.1 (heq ▸ List.mem_map_of_mem hother)
    obtain ⟨found, hget', hleaseable'⟩ := hfound other (List.mem_cons_of_mem _ hother)
    rw [hpool₄.store, hpool₄.orchestrator]
    exact ⟨found, by rw [hsame₄ _ (hid ▸ hne), hsame₃ _ hne, hget'], hleaseable'⟩

theorem Standing.targetAll : ∀ {targets : List (Job × PlanStep)} {c : ExecutionCall},
    E.Standing c (.executing rounds executed) [] targets [] →
      Leaseable c.run.store c.run.orchestrator.now targets →
      ∃ c', Reaches E.step Fruitless c c' ∧ E.Standing c' (.executing rounds executed) [] [] []
  | [], c, h, _ => ⟨c, .refl, h⟩
  | _ :: _, _, h, hleaseable => by
    obtain ⟨c', hreaches, hc', hleaseable'⟩ := h.target hleaseable
    obtain ⟨c'', hreaches', hc''⟩ := hc'.targetAll hleaseable'
    exact ⟨c'', hreaches.trans hreaches', hc''⟩

theorem Standing.scanSucceeded (h : E.Standing c (.executing rounds executed) [] [] []) :
    ∃ c', E.step c (.run (.access .scanSucceeded)) = some c' ∧
      E.Standing c' (.resolving rounds executed) [] [] [] := by
  have hact : c.run.orchestrator.act E.backend E.leaseTtl c.run.store .scanSucceeded =
      some (c.run.store, { c.run.orchestrator with
        succeeded := (c.run.store.all.filter fun job => job.status == .succeeded).map
          Job.planStepKey }) := by
    simp [Orchestrator.act, Orchestrator.idle, h.targets, h.submitted, h.running]
  obtain ⟨c', hstep, hpool⟩ := h.pool.access rfl hact rfl rfl
  exact ⟨c', hstep, hpool.standing h.left h.targets h.submitted h.running h.toMark h.unasked⟩

/-- The ids are those of jobs. -/
def Present (store : JobStore) (ids : List String) : Prop :=
  ∀ id ∈ ids, ∃ job, store.get? id = some job

theorem Standing.scanBlocked (h : E.Standing c (.resolving rounds executed) [] [] []) :
    ∃ c' ids, E.step c (.run (.access .scanBlocked)) = some c' ∧
      E.Standing c' (.marking rounds executed) [] [] ids ∧ Present c'.run.store ids := by
  let ids := (c.run.store.all.filter fun job =>
    job.status == .blocked && job.dependencies.all fun d => d ∈ c.run.orchestrator.succeeded).map Job.id
  have hact : c.run.orchestrator.act E.backend E.leaseTtl c.run.store .scanBlocked =
      some (c.run.store, { c.run.orchestrator with toMark := ids }) := by
    simp [Orchestrator.act, Orchestrator.idle, h.targets, h.submitted, h.running, ids]
  obtain ⟨c', hstep, hpool⟩ := h.pool.access rfl hact rfl rfl
  refine ⟨c', ids, hstep, hpool.standing h.left h.targets h.submitted h.running rfl h.unasked, ?_⟩
  intro id hid
  obtain ⟨job, hjob, rfl⟩ := List.mem_map.mp hid
  rw [hpool.store]
  exact ⟨job, JobStore.mem_all.mp (List.mem_of_mem_filter hjob)⟩

theorem Standing.markReady {id : String} {ids : List String}
    (h : E.Standing c (.marking rounds executed) [] [] (id :: ids))
    (hpresent : Present c.run.store (id :: ids)) :
    ∃ c', E.step c (.run (.access .markReady)) = some c' ∧
      E.Standing c' (.marking rounds executed) [] [] ids ∧ Present c'.run.store ids := by
  obtain ⟨job, hjob⟩ := hpresent id List.mem_cons_self
  obtain ⟨store', hmark⟩ : ∃ store', c.run.store.markReady E.backend id = .ok store' :=
    ⟨_, JobStore.update_ok_iff.mpr ⟨job, hjob, rfl⟩⟩
  have hact : c.run.orchestrator.act E.backend E.leaseTtl c.run.store .markReady =
      some (store', { c.run.orchestrator with toMark := ids }) := by
    simp only [Orchestrator.act, h.toMark, hmark, orElseStore]
  have hraises : c.run.orchestrator.raises E.backend E.leaseTtl c.run.store .markReady = false := by
    simp [Orchestrator.raises, h.toMark, hmark, Except.isOk, Except.toBool]
  obtain ⟨c', hstep, hpool⟩ := h.pool.access rfl hact rfl hraises
  refine ⟨c', hstep, hpool.standing h.left h.targets h.submitted h.running rfl h.unasked, ?_⟩
  intro other hother
  obtain ⟨found, hfound⟩ := hpresent other (List.mem_cons_of_mem _ hother)
  rw [hpool.store, JobStore.get?_update hmark]
  split_ifs
  · exact ⟨_, by rw [hfound]; rfl⟩
  · exact ⟨found, hfound⟩

theorem Standing.markAll : ∀ {ids : List String} {c : ExecutionCall},
    E.Standing c (.marking rounds executed) [] [] ids → Present c.run.store ids →
      ∃ c', Reaches E.step Fruitless c c' ∧ E.Standing c' (.marking rounds executed) [] [] []
  | [], c, h, _ => ⟨c, .refl, h⟩
  | _ :: _, _, h, hpresent => by
    obtain ⟨c', hstep, hc', hpresent'⟩ := h.markReady hpresent
    obtain ⟨c'', hreaches, hc''⟩ := hc'.markAll hpresent'
    exact ⟨c'', (reaches_step hstep trivial).trans hreaches, hc''⟩

theorem Standing.next (h : E.Standing c (.marking rounds executed) [] [] []) :
    ∃ c', E.step c (.run .next) = some c' ∧
      E.Standing c' (if executed then .scanning rounds else .returned .completed) [] [] [] := by
  have hrun : ∀ log, PlanRun.step E.backend E.leaseTtl
      ⟨c.run.store, c.run.orchestrator, .marking rounds executed, log⟩ .next =
      some ⟨c.run.store, c.run.orchestrator,
        if executed then .scanning rounds else .returned .completed, log⟩ := by
    intro log
    simp only [PlanRun.step, h.toMark, if_true]
  obtain ⟨c', hstep, hpool⟩ := h.pool.turn (.inr rfl) hrun
  exact ⟨c', hstep, hpool.standing h.left h.targets h.submitted h.running h.toMark h.unasked⟩

theorem Standing.exhaust (h : E.Standing c (.scanning 0) [] [] []) :
    ∃ c', E.step c (.run .exhaust) = some c' ∧
      E.Standing c' (.returned .completed) [] [] [] := by
  have hrun : ∀ log, PlanRun.step E.backend E.leaseTtl
      ⟨c.run.store, c.run.orchestrator, .scanning 0, log⟩ .exhaust =
      some ⟨c.run.store, c.run.orchestrator, .returned .completed, log⟩ := by
    intro log
    simp only [PlanRun.step, h.left, and_self, if_true]
  obtain ⟨c', hstep, hpool⟩ := h.pool.turn (.inl rfl) hrun
  exact ⟨c', hstep, hpool.standing h.left h.targets h.submitted h.running h.toMark h.unasked⟩

/-- A round in which no step succeeds. -/
theorem Standing.round (h : E.Standing c (.scanning (rounds + 1)) [] [] []) :
    ∃ (c' : ExecutionCall) (executed : Bool), Reaches E.step Fruitless c c' ∧
      E.Standing c' (if executed then .scanning rounds else .returned .completed) [] [] [] := by
  obtain ⟨c₁, targets, hscan, h₁, hleaseable⟩ := h.scan
  obtain ⟨c₂, htargets, h₂⟩ := h₁.targetAll hleaseable
  obtain ⟨c₃, hsucceeded, h₃⟩ := h₂.scanSucceeded
  obtain ⟨c₄, ids, hblocked, h₄, hpresent⟩ := h₃.scanBlocked
  obtain ⟨c₅, hmark, h₅⟩ := h₄.markAll hpresent
  obtain ⟨c₆, hnext, h₆⟩ := h₅.next
  refine ⟨c₆, _, ?_, h₆⟩
  have hrun := (reaches_step hscan trivial).trans htargets
  have hresolve := (reaches_step hsucceeded trivial).trans (reaches_step hblocked trivial)
  exact (hrun.trans hresolve).trans (hmark.trans (reaches_step hnext trivial))

/-- A drain in which no step succeeds; the induction is on the rounds that are left. -/
theorem Standing.drain (h : E.Standing c (.scanning rounds) [] [] []) :
    ∃ c', Reaches E.step Fruitless c c' ∧ E.Standing c' (.returned .completed) [] [] [] := by
  induction rounds generalizing c with
  | zero =>
    obtain ⟨c', hstep, hc'⟩ := h.exhaust
    exact ⟨c', reaches_step hstep trivial, hc'⟩
  | succ rounds ih =>
    obtain ⟨c₁, executed, hreaches, h₁⟩ := h.round
    cases executed with
    | false => exact ⟨c₁, hreaches, h₁⟩
    | true =>
      obtain ⟨c₂, hreaches', h₂⟩ := ih h₁
      exact ⟨c₂, hreaches.trans hreaches', h₂⟩

/-- Every call has a run in which its drain ends and no step succeeds. -/
theorem exists_fruitless_drain {kind : DrainKind} {repo : Repositories} (hrepo : E.Awaits kind repo)
    (store : JobStore) : ∃ c, Reaches E.step Fruitless (E.call kind repo store) c ∧
      E.Standing c (.returned .completed) [] [] [] := by
  obtain ⟨row, hrow, hawaits⟩ := hrepo
  obtain ⟨c, hreaches, hc⟩ : ∃ c, Reaches E.step Fruitless (E.call kind repo store) c ∧
      E.Standing c (.scanning maxRounds) E.plan.steps [] [] := by
    cases kind with
    | resume =>
      have hbegin : E.step (E.call .resume repo store) .begin =
          some { E.call .resume repo store with stage := .draining .closed } := rfl
      exact ⟨_, reaches_step hbegin trivial, ⟨rfl, rfl, rfl, rfl, rfl, rfl⟩, rfl, rfl, rfl, rfl, rfl,
        row, hrow, hawaits⟩
    | execute =>
      obtain ⟨hqueued, hcontrol⟩ := hawaits
      obtain ⟨repo', hrunning⟩ : ∃ repo', AssessmentService.markRunning repo E.assessmentId =
          .ok repo' := ⟨_, moveTo_ok_iff.mpr ⟨row, hrow, by rw [hqueued]; decide, rfl⟩⟩
      obtain ⟨row', hrow', -, hget⟩ := exists_moved_row hrunning
      rw [hrow] at hrow'
      cases hrow'
      have hbegin : E.step (E.call .execute repo store) .begin =
          some { E.call .execute repo store with repo := repo', stage := .checking } := by
        simp only [step, call, hrunning]
      have hstart : E.step { E.call .execute repo store with repo := repo', stage := .checking }
          .start = some { E.call .execute repo store with
            repo := repo', stage := .scoping, events := [.started] } := rfl
      have hproceed : E.step { E.call .execute repo store with
            repo := repo', stage := .scoping, events := [.started] } (.proceed false) =
          some { E.call .execute repo store with
            repo := repo', stage := .draining .closed, events := [.started] } := rfl
      have hreaches := ((reaches_step hbegin trivial).trans (reaches_step hstart trivial)).trans
        (reaches_step hproceed trivial)
      exact ⟨_, hreaches, ⟨rfl, rfl, rfl, rfl, rfl, rfl⟩, rfl, rfl, rfl, rfl, rfl, _, hget, rfl,
        .inl hcontrol⟩
  obtain ⟨c', hreaches', hc'⟩ := hc.dispatchAll
  obtain ⟨c'', hreaches'', hc''⟩ := hc'.drain
  exact ⟨c'', (hreaches.trans hreaches').trans hreaches'', hc''⟩

/-- A drain that has ended is completed when a job of the store has succeeded, found or not. -/
theorem Standing.completes (h : E.Standing c (.returned .completed) left targets toMark)
    (hsucceeded : ∃ job ∈ c.run.store.all, job.status = .succeeded) :
    ∃ t, Reaches E.step Fruitless c t ∧ t.stage = .returned ∧ E.statusOf t = some .completed ∧
      t.findings = [] ∧ t.run = c.run := by
  obtain ⟨row, hrow, hrunning, -⟩ := h.unasked
  obtain ⟨repo, hcomplete⟩ : ∃ repo, AssessmentService.complete c.repo E.assessmentId = .ok repo :=
    ⟨_, moveTo_ok_iff.mpr ⟨row, hrow, by rw [hrunning]; decide, rfl⟩⟩
  obtain ⟨_, -, -, hget⟩ := exists_moved_row hcomplete
  obtain ⟨c₁, hsettle, hstage₁, hrun₁, hrepo₁⟩ : ∃ c₁, E.step c (.settle false) = some c₁ ∧
      c₁.stage = .finalizing ∧ c₁.run = c.run ∧ c₁.repo = c.repo :=
    ⟨{ c with stage := .finalizing, events := c.events ++ c.kind.settledEvents },
      by simp only [step, h.pool.stage, h.pool.phase], rfl, rfl, rfl⟩
  have hany : anySucceeded c₁.run.store = true := by
    rw [hrun₁]
    exact anySucceeded_iff.mpr hsucceeded
  have hfound : E.found [] = [] := rfl
  have hfinalize : E.step c₁ (.finalize []) =
      some { c₁ with stage := .completing, findings := [] } := by
    simp [step, hstage₁, hany, hfound]
  have hcompleting : E.step { c₁ with stage := .completing, findings := [] } .complete =
      some { c₁ with repo, stage := .recording, findings := [] } := by
    simp only [step, hrepo₁, hcomplete]
  have hrecord : E.step { c₁ with repo, stage := .recording, findings := [] } .record =
      some (ExecutionCall.returning { c₁ with repo, stage := .recording, findings := [] } repo
        .completed) := rfl
  have hstatus : (repo.assessments.get? E.assessmentId).map Assessment.status =
      some .completed := by
    rw [hget]
    rfl
  have hend := (reaches_step hcompleting trivial).trans (reaches_step hrecord trivial)
  refine ⟨ExecutionCall.returning { c₁ with repo, stage := .recording, findings := [] } repo .completed,
    ?_, rfl, hstatus, rfl, hrun₁⟩
  exact ((reaches_step hsettle trivial).trans (reaches_step hfinalize trivial)).trans hend

end Construction

/-- Without a result, the log stays without one. -/
theorem log_of_fruitless (hfruitless : Fruitless c move) (hstep : E.step c move = some c')
    (h : ∀ event ∈ c.run.log, event.succeeds = false) :
    ∀ event ∈ c'.run.log, event.succeeds = false := by
  cases moved_of_step hstep with
  | ran label gate run hstage hpermits hgoesOn hrun =>
    cases label with
    | access action =>
      obtain ⟨store', o', phase, -, -, rfl⟩ := step_access hrun
      intro event hevent
      rcases List.mem_append.mp hevent with hevent | hevent
      · exact h event hevent
      cases action with
      | lease index =>
        simp only [Orchestrator.events] at hevent
        repeat' split at hevent
        all_goals
          first
            | rw [List.mem_singleton.mp hevent]
              rfl
            | cases hevent
      | report index outcome =>
        cases outcome with
        | result digest => exact hfruitless.elim
        | failure failure =>
          simp only [Orchestrator.events] at hevent
          split at hevent
          · cases hevent
          · rw [List.mem_singleton.mp hevent]
            rfl
      | _ => cases hevent
    | _ =>
      obtain ⟨-, hlog, -⟩ := step_local hrun (by simp)
      rw [hlog]
      exact h
  | threw => simpa using h
  | _ => exact h

end Executor

end SecOpent
