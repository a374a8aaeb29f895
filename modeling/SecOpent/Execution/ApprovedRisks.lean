import SecOpent.Execution.System

/-!
# What was approved and what is run

`approve` records the risks and the scope digest that its caller supplies and pins the digest of the
active plan; a drain loads plan and scope by id and never looks at the approval. What is run is what
was approved in every run whose approvals name every risk of the plan and the digest of the
assessment's scope snapshot.

## Main definitions

* `ApprovesPlan`: the condition on one approval, read in the state before it
* `Pins`: the approval on a row pins its plan and scope and allows the risks of its plan
* `World.Pinned`: rows are pinned, and threads hold the pinned plan and scope
* `Orchestrator.StepsFrom`: an orchestrator runs steps of its plan only

## Main results

* `Pinned.step`: rows stay pinned, and threads run the pinned plan and scope
* `runs_only_approved`: what a drain leases and runs was approved
-/

namespace SecOpent

open Python Transition

/-! ## The steps of an orchestrator -/

/-- Every step that the orchestrator knows or holds is one of `steps`. -/
structure Orchestrator.StepsFrom (o : Orchestrator) (steps : List PlanStep) : Prop where
  known : ∀ key step, o.steps.get? key = some step → step ∈ steps
  undispatched : ∀ step ∈ o.undispatched, step ∈ steps
  targets : ∀ target ∈ o.targets, target.2 ∈ steps
  submitted : ∀ target ∈ o.submitted, target.2 ∈ steps
  running : ∀ target ∈ o.running, target.2 ∈ steps

namespace Orchestrator

variable {backend : Backend} {ttl : Time} {store store' : JobStore} {o o' : Orchestrator}
  {steps : List PlanStep}

theorem stepsFrom_start (plan : ExecutionPlan) (maxWorkers : ℕ) (now : Time) :
    (start plan maxWorkers now).StepsFrom plan.steps where
  known key step h := by simp [start] at h
  undispatched step h := h
  targets target h := by simp [start] at h
  submitted target h := by simp [start] at h
  running target h := by simp [start] at h

theorem StepsFrom.noTargets (h : o.StepsFrom steps) : ({ o with targets := [] }).StepsFrom steps :=
  ⟨h.known, h.undispatched, fun _ hmem => by simp at hmem, h.submitted, h.running⟩

/-- An action takes no step from elsewhere. -/
theorem StepsFrom.act (h : o.StepsFrom steps) {action : OrchestratorAction}
    (hact : o.act backend ttl store action = some (store', o')) : o'.StepsFrom steps := by
  cases act_cases hact with
  | @dispatchStep step rest hleft =>
    have hstep : step ∈ steps := h.undispatched step (by simp [hleft])
    refine ⟨?_, ?_, h.targets, h.submitted, h.running⟩
    · intro key found hfound
      rw [Dict.get?_set] at hfound
      split at hfound
      · cases hfound
        exact hstep
      · exact h.known key found hfound
    · intro found hfound
      exact h.undispatched found (by simp [hleft, hfound])
  | scan =>
    refine ⟨h.known, h.undispatched, ?_, h.submitted, h.running⟩
    intro target htarget
    -- A target has the step that was dispatched under its job's key.
    obtain ⟨job, -, hstep⟩ := List.mem_filterMap.mp htarget
    obtain ⟨step, hget, rfl⟩ := Option.map_eq_some_iff.mp hstep
    exact h.known job.planStepKey step hget
  | @submit target rest htargets =>
    refine ⟨h.known, h.undispatched, ?_, ?_, h.running⟩
    · intro found hfound
      exact h.targets found (by simp [htargets, hfound])
    · intro found hfound
      rcases List.mem_append.mp hfound with hfound | hfound
      · exact h.submitted found hfound
      · rw [List.mem_singleton.mp hfound]
        exact h.targets target (by simp [htargets])
  | abort => exact h.noTargets
  | @lease _ job _ step _ hsubmitted =>
    refine ⟨h.known, h.undispatched, h.targets,
      fun target htarget => h.submitted target (List.mem_of_mem_eraseIdx htarget), ?_⟩
    intro found hfound
    rcases List.mem_append.mp hfound with hfound | hfound
    · exact h.running found hfound
    · rw [List.mem_singleton.mp hfound]
      exact h.submitted (job, step) (List.mem_of_getElem? hsubmitted)
  | refusedLease =>
    -- The target is dropped.
    exact ⟨h.known, h.undispatched, h.targets,
      fun target htarget => h.submitted target (List.mem_of_mem_eraseIdx htarget), h.running⟩
  | report =>
    exact ⟨h.known, h.undispatched, h.targets, h.submitted,
      fun found hfound => h.running found (List.mem_of_mem_eraseIdx hfound)⟩
  -- The other actions move no target.
  | renew | scanSucceeded | scanBlocked | markReady | scanUnfinished | skipNext =>
    exact ⟨h.known, h.undispatched, h.targets, h.submitted, h.running⟩

end Orchestrator

/-! ## Pinned rows -/

/-- The assessment was approved. -/
def AssessmentStatus.covered (status : AssessmentStatus) : Bool :=
  status == .approved || status.begun

theorem covered_of_allowed {current target : AssessmentStatus} (h : target.begun = true)
    (htarget : target ∈ allowedTransitions current) : current.covered = true := by
  cases current <;> revert htarget h <;> cases target <;> decide

/-- The approval on a row pins the row's plan and scope and allows every risk of the plan. -/
structure Pins (repo : Repositories) (row : Assessment) (plan : ExecutionPlan)
    (scope : ScopeSnapshot) (approval : Approval) : Prop where
  planId : row.activePlanId = some plan.id
  storedPlan : repo.plans.get? plan.id = some plan
  storedScope : repo.scopes.get? row.scopeSnapshotId = some scope
  approvalId : row.approvalId = some approval.id
  storedApproval : repo.approvals.get? approval.id = some approval
  planDigest : approval.planDigest = plan.digest
  scopeDigest : approval.scopeDigest = scope.digest
  risks : ∀ step ∈ plan.steps, step.risk ∈ approval.approvedRisks

theorem Pins.of_extends {repo repo' : Repositories} {row row' : Assessment} {plan : ExecutionPlan}
    {scope : ScopeSnapshot} {approval : Approval} (h : Pins repo row plan scope approval)
    (hplans : repo.plans.Extends repo'.plans) (happrovals : repo.approvals.Extends repo'.approvals)
    (hscopes : repo.scopes.Extends repo'.scopes) (hsame : SamePins row row') :
    Pins repo' row' plan scope approval :=
  ⟨hsame.plan.trans h.planId, hplans _ _ h.storedPlan, hsame.scope ▸ hscopes _ _ h.storedScope,
    hsame.approval.trans h.approvalId, happrovals _ _ h.storedApproval, h.planDigest,
    h.scopeDigest, h.risks⟩

/-- Every approved assessment is pinned by its approval. -/
def RowsPinned (repo : Repositories) : Prop :=
  ∀ id row, repo.assessments.get? id = some row → row.status.covered = true →
    ∃ plan scope approval, Pins repo row plan scope approval

/-- The approval names every risk of the plan, and the digest of the assessment's scope. -/
def ApproveCall.ApprovesPlan (repo : Repositories) (call : ApproveCall) : Prop :=
  ∀ row plan, repo.assessments.get? call.assessmentId = some row →
    row.activePlanId = some plan.id → repo.plans.get? plan.id = some plan →
    (∀ step ∈ plan.steps, step.risk ∈ call.approvedRisks) ∧
      ∃ scope, repo.scopes.get? row.scopeSnapshotId = some scope ∧ call.scopeDigest = scope.digest

/-- The condition on a call: an approval approves the plan. -/
def ServiceCall.ApprovesPlan (repo : Repositories) : ServiceCall → Prop
  | .approve _ call _ => call.ApprovesPlan repo
  | _ => True

theorem RowsPinned.of_effect {served : Option ServiceCall} {repo repo' : Repositories}
    (hpinned : RowsPinned repo) (heffect : ServeEffect served repo repo')
    (hcond : ∀ call, served = some call → call.ApprovesPlan repo) : RowsPinned repo' := by
  have hkept : ∀ {row row' : Assessment}, SamePins row row' →
      (∃ plan scope approval, Pins repo row plan scope approval) →
      ∃ plan scope approval, Pins repo' row' plan scope approval := by
    rintro row row' hsame ⟨plan, scope, approval, hpins⟩
    exact ⟨plan, scope, approval,
      hpins.of_extends heffect.plans heffect.approvals heffect.scopes hsame⟩
  intro id row hrow hcovered
  rcases heffect.assessments with heq | ⟨written, hwritten, heq⟩
  · rw [heq] at hrow
    exact hkept (.refl row) (hpinned id row hrow hcovered)
  rw [heq, Table.get?_put] at hrow
  split at hrow
  · cases hrow
    cases hwritten with
    -- A new row is a draft, and a row with a new plan awaits its approval.
    | created row hstatus =>
      simp [hstatus, AssessmentStatus.covered, AssessmentStatus.begun] at hcovered
    | planned found plan hfound => cases hcovered
    | approved found plan approval token args now hcall hargs hrisks hdigest hfound hstatus hactive
        hplan happroval hassessment hplanDigest =>
      -- The only row that is newly covered; the condition on approvals pins it.
      have happroves : args.ApprovesPlan repo := hcond _ hcall
      obtain ⟨hcontained, scope, hscope, hscopeDigest⟩ :=
        happroves found plan (hargs ▸ hfound) hactive hplan
      refine ⟨plan, scope, approval, hactive, heffect.plans _ _ hplan, heffect.scopes _ _ hscope,
        rfl, happroval, hplanDigest, hdigest.trans hscopeDigest, ?_⟩
      rw [hrisks]
      exact hcontained
    | moved found target control hfound htarget hplan happroval =>
      -- A row only moves on when it was approved before.
      have hbegun : target.begun = true := by
        simpa [AssessmentStatus.covered, happroval] using hcovered
      have hsame : SamePins found { found with status := target, control } := ⟨rfl, rfl, rfl, rfl⟩
      exact hkept hsame (hpinned found.id found hfound (covered_of_allowed hbegun htarget))
  · exact hkept (.refl row) (hpinned id row hrow hcovered)

/-! ## What a thread has loaded -/

/-- The plan and scope that a thread has loaded. -/
def Phase.loaded : Phase → Option (ExecutionPlan × ScopeSnapshot)
  | .draining plan scope _ _ => some (plan, scope)
  | phase => phase.prepares

theorem loadRun_eq_some {repo : Repositories} {assessmentId : String} {plan : ExecutionPlan}
    {scope : ScopeSnapshot} (h : loadRun repo assessmentId = some (plan, scope)) :
    ∃ row, repo.assessments.get? assessmentId = some row ∧ row.activePlanId = some plan.id ∧
      repo.plans.get? plan.id = some plan ∧ repo.scopes.get? row.scopeSnapshotId = some scope := by
  simp only [loadRun, Option.bind_eq_bind, Option.bind_eq_some_iff, Option.pure_def,
    Option.some.injEq, Prod.mk.injEq] at h
  obtain ⟨row, hrow, planId, hplanId, found, hplan, found', hscope, rfl, rfl⟩ := h
  have hid := Table.key_of_get? hplan
  exact ⟨row, hrow, by rw [hid, hplanId], by rw [hid, hplan], hscope⟩

/-- The plan and scope are those that the assessment's row names. -/
def Names (repo : Repositories) (assessmentId : String) (plan : ExecutionPlan)
    (scope : ScopeSnapshot) : Prop :=
  ∃ row, repo.assessments.get? assessmentId = some row ∧ row.activePlanId = some plan.id ∧
    repo.plans.get? plan.id = some plan ∧ repo.scopes.get? row.scopeSnapshotId = some scope

theorem Drain.Moved.loaded_cases {deployment : Deployment} {s s' : Shared} {d d' : Drain}
    (h : d.Moved deployment s s' d') {plan : ExecutionPlan} {scope : ScopeSnapshot}
    (hloaded : d'.phase.loaded = some (plan, scope)) :
    d.phase.loaded = some (plan, scope) ∨
      (s' = s ∧ loadRun s.repo d.assessmentId = some (plan, scope)) := by
  have hprepares : ∀ {phase : Phase} {pair : ExecutionPlan × ScopeSnapshot},
      phase.prepares = some pair → phase.loaded = some pair := by
    intro phase pair hpair
    cases phase <;> first | exact hpair | cases hpair
  cases h with
  | loaded plan' scope' hphase hkind hload =>
    cases hloaded
    exact .inr ⟨rfl, hload⟩
  | prepared plan' scope' revoker permitNonces phase hbefore hafter =>
    left
    have := hprepares hafter
    rw [show phase.loaded = some (plan, scope) from hloaded] at this
    cases this
    exact hprepares hbefore
  | drained plan' scope' now hbefore =>
    cases hloaded
    rcases hbefore with hbefore | ⟨-, -, hload⟩
    · exact .inl (hprepares hbefore)
    · exact .inr ⟨rfl, hload⟩
  | acted plan' scope' run run' gate action jobs hphase
  | vanished plan' scope' run hphase | askedGate plan' scope' run row hphase
  | clearedSignal plan' scope' run row hphase =>
    left
    rw [hphase]
    exact hloaded
  | _ => cases hloaded

theorem Gate.keepTargets_stepsFrom {gate : Gate} {run : Orchestrator} {steps : List PlanStep}
    (h : run.StepsFrom steps) : (gate.keepTargets run).StepsFrom steps := by
  cases gate with
  | stopped decision => exact h.noTargets
  | _ => exact h

/-- A drain runs the steps of its plan. -/
theorem Drain.Moved.stepsFrom {deployment : Deployment} {s s' : Shared} {d d' : Drain}
    (h : d.Moved deployment s s' d')
    (hinv : ∀ plan scope run gate, d.phase = .draining plan scope run gate →
      run.StepsFrom plan.steps) {plan : ExecutionPlan} {scope : ScopeSnapshot}
    {run : Orchestrator} {gate : Gate} (hphase : d'.phase = .draining plan scope run gate) :
    run.StepsFrom plan.steps := by
  cases h with
  | prepared plan' scope' revoker permitNonces phase hbefore hafter =>
    rw [show phase = _ from hphase] at hafter
    cases hafter
  | drained plan' scope' now =>
    cases hphase
    exact Orchestrator.stepsFrom_start plan deployment.maxWorkers now
  | acted plan' scope' run' run'' gate' action jobs hdraining hallows hact =>
    cases hphase
    exact (hinv _ _ _ _ hdraining).act hact
  | vanished plan' scope' run' hdraining =>
    cases hphase
    exact (hinv _ _ _ _ hdraining).noTargets
  | askedGate plan' scope' run' row hdraining =>
    cases hphase
    exact hinv _ _ _ _ hdraining
  | clearedSignal plan' scope' run' row hdraining =>
    cases hphase
    exact Gate.keepTargets_stepsFrom (hinv _ _ _ _ hdraining)
  | _ => cases hphase

/-! ## The invariant -/

namespace World

/-- Rows are pinned by their approvals, and every thread holds the plan and scope that its row names
and runs steps of that plan. -/
structure Pinned (w : World) : Prop where
  begun : w.Begun
  rows : RowsPinned w.shared.repo
  loaded : ∀ d ∈ w.drains, ∀ plan scope, d.phase.loaded = some (plan, scope) →
    Names w.shared.repo d.assessmentId plan scope
  steps : ∀ d ∈ w.drains, ∀ plan scope run gate, d.phase = .draining plan scope run gate →
    run.StepsFrom plan.steps

/-- The condition on a step of the system. -/
def ApprovesPlan (w : World) : WorldLabel → Prop
  | .serve call => call.ApprovesPlan w.shared.repo
  | _ => True

theorem pinned_init (scopes : Table ScopeSnapshot ScopeSnapshot.id) :
    Pinned { shared := { repo := { scopes } } } where
  begun := begun_init scopes
  rows id row hrow := by simp at hrow
  loaded d hd := by simp at hd
  steps d hd := by simp at hd

section Step

variable {deployment : Deployment} {w u : World}

/-- Plans and scopes are never changed. -/
theorem step_extends {l : WorldLabel} (hstep : w.step deployment l = some u) :
    w.shared.repo.plans.Extends u.shared.repo.plans ∧
      w.shared.repo.approvals.Extends u.shared.repo.approvals ∧
      w.shared.repo.scopes.Extends u.shared.repo.scopes := by
  cases l with
  | serve call =>
    obtain ⟨-, hfresh, hserve, -⟩ := World.step_serve hstep
    have heffect := serve_effect hserve hfresh
    exact ⟨heffect.plans, heffect.approvals, heffect.scopes⟩
  | trigger =>
    cases hstep
    exact ⟨.refl _, .refl _, .refl _⟩
  | drain index move =>
    obtain ⟨d, s', d', hd, hmove, rfl⟩ := World.step_drain hstep
    rcases (Drain.moved_of_move hmove).repo_effect with heffect |
      ⟨plan, scope, run, row, -, -, heq⟩
    · exact ⟨heffect.plans, heffect.approvals, heffect.scopes⟩
    · rw [heq]
      exact ⟨.refl _, .refl _, .refl _⟩

/-- What a thread has loaded stays what its row names. -/
theorem Pinned.names_kept (hinv : w.Pinned) {l : WorldLabel}
    (hstep : w.step deployment l = some u) {d : Drain} (hd : d ∈ w.drains) {plan : ExecutionPlan}
    {scope : ScopeSnapshot} (h : Names w.shared.repo d.assessmentId plan scope) :
    Names u.shared.repo d.assessmentId plan scope := by
  obtain ⟨row, hrow, hplanId, hplan, hscope⟩ := h
  obtain ⟨found, hfound, hbegun, -⟩ := hinv.begun d hd
  rw [hrow] at hfound
  cases hfound
  obtain ⟨row', hrow', -, hsame⟩ := hinv.begun.kept hstep hrow hbegun
  obtain ⟨hplans, -, hscopes⟩ := step_extends hstep
  refine ⟨row', hrow', hsame.plan.trans hplanId, hplans _ _ hplan, ?_⟩
  rw [hsame.scope]
  exact hscopes _ _ hscope

/-- The gate writes back a row that is pinned as the one it read. -/
theorem Pinned.rows_cleared (hinv : w.Pinned) {d : Drain} (hd : d ∈ w.drains)
    {plan : ExecutionPlan} {scope : ScopeSnapshot} {run : Orchestrator} {read : Assessment}
    (hphase : d.phase = .draining plan scope run (.signal read)) :
    RowsPinned (w.shared.repo.addAssessment { read with control := .none }) := by
  intro id row hrow hcovered
  rw [Repositories.addAssessment, Table.get?_put] at hrow
  split at hrow
  · cases hrow
    obtain ⟨found, hfound, hbegun, hread⟩ := hinv.begun d hd
    obtain ⟨-, hsame⟩ := hread plan scope run read hphase
    obtain ⟨plan', scope', approval, hpins⟩ :=
      hinv.rows _ found hfound (by simp [AssessmentStatus.covered, hbegun])
    exact ⟨plan', scope', approval, hpins.of_extends (.refl _) (.refl _) (.refl _)
      ⟨hsame.id, hsame.plan, hsame.approval, hsame.scope⟩⟩
  · obtain ⟨plan', scope', approval, hpins⟩ := hinv.rows id row hrow hcovered
    exact ⟨plan', scope', approval, hpins.of_extends (.refl _) (.refl _) (.refl _) (.refl row)⟩

/-- **Rows stay pinned, and threads run the pinned plan and scope.** -/
theorem Pinned.step (hinv : w.Pinned) {l : WorldLabel} (hcond : w.ApprovesPlan l)
    (hstep : w.step deployment l = some u) : u.Pinned := by
  have hbegun := hinv.begun.step hstep
  have hnames : ∀ d ∈ w.drains, ∀ plan scope, d.phase.loaded = some (plan, scope) →
      Names u.shared.repo d.assessmentId plan scope :=
    fun d hd plan scope hloaded => hinv.names_kept hstep hd (hinv.loaded d hd plan scope hloaded)
  cases l with
  | serve call =>
    obtain ⟨-, hfresh, hserve, hu⟩ := World.step_serve hstep
    -- A thread that the call starts has loaded nothing yet.
    have hnew : ∀ d ∈ u.drains, d ∈ w.drains ∨ d.phase = .queued := by
      intro d hd
      rw [hu] at hd
      rcases List.mem_append.mp hd with hd | hd
      · exact .inl hd
      · exact .inr (spawned_row hserve hd).1
    refine ⟨hbegun, hinv.rows.of_effect (serve_effect hserve hfresh) ?_, ?_, ?_⟩
    · intro served hserved
      cases hserved
      exact hcond
    · intro d hd plan scope hloaded
      rcases hnew d hd with hd | hqueued
      · exact hnames d hd plan scope hloaded
      · rw [hqueued] at hloaded
        cases hloaded
    · intro d hd plan scope run gate hphase
      rcases hnew d hd with hd | hqueued
      · exact hinv.steps d hd plan scope run gate hphase
      · rw [hqueued] at hphase
        cases hphase
  | trigger =>
    cases hstep
    exact ⟨hbegun, hinv.rows, hinv.loaded, hinv.steps⟩
  | drain index move =>
    obtain ⟨d, s', d', hd, hmove, rfl⟩ := World.step_drain hstep
    have hmem := List.mem_of_getElem? hd
    have hmoved := Drain.moved_of_move hmove
    refine ⟨hbegun, ?_, ?_, ?_⟩
    · rcases hmoved.repo_effect with heffect | ⟨plan, scope, run, read, hphase, -, heq⟩
      · exact hinv.rows.of_effect heffect fun _ hcall => by cases hcall
      · show RowsPinned s'.repo
        rw [heq]
        exact hinv.rows_cleared hmem hphase
    · intro x hx plan scope hloaded
      rcases mem_set_cases hx with rfl | hx
      · rw [hmoved.assessmentId]
        rcases hmoved.loaded_cases hloaded with hbefore | ⟨rfl, hload⟩
        · exact hnames d hmem plan scope hbefore
        · exact loadRun_eq_some hload
      · exact hnames x hx plan scope hloaded
    · intro x hx plan scope run gate hphase
      rcases mem_set_cases hx with rfl | hx
      · exact hmoved.stepsFrom (hinv.steps d hmem) hphase
      · exact hinv.steps x hx plan scope run gate hphase

end Step

/-! ## Runs -/

/-- **What a drain leases and runs was approved**, in every run whose approvals approve the plan: it
runs the plan and scope that the approval on its assessment pinned, and the risk of every step in
hand is among the approved ones. -/
theorem runs_only_approved {deployment : Deployment}
    {scopes : Table ScopeSnapshot ScopeSnapshot.id} {t : World}
    (h : Reaches (World.step deployment) ApprovesPlan { shared := { repo := { scopes } } } t)
    {d : Drain} (hd : d ∈ t.drains) {plan : ExecutionPlan} {scope : ScopeSnapshot}
    {run : Orchestrator} {gate : Gate} (hphase : d.phase = .draining plan scope run gate) :
    ∃ row approval, t.shared.repo.assessments.get? d.assessmentId = some row ∧
      row.approvalId = some approval.id ∧
      t.shared.repo.approvals.get? approval.id = some approval ∧
      plan.digest = approval.planDigest ∧ scope.digest = approval.scopeDigest ∧
      ∀ target ∈ run.submitted ++ run.running, target.2.risk ∈ approval.approvedRisks := by
  have hinv : t.Pinned :=
    h.invariant (pinned_init scopes) fun _ _ _ hinv hcond hstep => hinv.step hcond hstep
  obtain ⟨row, hrow, hplanId, hplan, hscope⟩ := hinv.loaded d hd plan scope (by rw [hphase]; rfl)
  obtain ⟨found, hfound, hbegun, -⟩ := hinv.begun d hd
  rw [hrow] at hfound
  cases hfound
  obtain ⟨plan', scope', approval, hpins⟩ :=
    hinv.rows _ row hrow (by simp [AssessmentStatus.covered, hbegun])
  -- The row names one plan and one scope, so the approval is about those of the drain.
  have hsamePlan : plan' = plan := by
    have hid : plan'.id = plan.id := Option.some.inj (hpins.planId.symm.trans hplanId)
    have hstored := hpins.storedPlan
    rw [hid, hplan] at hstored
    exact (Option.some.inj hstored).symm
  have hsameScope : scope' = scope := by
    have hstored := hpins.storedScope
    rw [hscope] at hstored
    exact (Option.some.inj hstored).symm
  subst hsamePlan hsameScope
  refine ⟨row, approval, hrow, hpins.approvalId, hpins.storedApproval, hpins.planDigest.symm,
    hpins.scopeDigest.symm, ?_⟩
  intro target htarget
  have hsteps := hinv.steps d hd plan' scope' run gate hphase
  refine hpins.risks target.2 ?_
  rcases List.mem_append.mp htarget with htarget | htarget
  · exact hsteps.submitted target htarget
  · exact hsteps.running target htarget

/-! ## An approval of fewer risks -/

/-- The risks of the steps that a thread is running. -/
def runningRisks (d : Drain) : List RiskClass :=
  match d.phase with
  | .draining _ _ run _ => run.running.map fun target => target.2.risk
  | _ => []

/-- An intrusive step. -/
def intrusiveStep : List PlanStep := [⟨"scan", "sqlmap", .intrusive, .empty, []⟩]

/-- The drain of the first thread leases its only step. -/
def leaseMoves : List WorldLabel :=
  [.drain 0 (.act .dispatchStep), .drain 0 (.act .scan), .drain 0 .gateRead,
    .drain 0 (.act .submit), .drain 0 (.act (.lease 0))]

/-- Only passive steps are approved; the intrusive step is leased and run. -/
theorem unapproved_risk_runs :
    ∃ t, runLabels (World.step sampleDeployment) sampleWorld
        (startCalls intrusiveStep {.passive} ++ beginMoves ++ prepareMoves ++ leaseMoves) = some t ∧
      (t.shared.repo.approvals.get? "apr-r").map Approval.approvedRisks = some {.passive} ∧
      (t.shared.repo.assessments.get? "asm-a").map Assessment.approvalId = some (some "apr-r") ∧
      (t.shared.jobs.get? "job:scan").map Job.status = some .leased ∧
      t.drains.map runningRisks = [[.intrusive]] := by
  refine ⟨_, rfl, rfl, rfl, rfl, rfl⟩

/-- Not an approval. -/
def isNotApprove : WorldLabel → Bool
  | .serve (.approve _ _ _) => false
  | _ => true

theorem approvesPlan_of_not_approve {l : WorldLabel} (h : isNotApprove l = true) (w : World) :
    w.ApprovesPlan l := by
  unfold isNotApprove at h
  split at h
  · cases h
  next hne =>
    cases l with
    | serve call =>
      cases call with
      | approve token call now => exact absurd rfl (hne token call now)
      | _ => trivial
    | _ => trivial

/-- A passive step is approved, leased and run. -/
theorem runs_only_approved_passive :
    ∃ t d, Reaches (World.step sampleDeployment) ApprovesPlan sampleWorld t ∧ d ∈ t.drains ∧
      ∃ plan scope run gate, d.phase = .draining plan scope run gate ∧ run.running ≠ [] ∧
        ∃ row approval, t.shared.repo.assessments.get? d.assessmentId = some row ∧
          row.approvalId = some approval.id ∧
          t.shared.repo.approvals.get? approval.id = some approval ∧
          plan.digest = approval.planDigest ∧ scope.digest = approval.scopeDigest ∧
          ∀ target ∈ run.submitted ++ run.running, target.2.risk ∈ approval.approvedRisks := by
  obtain ⟨t, ht⟩ : ∃ t, runLabels (World.step sampleDeployment) sampleWorld
      (startCalls oneStep {.passive} ++ beginMoves ++ prepareMoves ++ leaseMoves) = some t :=
    Option.isSome_iff_exists.mp (by decide +kernel)
  have hother : ∀ labels : List WorldLabel, labels.all isNotApprove = true →
      ∀ w, runMeets (World.step sampleDeployment) ApprovesPlan w labels := by
    intro labels hall w
    refine runMeets_of_forall fun l hl w => approvesPlan_of_not_approve ?_ w
    exact List.all_eq_true.mp hall l hl
  have hmeets : runMeets (World.step sampleDeployment) ApprovesPlan sampleWorld
      ((startCalls oneStep {.passive}).take 2 ++
        ((startCalls oneStep {.passive}).drop 2 ++ beginMoves ++ prepareMoves ++ leaseMoves)) := by
    refine runMeets_append (hother _ (by decide +kernel) _) fun w hw => ⟨?_, fun v _ => ?_⟩
    · -- The row names the plan of one passive step and the scope of the project.
      have hseen : (w.shared.repo.assessments.get? "asm-a").map
          (fun row => (row.activePlanId, row.scopeSnapshotId)) = some (some "plan-p", "scope-a") :=
        eq_of_runLabels (fun w => (w.shared.repo.assessments.get? "asm-a").map
          fun row => (row.activePlanId, row.scopeSnapshotId)) hw (by decide +kernel)
      have hrisks : (w.shared.repo.plans.get? "plan-p").map
          (fun plan => plan.steps.map PlanStep.risk) = some [.passive] :=
        eq_of_runLabels (fun w => (w.shared.repo.plans.get? "plan-p").map
          fun plan => plan.steps.map PlanStep.risk) hw (by decide +kernel)
      have hdigest : (w.shared.repo.scopes.get? "scope-a").map ScopeSnapshot.digest =
          some "digest-a" :=
        eq_of_runLabels (fun w => (w.shared.repo.scopes.get? "scope-a").map ScopeSnapshot.digest) hw
          (by decide +kernel)
      intro row plan hrow hactive hplan
      rw [show w.shared.repo.assessments.get? "asm-a" = some row from hrow] at hseen
      simp only [Option.map_some, Option.some.injEq, Prod.mk.injEq, hactive] at hseen
      rw [hseen.1] at hplan
      rw [hplan, Option.map_some, Option.some.injEq] at hrisks
      obtain ⟨scope, hscope, hscopeDigest⟩ := Option.map_eq_some_iff.mp hdigest
      refine ⟨?_, scope, hseen.2 ▸ hscope, hscopeDigest.symm⟩
      intro step hstep
      have hrisk := List.mem_map_of_mem (f := PlanStep.risk) hstep
      rw [hrisks, List.mem_singleton] at hrisk
      rw [hrisk]
      exact Finset.mem_singleton_self _
    · -- No approval is among the calls that follow.
      exact hother _ (by decide +kernel) v
  have hreach := Reaches.of_runLabels ht hmeets
  have hruns : t.drains.map runningRisks = [[.passive]] :=
    eq_of_runLabels (fun w => w.drains.map runningRisks) ht (by decide +kernel)
  obtain ⟨d, hdrains, hrisks⟩ := List.map_eq_singleton_iff.mp hruns
  have hd : d ∈ t.drains := by simp [hdrains]
  unfold runningRisks at hrisks
  split at hrisks
  next plan scope run gate hphase =>
    refine ⟨t, d, hreach, hd, plan, scope, run, gate, hphase, ?_, runs_only_approved hreach hd hphase⟩
    intro hnil
    simp [hnil] at hrisks
  next => cases hrisks

end World

end SecOpent
