import SecOpent.Python.Dict
import SecOpent.Scope.Enforcement

/-!
# Assessments, plans and approvals

`domain/assessments/models.py` and `domain/assessments/transitions.py`: the records the services
read and write, and the table of legal status transitions.

## Main definitions

* `PlanStep`, `ExecutionPlan`, `Approval`, `Assessment`
* `allowedTransitions`, `assertTransition`
* `ServiceError`: what the application services raise

## Main results

* `assertTransition_ok_iff`
-/

namespace SecOpent

open Python

/-- `AssessmentStatus`. -/
inductive AssessmentStatus
  | draft | planned | awaitingApproval | approved | rejected | queued | running | paused
  | completed | partially | failed | cancelled
  deriving DecidableEq, Repr

/-- `AssessmentStatus.value`. -/
def AssessmentStatus.value : AssessmentStatus → String
  | .draft => "draft"
  | .planned => "planned"
  | .awaitingApproval => "awaiting_approval"
  | .approved => "approved"
  | .rejected => "rejected"
  | .queued => "queued"
  | .running => "running"
  | .paused => "paused"
  | .completed => "completed"
  | .partially => "partial"
  | .failed => "failed"
  | .cancelled => "cancelled"

/-- `ControlState`. -/
inductive ControlState
  | none | pauseRequested | resumeRequested | cancelRequested
  deriving DecidableEq, Repr

/-- `ExecutionMode`. -/
inductive ExecutionMode
  | approval | scopeAutopilot
  deriving DecidableEq, Repr

/-- `PlanStep`. The values of `parameters` are texts; `target` is the only key that is read. -/
structure PlanStep where
  key : String
  runner : String
  risk : RiskClass
  parameters : Dict String Str
  dependencies : List String
  deriving DecidableEq

/-- `ExecutionPlan`. -/
structure ExecutionPlan where
  id : String
  assessmentId : String
  version : ℕ
  steps : List PlanStep
  digest : String
  deriving DecidableEq

/-- `Approval`. -/
structure Approval where
  id : String
  assessmentId : String
  planDigest : String
  scopeDigest : String
  mode : ExecutionMode
  approvedRisks : Finset RiskClass
  approvedCapabilities : Finset String
  approvedBy : String
  digest : String
  deriving DecidableEq

/-- `Assessment`. -/
structure Assessment where
  id : String
  projectId : String
  scopeSnapshotId : String
  mode : ExecutionMode
  status : AssessmentStatus
  activePlanId : Option String := none
  approvalId : Option String := none
  control : ControlState := .none
  deriving DecidableEq

/-! ## Errors of the services -/

/-- What the application services raise. -/
inductive ServiceError
  | lookup (message : String)
  | validation (message : String)
  | permission (message : String)
  | grantNotFound (message : String)
  /-- A row that already exists is inserted again. -/
  | integrity
  /-- An error of a scope test that the service does not handle. -/
  | python (error : PyError)
  deriving DecidableEq, Repr

/-! ## The state machine -/

/-- `ALLOWED_TRANSITIONS`. -/
def allowedTransitions : AssessmentStatus → List AssessmentStatus
  | .draft => [.awaitingApproval]
  | .awaitingApproval => [.approved, .rejected, .awaitingApproval]
  | .approved => [.queued]
  | .queued => [.running, .cancelled]
  | .running => [.completed, .partially, .failed, .paused, .cancelled]
  | .paused => [.running, .cancelled]
  -- `PLANNED` is reserved; the others are terminal.
  | .planned | .rejected | .completed | .partially | .failed | .cancelled => []

/-- `assert_transition`. -/
def assertTransition (current target : AssessmentStatus) : Except ServiceError Unit :=
  if target ∈ allowedTransitions current then .ok ()
  else .error (.validation
    ("illegal assessment transition: " ++ current.value ++ " -> " ++ target.value))

theorem assertTransition_ok_iff {current target : AssessmentStatus} {u : Unit} :
    assertTransition current target = .ok u ↔ target ∈ allowedTransitions current := by
  unfold assertTransition
  split <;> simp_all

/-! ## Plans -/

/-- `visit`, the depth-first search of `ExecutionPlan.create`: the keys visited so far, or `none`
at a cycle. The path `visiting` has no repetition, so `fuel` above the number of keys is never
used up. -/
def visit (graph : String → List String) :
    ℕ → List String → List String → String → Option (List String)
  | 0, _, _, _ => none
  | fuel + 1, visiting, visited, key =>
    if key ∈ visiting then none
    else if key ∈ visited then some visited
    else
      ((graph key).foldlM (fun visited dep => visit graph fuel (key :: visiting) visited dep)
        visited).map (key :: ·)

/-- The dependencies of a key in a list of steps. -/
def dependencyGraph (steps : List PlanStep) (key : String) : List String :=
  ((steps.find? fun s => s.key == key).map PlanStep.dependencies).getD []

/-- `ExecutionPlan.create`, with the digest of its canonical payload given. -/
def ExecutionPlan.create (planId assessmentId : String) (version : ℕ) (steps : List PlanStep)
    (digest : String) : Except ServiceError ExecutionPlan :=
  let keys := steps.map PlanStep.key
  if version < 1 then .error (.validation "plan version must be positive")
  else if ¬keys.Nodup then .error (.validation "plan step keys must be unique")
  else if ∃ s ∈ steps, ∃ d ∈ s.dependencies, d ∉ keys then
    .error (.validation "plan dependency does not exist")
  else
    match keys.foldlM (fun visited key =>
        visit (dependencyGraph steps) (steps.length + 1) [] visited key) [] with
    | none => .error (.validation "plan dependency cycle")
    | some _ => .ok ⟨planId, assessmentId, version, steps, digest⟩

/-- A plan that was created is the plan that was asked for, with unique keys. -/
theorem ExecutionPlan.create_ok {planId assessmentId digest : String} {version : ℕ}
    {steps : List PlanStep} {plan : ExecutionPlan}
    (h : ExecutionPlan.create planId assessmentId version steps digest = .ok plan) :
    plan = ⟨planId, assessmentId, version, steps, digest⟩ ∧
      (plan.steps.map PlanStep.key).Nodup := by
  unfold ExecutionPlan.create at h
  dsimp only at h
  split at h
  · cases h
  split at h
  · cases h
  next hnodup =>
  split at h
  · cases h
  split at h
  · cases h
  · cases h
    exact ⟨rfl, by simpa using hnodup⟩

/-- The dependencies of a created plan are steps of it. -/
theorem ExecutionPlan.create_dependencies {planId assessmentId digest : String} {version : ℕ}
    {steps : List PlanStep} {plan : ExecutionPlan}
    (h : ExecutionPlan.create planId assessmentId version steps digest = .ok plan) :
    ∀ step ∈ plan.steps, ∀ d ∈ step.dependencies, d ∈ plan.steps.map PlanStep.key := by
  have heq := (ExecutionPlan.create_ok h).1
  unfold ExecutionPlan.create at h
  dsimp only at h
  split at h
  · cases h
  split at h
  · cases h
  split at h
  · cases h
  next hdependencies =>
    rw [heq]
    intro step hstep d hd
    by_contra hmissing
    exact hdependencies ⟨step, hstep, d, hd, hmissing⟩

/-- Steps that depend on nothing are a plan if their keys are unique. -/
theorem ExecutionPlan.create_of_independent {planId assessmentId digest : String} {version : ℕ}
    {steps : List PlanStep} (hversion : 1 ≤ version) (hnodup : (steps.map PlanStep.key).Nodup)
    (hsteps : ∀ step ∈ steps, step.dependencies = []) :
    ExecutionPlan.create planId assessmentId version steps digest =
      .ok ⟨planId, assessmentId, version, steps, digest⟩ := by
  have hgraph : ∀ key, dependencyGraph steps key = [] := by
    intro key
    rw [dependencyGraph]
    cases hfind : steps.find? fun s => s.key == key with
    | none => rfl
    | some step => exact hsteps step (List.mem_of_find?_eq_some hfind)
  have hdependencies : ¬∃ s ∈ steps, ∃ d ∈ s.dependencies, d ∉ steps.map PlanStep.key := by
    rintro ⟨step, hstep, d, hd, -⟩
    rw [hsteps step hstep] at hd
    cases hd
  -- Without dependencies a visit ends at once.
  have hvisit : ∀ (keys visited : List String), ∃ visited',
      keys.foldlM (fun visited key => visit (dependencyGraph steps) (steps.length + 1) [] visited key)
        visited = some visited' := by
    intro keys
    induction keys with
    | nil => exact fun visited => ⟨visited, rfl⟩
    | cons key keys ih =>
      intro visited
      by_cases hmem : key ∈ visited
      · simpa [visit, hmem] using ih visited
      · simpa [visit, hmem, hgraph] using ih (key :: visited)
  obtain ⟨visited, hvisited⟩ := hvisit (steps.map PlanStep.key) []
  simp only [ExecutionPlan.create, if_neg (not_lt.mpr hversion), if_neg (not_not.mpr hnodup),
    if_neg hdependencies, hvisited]

/-- `Approval.create`, with the digest of its canonical payload given. -/
def Approval.create (approval : Approval) : Except ServiceError Approval :=
  if approval.planDigest = "" ∨ approval.scopeDigest = "" then
    .error (.validation "approval requires plan and scope digest")
  else .ok approval

theorem Approval.create_ok {approval created : Approval}
    (h : Approval.create approval = .ok created) : created = approval := by
  unfold Approval.create at h
  split at h
  · cases h
  · cases h
    rfl

/-- `Assessment.create`. -/
def Assessment.create (assessmentId projectId scopeSnapshotId : String) (mode : ExecutionMode) :
    Except ServiceError Assessment :=
  if assessmentId = "" ∨ projectId = "" ∨ scopeSnapshotId = "" then
    .error (.validation "assessment identifiers are required")
  else .ok { id := assessmentId, projectId, scopeSnapshotId, mode, status := .draft }

/-- `Assessment.start`. -/
def Assessment.start (assessment : Assessment) (planId approvalId : String) :
    Except ServiceError Assessment :=
  if approvalId = "" then .error (.validation "assessment requires approval")
  else if assessment.status ∉ [AssessmentStatus.draft, .approved] then
    .error (.validation "assessment cannot start from current status")
  else
    .ok { assessment with
          status := .queued, activePlanId := some planId, approvalId := some approvalId }

theorem Assessment.start_ok {assessment updated : Assessment} {planId approvalId : String}
    (h : assessment.start planId approvalId = .ok updated) :
    updated = { assessment with
      status := .queued, activePlanId := some planId, approvalId := some approvalId } := by
  unfold Assessment.start at h
  split at h
  · cases h
  split at h
  · cases h
  · cases h
    rfl

theorem Assessment.create_ok {assessmentId projectId scopeSnapshotId : String}
    {mode : ExecutionMode} {assessment : Assessment}
    (h : Assessment.create assessmentId projectId scopeSnapshotId mode = .ok assessment) :
    assessment = { id := assessmentId, projectId, scopeSnapshotId, mode, status := .draft } := by
  unfold Assessment.create at h
  split at h
  · cases h
  · cases h
    rfl

end SecOpent
