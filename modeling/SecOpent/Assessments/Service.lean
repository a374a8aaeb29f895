import SecOpent.Python.Table
import SecOpent.Grants.Models

/-!
# Assessment and grant services

`application/assessments.py` and `application/grants.py` over their repositories. An operation that
raises leaves the repositories as they were. Generated ids are a fixed start followed by a random
token, which the operation is given; digests of canonical payloads are functions of the payload.

## Main definitions

* `Repositories`: the tables the services share
* `AssessmentService.approve`, `start` and the other operations
* `GrantService.authorize`, `createHuman`, `revoke`
* `ServiceCall`, `serve`: one call of a service

## Main results

* `moveTo_ok_iff`, `approve_ok`, `authorizeViaGrant_ok`: what a call that returned found and wrote
* `serve_effect`: all that a call can do to the tables
-/

namespace SecOpent

open Python

/-- `canonical_digest` of the payloads of a plan and of an approval; an approval's payload is the
approval without its id and digest. -/
structure CanonicalDigest where
  plan : String → ℕ → List PlanStep → String
  approval : Approval → String

/-- The tables behind the repositories. -/
structure Repositories where
  assessments : Table Assessment Assessment.id := .empty
  plans : Table ExecutionPlan ExecutionPlan.id := .empty
  approvals : Table Approval Approval.id := .empty
  scopes : Table ScopeSnapshot ScopeSnapshot.id := .empty
  grants : Table EngagementGrant EngagementGrant.id := .empty

variable (U : Unicode) (H : CanonicalDigest)

/-- `raise` unless a condition holds. -/
def raiseUnless (condition : Bool) (error : ServiceError) : Except ServiceError Unit :=
  if condition then .ok () else .error error

theorem raiseUnless_ok_iff {condition : Bool} {error : ServiceError} {u : Unit} :
    raiseUnless condition error = .ok u ↔ condition = true := by
  cases condition <;> simp [raiseUnless]

/-! ## Repositories -/

namespace Repositories

variable (repo : Repositories)

/-- `AssessmentRepository.get`, or the `LookupError` of every operation. -/
def assessment (assessmentId : String) : Except ServiceError Assessment :=
  match repo.assessments.get? assessmentId with
  | none => .error (.lookup ("assessment " ++ assessmentId ++ " not found"))
  | some assessment => .ok assessment

/-- `AssessmentRepository.add`. -/
def addAssessment (assessment : Assessment) : Repositories :=
  { repo with assessments := repo.assessments.put assessment }

/-- `AssessmentRepository.save_plan`. -/
def savePlan (plan : ExecutionPlan) : Except ServiceError Repositories :=
  match repo.plans.insert plan with
  | none => .error .integrity
  | some plans => .ok { repo with plans }

/-- `AssessmentRepository.save_approval`. -/
def saveApproval (approval : Approval) : Except ServiceError Repositories :=
  match repo.approvals.insert approval with
  | none => .error .integrity
  | some approvals => .ok { repo with approvals }

/-- `GrantRepository.add`: the grant's scope goes to the table of all scopes, and is read back from
there. -/
def addGrant (grant : EngagementGrant) : Repositories :=
  match repo.scopes.get? grant.scope.id with
  | none =>
    { repo with scopes := repo.scopes.put grant.scope, grants := repo.grants.put grant }
  | some scope => { repo with grants := repo.grants.put { grant with scope } }

end Repositories

/-! ## Grants -/

/-- `GrantDecision`. -/
structure GrantDecision where
  allowed : Bool
  reason : String
  deriving DecidableEq

namespace GrantService

/-- `GrantService._require_human`. -/
def requireHuman (actorRole : String) : Except ServiceError Unit :=
  raiseUnless (actorRole == "human") (.permission "grant creation/revocation is human-only")

/-- `GrantService.create_human`; `grant` is what `EngagementGrant.create` returns. -/
def createHuman (repo : Repositories) (actorRole : String)
    (grant : Except ServiceError EngagementGrant) : Except ServiceError Repositories := do
  requireHuman actorRole
  let grant ← grant
  pure (repo.addGrant grant)

/-- `GrantService.revoke`. -/
def revoke (repo : Repositories) (grantId actorRole : String) :
    Except ServiceError Repositories := do
  requireHuman actorRole
  match repo.grants.get? grantId with
  | none => .error (.grantNotFound ("grant not found: " ++ grantId))
  | some grant => pure (repo.addGrant grant.revoke)

/-- `GrantService.authorize`. -/
def authorize (repo : Repositories) (grantId : String) (scope : ScopeSnapshot)
    (steps : List PlanStep) (now : Time) : Except PyError GrantDecision :=
  match repo.grants.get? grantId with
  | none => pure ⟨false, "GRANT_NOT_FOUND"⟩
  | some grant => do
    if !grant.isActiveAt now then pure ⟨false, "GRANT_INACTIVE"⟩
    else if !(← grant.coversScope U scope) then pure ⟨false, "GRANT_SCOPE_MISMATCH"⟩
    else if !grant.coversRisks steps then pure ⟨false, "GRANT_RISK_NOT_APPROVED"⟩
    else pure ⟨true, "ALLOWED"⟩

end GrantService

/-! ## Assessments -/

/-- `AssessmentService`: whether it was built with a scope repository and a grant service. -/
structure AssessmentService where
  scopeRepo : Bool := true
  grantService : Bool := true

/-- The arguments of `AssessmentService.approve`. -/
structure ApproveCall where
  assessmentId : String
  approvedBy : String
  approvedRisks : Finset RiskClass
  approvedCapabilities : Finset String
  scopeDigest : String
  actorRole : String := "human"
  grantId : Option String := none

namespace AssessmentService

variable (service : AssessmentService) (repo : Repositories)

/-- `_require_human`; the `repr` of a role without quotes and escapes. -/
def requireHuman (actorRole : String) : Except ServiceError Unit :=
  if actorRole = "agent" then
    .error (.permission "agents cannot approve or reject assessments (human-only action)")
  else if actorRole ≠ "human" then
    .error (.permission ("unknown actor role: '" ++ actorRole ++ "'"))
  else .ok ()

/-- The plan that `_authorize_via_grant` looks at: an assessment without one has no steps. -/
def plannedSteps (assessment : Assessment) : List PlanStep :=
  match assessment.activePlanId with
  | none => []
  | some planId =>
    if planId = "" then []
    else ((repo.plans.get? planId).map ExecutionPlan.steps).getD []

/-- `_authorize_via_grant`. -/
def authorizeViaGrant (grantId assessmentId : String) (now : Time) : Except ServiceError Unit := do
  raiseUnless service.grantService (.permission "grant service not configured")
  raiseUnless service.scopeRepo
    (.permission "scope repository not configured for grant approval")
  let assessment ← repo.assessment assessmentId
  match repo.scopes.get? assessment.scopeSnapshotId with
  | none => .error (.validation "assessment scope not found")
  | some scope =>
    let decision ← (GrantService.authorize U repo grantId scope (plannedSteps repo assessment)
      now).mapError .python
    raiseUnless decision.allowed (.permission ("grant denied: " ++ decision.reason))

/-- `create`. -/
def create (token projectId scopeSnapshotId : String) (mode : ExecutionMode) :
    Except ServiceError Repositories := do
  let assessment ← Assessment.create ("asm-" ++ token) projectId scopeSnapshotId mode
  pure (repo.addAssessment assessment)

/-- `attach_plan`. -/
def attachPlan (token assessmentId : String) (steps : List PlanStep) :
    Except ServiceError Repositories := do
  let assessment ← repo.assessment assessmentId
  assertTransition assessment.status .awaitingApproval
  let plan ← ExecutionPlan.create ("plan-" ++ token) assessmentId 1 steps
    (H.plan assessmentId 1 steps)
  let repo ← repo.savePlan plan
  pure (repo.addAssessment
    { assessment with status := .awaitingApproval, activePlanId := some plan.id })

/-- The approver that is recorded, once the call is authorized. -/
def approver (call : ApproveCall) (now : Time) : Except ServiceError String :=
  match call.grantId with
  | some grantId => do
    service.authorizeViaGrant U repo grantId call.assessmentId now
    pure ("grant:" ++ grantId)
  | none => do
    requireHuman call.actorRole
    pure call.approvedBy

/-- The approval that is recorded for a plan. -/
def approvalOf (token : String) (call : ApproveCall) (approvedBy : String)
    (assessment : Assessment) (plan : ExecutionPlan) : Approval :=
  let approval : Approval :=
    { id := "apr-" ++ token
      assessmentId := call.assessmentId
      planDigest := plan.digest
      scopeDigest := call.scopeDigest
      mode := assessment.mode
      approvedRisks := call.approvedRisks
      approvedCapabilities := call.approvedCapabilities
      approvedBy := approvedBy
      digest := "" }
  { approval with digest := H.approval approval }

/-- `approve`, with the approval returned. -/
def approve (token : String) (call : ApproveCall) (now : Time) :
    Except ServiceError (Repositories × Approval) := do
  let approvedBy ← service.approver U repo call now
  let assessment ← repo.assessment call.assessmentId
  match assessment.activePlanId with
  | none => .error (.validation "assessment has no plan to approve")
  | some planId =>
    assertTransition assessment.status .approved
    match repo.plans.get? planId with
    | none => .error (.lookup "active plan not found")
    | some plan =>
      let approval ← Approval.create (approvalOf H token call approvedBy assessment plan)
      let repo ← repo.saveApproval approval
      pure (repo.addAssessment
        { assessment with status := .approved, approvalId := some approval.id }, approval)

/-- `reject`. -/
def reject (assessmentId : String) (reason : Str) (actorRole : String) :
    Except ServiceError Repositories := do
  requireHuman actorRole
  let assessment ← repo.assessment assessmentId
  assertTransition assessment.status .rejected
  raiseUnless (!(strip reason).isEmpty) (.validation "rejection reason must be non-empty")
  pure (repo.addAssessment { assessment with status := .rejected })

/-- The gate of `start`: a grant, or a human. -/
def authorizeStart (assessmentId actorRole : String) (grantId : Option String) (now : Time) :
    Except ServiceError Unit :=
  match grantId with
  | some grantId => service.authorizeViaGrant U repo grantId assessmentId now
  | none => requireHuman actorRole

/-- `start`. -/
def start (assessmentId actorRole : String) (grantId : Option String) (now : Time) :
    Except ServiceError Repositories := do
  service.authorizeStart U repo assessmentId actorRole grantId now
  let assessment ← repo.assessment assessmentId
  assertTransition assessment.status .queued
  let planId := assessment.activePlanId.getD ""
  let approvalId := assessment.approvalId.getD ""
  raiseUnless (planId != "") (.validation "assessment has no plan to execute")
  raiseUnless (approvalId != "") (.validation "assessment has no approval")
  let updated ← assessment.start planId approvalId
  pure (repo.addAssessment updated)

/-- The operations that only move an assessment to another status. -/
def moveTo (assessmentId : String) (target : AssessmentStatus) (control : Option ControlState) :
    Except ServiceError Repositories := do
  let assessment ← repo.assessment assessmentId
  assertTransition assessment.status target
  pure (repo.addAssessment
    { assessment with status := target, control := control.getD assessment.control })

/-- `mark_running`. -/
def markRunning (assessmentId : String) : Except ServiceError Repositories :=
  moveTo repo assessmentId .running none

/-- `complete`. -/
def complete (assessmentId : String) : Except ServiceError Repositories :=
  moveTo repo assessmentId .completed none

/-- `fail`; its reason is not kept. -/
def fail (assessmentId : String) : Except ServiceError Repositories :=
  moveTo repo assessmentId .failed none

/-- `pause`. -/
def pause (assessmentId : String) : Except ServiceError Repositories :=
  moveTo repo assessmentId .paused (some .pauseRequested)

/-- `resume`. -/
def resume (assessmentId : String) : Except ServiceError Repositories :=
  moveTo repo assessmentId .running (some .resumeRequested)

/-- `cancel`. -/
def cancel (assessmentId : String) : Except ServiceError Repositories :=
  moveTo repo assessmentId .cancelled (some .cancelRequested)

end AssessmentService

/-! ## Calls -/

/-- A call of one of the services that may write. -/
inductive ServiceCall
  | create (token projectId scopeSnapshotId : String) (mode : ExecutionMode)
  | attachPlan (token assessmentId : String) (steps : List PlanStep)
  | approve (token : String) (call : ApproveCall) (now : Time)
  | reject (assessmentId : String) (reason : Str) (actorRole : String)
  | start (assessmentId actorRole : String) (grantId : Option String) (now : Time)
  | markRunning (assessmentId : String)
  | complete (assessmentId : String)
  | fail (assessmentId : String)
  | pause (assessmentId : String)
  | resume (assessmentId : String)
  | cancel (assessmentId : String)
  | createGrant (token projectId : String) (name : Str) (scope : ScopeSnapshot)
      (riskCaps : Finset RiskClass) (validFrom validTo : Time) (actorRole : String)
      (createdAt : Time) (digest : String)
  | revokeGrant (grantId actorRole : String)

/-- The effect of a call on the repositories. -/
def serve (service : AssessmentService) (repo : Repositories) :
    ServiceCall → Except ServiceError Repositories
  | .create token projectId scopeSnapshotId mode =>
    AssessmentService.create repo token projectId scopeSnapshotId mode
  | .attachPlan token assessmentId steps => AssessmentService.attachPlan H repo token assessmentId steps
  | .approve token call now => (service.approve U H repo token call now).map Prod.fst
  | .reject assessmentId reason actorRole =>
    AssessmentService.reject repo assessmentId reason actorRole
  | .start assessmentId actorRole grantId now => service.start U repo assessmentId actorRole grantId now
  | .markRunning assessmentId => AssessmentService.markRunning repo assessmentId
  | .complete assessmentId => AssessmentService.complete repo assessmentId
  | .fail assessmentId => AssessmentService.fail repo assessmentId
  | .pause assessmentId => AssessmentService.pause repo assessmentId
  | .resume assessmentId => AssessmentService.resume repo assessmentId
  | .cancel assessmentId => AssessmentService.cancel repo assessmentId
  | .createGrant token projectId name scope riskCaps validFrom validTo actorRole createdAt digest =>
    GrantService.createHuman repo actorRole (EngagementGrant.create ("grant-" ++ token) projectId
      name scope riskCaps validFrom validTo actorRole createdAt digest)
  | .revokeGrant grantId actorRole => GrantService.revoke repo grantId actorRole

/-- A generated id that would replace a row is new, as random tokens are. -/
def ServiceCall.TokenFresh (repo : Repositories) : ServiceCall → Prop
  | .create token _ _ _ => repo.assessments.get? ("asm-" ++ token) = none
  | .createGrant token _ _ _ _ _ _ _ _ _ => repo.grants.get? ("grant-" ++ token) = none
  | _ => True

instance (repo : Repositories) : (call : ServiceCall) → Decidable (call.TokenFresh repo)
  | .create token _ _ _ => inferInstanceAs (Decidable (repo.assessments.get? ("asm-" ++ token) = none))
  | .createGrant token _ _ _ _ _ _ _ _ _ =>
    inferInstanceAs (Decidable (repo.grants.get? ("grant-" ++ token) = none))
  | .attachPlan .. | .approve .. | .reject .. | .start .. | .markRunning _ | .complete _ | .fail _
  | .pause _ | .resume _ | .cancel _ | .revokeGrant .. => .isTrue trivial

/-! ## What a call that returned found and wrote -/

section Specs

variable {U H} {service : AssessmentService} {repo repo' : Repositories} {assessmentId : String}

theorem assessment_ok_iff {assessment : Assessment} :
    repo.assessment assessmentId = .ok assessment ↔
      repo.assessments.get? assessmentId = some assessment := by
  unfold Repositories.assessment
  cases repo.assessments.get? assessmentId with
  | none => simp
  | some found => simp

theorem savePlan_ok_iff {plan : ExecutionPlan} :
    repo.savePlan plan = .ok repo' ↔ repo.plans.get? plan.id = none ∧
      repo' = { repo with plans := repo.plans.put plan } := by
  unfold Repositories.savePlan
  cases hi : repo.plans.insert plan with
  | none => simp [Table.insert_eq_none_iff.mp hi]
  | some plans =>
    obtain ⟨hnone, rfl⟩ := Table.insert_eq_some_iff.mp hi
    simp [hnone, eq_comm]

theorem saveApproval_ok_iff {approval : Approval} :
    repo.saveApproval approval = .ok repo' ↔ repo.approvals.get? approval.id = none ∧
      repo' = { repo with approvals := repo.approvals.put approval } := by
  unfold Repositories.saveApproval
  cases hi : repo.approvals.insert approval with
  | none => simp [Table.insert_eq_none_iff.mp hi]
  | some approvals =>
    obtain ⟨hnone, rfl⟩ := Table.insert_eq_some_iff.mp hi
    simp [hnone, eq_comm]

theorem moveTo_ok_iff {target : AssessmentStatus} {control : Option ControlState} :
    AssessmentService.moveTo repo assessmentId target control = .ok repo' ↔
      ∃ assessment, repo.assessments.get? assessmentId = some assessment ∧
        target ∈ allowedTransitions assessment.status ∧
        repo' = repo.addAssessment
          { assessment with status := target, control := control.getD assessment.control } := by
  simp only [AssessmentService.moveTo, bind_eq_ok_iff, assessment_ok_iff, assertTransition_ok_iff]
  constructor
  · rintro ⟨assessment, hget, u, htarget, hok⟩
    cases hok
    exact ⟨assessment, hget, htarget, rfl⟩
  · rintro ⟨assessment, hget, htarget, rfl⟩
    exact ⟨assessment, hget, (), htarget, rfl⟩

/-- What the grant gate checked before it let a call through. -/
theorem authorize_allowed {grantId : String} {scope : ScopeSnapshot} {steps : List PlanStep}
    {now : Time} {decision : GrantDecision}
    (h : GrantService.authorize U repo grantId scope steps now = .ok decision)
    (hallowed : decision.allowed = true) :
    ∃ grant, repo.grants.get? grantId = some grant ∧ grant.isActiveAt now = true ∧
      grant.coversScope U scope = .ok true ∧ grant.coversRisks steps = true := by
  unfold GrantService.authorize at h
  cases hgrant : repo.grants.get? grantId with
  | none =>
    rw [hgrant] at h
    cases h
    cases hallowed
  | some grant =>
    simp only [hgrant] at h
    split at h
    -- The three denials: not active, scope not covered, risks not covered.
    · cases h
      cases hallowed
    next hactive =>
    obtain ⟨covers, hcovers, h⟩ := bind_eq_ok_iff.mp h
    split at h
    · cases h
      cases hallowed
    next hscope =>
    split at h
    · cases h
      cases hallowed
    next hrisks =>
    refine ⟨grant, rfl, by simpa using hactive, ?_, by simpa using hrisks⟩
    rw [hcovers]
    simpa using hscope

theorem authorizeViaGrant_ok {grantId : String} {now : Time} {u : Unit}
    (h : service.authorizeViaGrant U repo grantId assessmentId now = .ok u) :
    ∃ assessment scope grant, repo.assessments.get? assessmentId = some assessment ∧
      repo.scopes.get? assessment.scopeSnapshotId = some scope ∧
      repo.grants.get? grantId = some grant ∧ grant.isActiveAt now = true ∧
      grant.coversScope U scope = .ok true ∧
      grant.coversRisks (AssessmentService.plannedSteps repo assessment) = true := by
  unfold AssessmentService.authorizeViaGrant at h
  obtain ⟨-, -, h⟩ := bind_eq_ok_iff.mp h
  obtain ⟨-, -, h⟩ := bind_eq_ok_iff.mp h
  obtain ⟨assessment, hassessment, h⟩ := bind_eq_ok_iff.mp h
  rw [assessment_ok_iff] at hassessment
  cases hscope : repo.scopes.get? assessment.scopeSnapshotId with
  | none => simp [hscope] at h
  | some scope =>
    simp only [hscope] at h
    obtain ⟨decision, hdecision, h⟩ := bind_eq_ok_iff.mp h
    have hallowed : decision.allowed = true := raiseUnless_ok_iff.mp h
    cases hauth : GrantService.authorize U repo grantId scope
        (AssessmentService.plannedSteps repo assessment) now with
    | error e =>
      rw [hauth] at hdecision
      cases hdecision
    | ok found =>
      rw [hauth] at hdecision
      cases hdecision
      obtain ⟨grant, hgrant, hactive, hcovers, hrisks⟩ := authorize_allowed hauth hallowed
      exact ⟨assessment, scope, grant, hassessment, hscope, hgrant, hactive, hcovers, hrisks⟩

/-- What `approve` found and wrote. -/
theorem approve_ok {token : String} {call : ApproveCall} {now : Time} {approval : Approval}
    (h : service.approve U H repo token call now = .ok (repo', approval)) :
    ∃ approvedBy assessment plan, service.approver U repo call now = .ok approvedBy ∧
      repo.assessments.get? call.assessmentId = some assessment ∧
      assessment.activePlanId = some plan.id ∧ assessment.status = .awaitingApproval ∧
      repo.plans.get? plan.id = some plan ∧
      approval = AssessmentService.approvalOf H token call approvedBy assessment plan ∧
      repo.approvals.get? approval.id = none ∧
      repo' = { repo with
        approvals := repo.approvals.put approval
        assessments := repo.assessments.put
          { assessment with status := .approved, approvalId := some approval.id } } := by
  unfold AssessmentService.approve at h
  obtain ⟨approvedBy, hby, h⟩ := bind_eq_ok_iff.mp h
  obtain ⟨assessment, hassessment, h⟩ := bind_eq_ok_iff.mp h
  rw [assessment_ok_iff] at hassessment
  cases hplanId : assessment.activePlanId with
  | none => simp [hplanId] at h
  | some planId =>
    simp only [hplanId] at h
    obtain ⟨_, hstatus, h⟩ := bind_eq_ok_iff.mp h
    rw [assertTransition_ok_iff] at hstatus
    cases hplan : repo.plans.get? planId with
    | none => simp [hplan] at h
    | some plan =>
      simp only [hplan] at h
      obtain ⟨created, hcreated, h⟩ := bind_eq_ok_iff.mp h
      obtain ⟨saved, hsaved, h⟩ := bind_eq_ok_iff.mp h
      obtain ⟨hnew, rfl⟩ := saveApproval_ok_iff.mp hsaved
      have heq := Approval.create_ok hcreated
      cases h
      have hid : plan.id = planId := Table.key_of_get? hplan
      refine ⟨approvedBy, assessment, plan, hby, hassessment, by rw [hid]; exact hplanId, ?_,
        by rw [hid]; exact hplan, heq, hnew, by rw [hplanId]; rfl⟩
      cases hs : assessment.status <;> simp_all [allowedTransitions]

/-- What `attach_plan` found and wrote. -/
theorem attachPlan_ok {token : String} {steps : List PlanStep}
    (h : AssessmentService.attachPlan H repo token assessmentId steps = .ok repo') :
    ∃ assessment plan, repo.assessments.get? assessmentId = some assessment ∧
      .awaitingApproval ∈ allowedTransitions assessment.status ∧
      plan = ⟨"plan-" ++ token, assessmentId, 1, steps, H.plan assessmentId 1 steps⟩ ∧
      repo.plans.get? plan.id = none ∧
      repo' = { repo with
        plans := repo.plans.put plan
        assessments := repo.assessments.put
          { assessment with status := .awaitingApproval, activePlanId := some plan.id } } := by
  unfold AssessmentService.attachPlan at h
  obtain ⟨assessment, hassessment, h⟩ := bind_eq_ok_iff.mp h
  obtain ⟨_, hstatus, h⟩ := bind_eq_ok_iff.mp h
  obtain ⟨plan, hplan, h⟩ := bind_eq_ok_iff.mp h
  obtain ⟨saved, hsaved, h⟩ := bind_eq_ok_iff.mp h
  obtain ⟨hnew, rfl⟩ := savePlan_ok_iff.mp hsaved
  cases h
  exact ⟨assessment, plan, assessment_ok_iff.mp hassessment, assertTransition_ok_iff.mp hstatus,
    (ExecutionPlan.create_ok hplan).1, hnew, rfl⟩

/-- `reject` and `start` move an assessment as well, after checks of their own. -/
theorem reject_ok {reason : Str} {actorRole : String}
    (h : AssessmentService.reject repo assessmentId reason actorRole = .ok repo') :
    AssessmentService.moveTo repo assessmentId .rejected none = .ok repo' := by
  unfold AssessmentService.reject at h
  obtain ⟨-, -, h⟩ := bind_eq_ok_iff.mp h
  obtain ⟨assessment, hassessment, h⟩ := bind_eq_ok_iff.mp h
  obtain ⟨_, hstatus, h⟩ := bind_eq_ok_iff.mp h
  obtain ⟨-, -, h⟩ := bind_eq_ok_iff.mp h
  cases h
  exact moveTo_ok_iff.mpr ⟨assessment, assessment_ok_iff.mp hassessment,
    assertTransition_ok_iff.mp hstatus, rfl⟩

theorem start_ok {actorRole : String} {grantId : Option String} {now : Time}
    (h : service.start U repo assessmentId actorRole grantId now = .ok repo') :
    AssessmentService.moveTo repo assessmentId .queued none = .ok repo' := by
  unfold AssessmentService.start at h
  obtain ⟨-, -, h⟩ := bind_eq_ok_iff.mp h
  obtain ⟨assessment, hassessment, h⟩ := bind_eq_ok_iff.mp h
  obtain ⟨_, hstatus, h⟩ := bind_eq_ok_iff.mp h
  obtain ⟨_, hplan, h⟩ := bind_eq_ok_iff.mp h
  obtain ⟨_, happroval, h⟩ := bind_eq_ok_iff.mp h
  obtain ⟨updated, hupdated, h⟩ := bind_eq_ok_iff.mp h
  cases h
  refine moveTo_ok_iff.mpr ⟨assessment, assessment_ok_iff.mp hassessment,
    assertTransition_ok_iff.mp hstatus, ?_⟩
  rw [raiseUnless_ok_iff] at hplan happroval
  -- `start` writes the plan and the approval that the row has already.
  have hsame : updated = { assessment with status := .queued } := by
    rw [Assessment.start_ok hupdated]
    cases hp : assessment.activePlanId with
    | none => simp [hp] at hplan
    | some planId =>
      cases ha : assessment.approvalId with
      | none => simp [ha] at happroval
      | some approvalId => rfl
  rw [hsame]
  rfl

/-- The row of an assessment that is written by a call, or by a thread: new, with a new plan, with an
approval of its plan, or moved to another status. -/
inductive WrittenRow (call : Option ServiceCall) (repo repo' : Repositories) : Assessment → Prop
  | created (row : Assessment) : row.status = .draft → row.activePlanId = none →
      repo.assessments.get? row.id = none → WrittenRow call repo repo' row
  | planned (row : Assessment) (plan : ExecutionPlan) :
      repo.assessments.get? row.id = some row → .awaitingApproval ∈ allowedTransitions row.status →
      plan.id ≠ "" → plan.assessmentId = row.id → repo'.plans.get? plan.id = some plan →
      WrittenRow call repo repo' { row with status := .awaitingApproval, activePlanId := some plan.id }
  | approved (row : Assessment) (plan : ExecutionPlan) (approval : Approval) (token : String)
      (args : ApproveCall) (now : Time) : call = some (.approve token args now) →
      args.assessmentId = row.id → approval.approvedRisks = args.approvedRisks →
      approval.scopeDigest = args.scopeDigest →
      repo.assessments.get? row.id = some row → row.status = .awaitingApproval →
      row.activePlanId = some plan.id → repo.plans.get? plan.id = some plan →
      repo'.approvals.get? approval.id = some approval → approval.assessmentId = row.id →
      approval.planDigest = plan.digest →
      WrittenRow call repo repo' { row with status := .approved, approvalId := some approval.id }
  | moved (row : Assessment) (target : AssessmentStatus) (control : ControlState) :
      repo.assessments.get? row.id = some row → target ∈ allowedTransitions row.status →
      target ≠ .awaitingApproval → target ≠ .approved →
      (target = .paused → control = .pauseRequested) →
      WrittenRow call repo repo' { row with status := target, control }

/-- **All that a call can do**: plans, approvals and scopes are only added, and at most one row of
an assessment is written. -/
structure ServeEffect (call : Option ServiceCall) (repo repo' : Repositories) : Prop where
  plans : repo.plans.Extends repo'.plans
  approvals : repo.approvals.Extends repo'.approvals
  scopes : repo.scopes.Extends repo'.scopes
  assessments : repo'.assessments = repo.assessments ∨
    ∃ row, WrittenRow call repo repo' row ∧ repo'.assessments = repo.assessments.put row

theorem moveTo_effect {target : AssessmentStatus} {control : Option ControlState}
    (h : AssessmentService.moveTo repo assessmentId target control = .ok repo')
    (hplan : target ≠ .awaitingApproval) (happroval : target ≠ .approved)
    (hpause : target = .paused → control = some .pauseRequested) (call : Option ServiceCall) :
    ServeEffect call repo repo' := by
  obtain ⟨row, hrow, htarget, rfl⟩ := moveTo_ok_iff.mp h
  refine ⟨.refl _, .refl _, .refl _,
    .inr ⟨_, .moved row target _ ?_ htarget hplan happroval ?_, rfl⟩⟩
  · rw [Table.key_of_get? hrow]
    exact hrow
  · intro hpaused
    rw [hpause hpaused]
    rfl

theorem addGrant_effect (grant : EngagementGrant) (call : Option ServiceCall) :
    ServeEffect call repo (repo.addGrant grant) := by
  unfold Repositories.addGrant
  split
  next hscope => exact ⟨.refl _, .refl _, Table.extends_put hscope, .inl rfl⟩
  next => exact ⟨.refl _, .refl _, .refl _, .inl rfl⟩

theorem plan_id_ne_empty (token : String) : "plan-" ++ token ≠ "" := by
  intro h
  have hlen := congrArg String.length h
  simp at hlen

theorem serve_effect {call : ServiceCall} (h : serve U H service repo call = .ok repo')
    (hfresh : call.TokenFresh repo) : ServeEffect (some call) repo repo' := by
  cases call with
  | create token projectId scopeSnapshotId mode =>
    obtain ⟨row, hrow, h⟩ := bind_eq_ok_iff.mp h
    cases h
    obtain rfl := Assessment.create_ok hrow
    refine ⟨.refl _, .refl _, .refl _, .inr ⟨_, .created _ ?_ ?_ ?_, rfl⟩⟩
    · rfl
    · rfl
    · exact hfresh
  | attachPlan token assessmentId steps =>
    obtain ⟨row, plan, hrow, hstatus, hplan, hnew, rfl⟩ := attachPlan_ok h
    have hid := Table.key_of_get? hrow
    refine ⟨Table.extends_put hnew, .refl _, .refl _, .inr ⟨_, .planned row plan
      ?_ hstatus ?_ ?_ ?_, rfl⟩⟩
    · rw [hid]
      exact hrow
    · rw [hplan]
      exact plan_id_ne_empty token
    · rw [hplan, hid]
    · simp
  | approve token call now =>
    cases happrove : service.approve U H repo token call now with
    | error e => simp [serve, happrove, Except.map] at h
    | ok result =>
      obtain ⟨repo₁, approval⟩ := result
      simp only [serve, happrove, Except.map] at h
      cases h
      -- The approval is new under its id, and pins the plan that the row names.
      obtain ⟨by', row, plan, -, hrow, hactive, hstatus, hplan, happroval, hnew, rfl⟩ :=
        approve_ok happrove
      have hid := Table.key_of_get? hrow
      refine ⟨.refl _, Table.extends_put hnew, .refl _, .inr ⟨_, .approved row plan
        approval token call now rfl hid.symm ?_ ?_ ?_ hstatus hactive hplan ?_ ?_ ?_, rfl⟩⟩
      · rw [happroval]
        rfl
      · rw [happroval]
        rfl
      · rw [hid]
        exact hrow
      · simp
      · rw [happroval, hid]
        rfl
      · rw [happroval]
        rfl
  | reject assessmentId reason actorRole =>
    exact moveTo_effect (reject_ok h) (by decide) (by decide) (by decide) _
  | start assessmentId actorRole grantId now =>
    exact moveTo_effect (start_ok h) (by decide) (by decide) (by decide) _
  | markRunning assessmentId | complete assessmentId | fail assessmentId | pause assessmentId
  | resume assessmentId | cancel assessmentId =>
    exact moveTo_effect h (by decide) (by decide) (by decide) _
  | createGrant token projectId name scope riskCaps validFrom validTo actorRole createdAt digest =>
    obtain ⟨-, -, h⟩ := bind_eq_ok_iff.mp h
    obtain ⟨grant, -, h⟩ := bind_eq_ok_iff.mp h
    cases h
    exact addGrant_effect grant _
  | revokeGrant grantId actorRole =>
    obtain ⟨-, -, h⟩ := bind_eq_ok_iff.mp h
    cases hgrant : repo.grants.get? grantId with
    | none => simp [hgrant] at h
    | some grant =>
      simp only [hgrant] at h
      cases h
      exact addGrant_effect grant.revoke _

end Specs

/-! ## A project for examples -/

/-- A scope of one address or network. -/
def singleScope (id projectId digest : String) (rule : Str) : ScopeSnapshot where
  id := id
  projectId := projectId
  includeRules := [rule]
  excludeRules := []
  ports := [443]
  limits := .default
  approvedBy := "operator"
  approvedAt := 0
  digest := digest

/-- The scopes of one project. -/
def projectScopes : Table ScopeSnapshot ScopeSnapshot.id :=
  Table.empty.put (singleScope "scope-a" "project-a" "digest-a" "10.0.0.5".toList)

/-- Fixed digests. -/
def sampleDigest : CanonicalDigest := ⟨fun _ _ _ => "plan-digest", fun _ => "approval-digest"⟩

end SecOpent
