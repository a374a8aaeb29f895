import Mathlib.Logic.Relation
import SecOpent.Assessments.Lifecycle
import SecOpent.Grants.Coverage
import SecOpent.Mcp.Atomicity
import SecOpent.Transition.Histories

/-!
# What an agent may do

An agent has the tools of `interfaces/mcp/handlers.py` and nothing else. What a tool call does to the
tables of assessments and grants, also if it raises in the middle and its writes are committed, is a
sequence of service calls, of which those that approve and start pass the gate of a grant. So an
assessment that is approved or started, in a run in which tool calls of agents are interleaved with the
service calls of humans and of the executor, was so before, or a service call did it, or a grant did
that was active at the time of a tool call.

## Main definitions

* `Milestone`: the approval of an assessment, and its start
* `ServedRow`: a row that a service call has written, with what the call has checked
* `GrantCovers`, `ApprovedUnder`: an assessment under a grant
* `Carried`: where the assessments behind a milestone come from
* `AgentStep`: a service call that a tool makes
* `McpStep`: a tool call of an agent, or a service call of someone else

## Main results

* `served_row`: the rows after a service call
* `run_agentSteps`: a tool call is a sequence of service calls that agents may make
* `agent_authority`: approved and started assessments are under a grant, unless others have approved or
  started them
-/

namespace SecOpent

open Python Transition

/-! ## Rows -/

/-- The statuses from the start on. -/
def AssessmentStatus.isLaunched : AssessmentStatus → Bool
  | .queued | .running | .paused | .completed | .partially | .failed | .cancelled => true
  | _ => false

/-- The assessment has the scope, the plan and the approval that it had. -/
structure Assessment.SameTerms (row row' : Assessment) : Prop where
  id : row'.id = row.id
  scope : row'.scopeSnapshotId = row.scopeSnapshotId
  plan : row'.activePlanId = row.activePlanId
  approval : row'.approvalId = row.approvalId

/-- Nothing is taken from the tables of plans, approvals and scopes. -/
structure Repositories.ExtendedBy (repo repo' : Repositories) : Prop where
  plans : repo.plans.Extends repo'.plans
  approvals : repo.approvals.Extends repo'.approvals
  scopes : repo.scopes.Extends repo'.scopes

/-- The call has approved the assessment, through the gate. -/
inductive RowApproved (U : Unicode) (service : AssessmentService) (call : ServiceCall)
    (repo repo' : Repositories) (row' : Assessment) : Prop
  | intro (row : Assessment) (plan : ExecutionPlan) (approval : Approval) (token : String)
      (args : ApproveCall) (now : Time) (hcall : call = .approve token args now)
      (hid : args.assessmentId = row'.id) (hrow : repo.assessments.get? row'.id = some row)
      (hscope : row'.scopeSnapshotId = row.scopeSnapshotId) (hplan : row'.activePlanId = row.activePlanId)
      (hactive : row.activePlanId = some plan.id) (hstored : repo.plans.get? plan.id = some plan)
      (hgate : service.approver U repo args now = .ok approval.approvedBy)
      (happrovalId : row'.approvalId = some approval.id)
      (happroval : repo'.approvals.get? approval.id = some approval)
      (hassessment : approval.assessmentId = row'.id)

/-- The call has started the assessment, through the gate. -/
inductive RowStarted (U : Unicode) (service : AssessmentService) (call : ServiceCall)
    (repo : Repositories) (row' : Assessment) : Prop
  | intro (row : Assessment) (actorRole : String) (grantId : Option String) (now : Time)
      (hcall : call = .start row'.id actorRole grantId now)
      (hrow : repo.assessments.get? row'.id = some row) (hsame : row.SameTerms row')
      (hgate : service.authorizeStart U repo row'.id actorRole grantId now = .ok ())

/-- A row of an assessment that a call has written: before its approval, moved on, started or
approved. -/
inductive ServedRow (U : Unicode) (service : AssessmentService) (call : ServiceCall)
    (repo repo' : Repositories) (row' : Assessment) : Prop
  | early (hstatus : row'.status.isApproved = false)
  | moved (row : Assessment) (hrow : repo.assessments.get? row'.id = some row)
      (hsame : row.SameTerms row') (hallowed : row'.status ∈ allowedTransitions row.status)
      (hgated : row'.status ≠ .approved ∧ row'.status ≠ .queued)
  | started (row : Assessment) (hrow : repo.assessments.get? row'.id = some row)
      (hsame : row.SameTerms row') (happroved : row.status = .approved)
      (h : RowStarted U service call repo row')
  | approved (hstatus : row'.status = .approved) (h : RowApproved U service call repo repo' row')

section Services

variable {U : Unicode} {H : CanonicalDigest} {service : AssessmentService} {repo repo' : Repositories}
  {call : ServiceCall} {id : String} {row row' : Assessment}

theorem Repositories.ExtendedBy.refl (repo : Repositories) : repo.ExtendedBy repo :=
  ⟨.refl _, .refl _, .refl _⟩

theorem Repositories.ExtendedBy.trans {repo'' : Repositories} (h : repo.ExtendedBy repo')
    (h' : repo'.ExtendedBy repo'') : repo.ExtendedBy repo'' where
  plans id row hrow := h'.plans id row (h.plans id row hrow)
  approvals id row hrow := h'.approvals id row (h.approvals id row hrow)
  scopes id row hrow := h'.scopes id row (h.scopes id row hrow)

theorem ServeEffect.extendedBy {call : Option ServiceCall} (h : ServeEffect call repo repo') :
    repo.ExtendedBy repo' :=
  ⟨h.plans, h.approvals, h.scopes⟩

/-- **Service calls only add** plans, approvals and scopes. -/
theorem extendedBy_serve (h : serve U H service repo call = .ok repo') : repo.ExtendedBy repo' := by
  cases call with
  | create token projectId scopeSnapshotId mode =>
    obtain ⟨row, -, h⟩ := bind_eq_ok_iff.mp h
    cases h
    exact ⟨.refl _, .refl _, .refl _⟩
  | createGrant token projectId name scope riskCaps validFrom validTo actorRole createdAt digest =>
    obtain ⟨-, -, h⟩ := bind_eq_ok_iff.mp h
    obtain ⟨grant, -, h⟩ := bind_eq_ok_iff.mp h
    cases h
    exact (addGrant_effect grant none).extendedBy
  | attachPlan | approve | reject | start | markRunning | complete | fail | pause | resume | cancel
  | revokeGrant => exact (serve_effect h trivial).extendedBy

theorem assessments_addGrant (grant : EngagementGrant) :
    (repo.addGrant grant).assessments = repo.assessments := by
  rw [Repositories.addGrant]
  split <;> rfl

/-- A row after one row was written. -/
theorem put_cases (h : (repo.assessments.put row).get? id = some row') :
    repo.assessments.get? id = some row' ∨ row' = row ∧ row.id = id := by
  rw [Table.get?_put] at h
  split at h
  next hid => exact Or.inr ⟨(Option.some.inj h).symm, hid.symm⟩
  next => exact Or.inl h

theorem moveTo_cases {assessmentId : String} {target : AssessmentStatus} {control : Option ControlState}
    (h : AssessmentService.moveTo repo assessmentId target control = .ok repo')
    (hrow : repo'.assessments.get? id = some row') :
    repo.assessments.get? id = some row' ∨
      ∃ row, id = assessmentId ∧ repo.assessments.get? row'.id = some row ∧ row.SameTerms row' ∧
        row'.status = target ∧ target ∈ allowedTransitions row.status := by
  obtain ⟨row, hold, htarget, rfl⟩ := moveTo_ok_iff.mp h
  have hkey := Table.key_of_get? hold
  rcases put_cases hrow with hrow | ⟨rfl, hid⟩
  · exact Or.inl hrow
  · refine Or.inr ⟨row, hid.symm.trans hkey, ?_, ⟨rfl, rfl, rfl, rfl⟩, rfl, htarget⟩
    exact (congrArg repo.assessments.get? hkey).trans hold

theorem served_of_moveTo {assessmentId : String} {target : AssessmentStatus} {control : Option ControlState}
    (h : AssessmentService.moveTo repo assessmentId target control = .ok repo')
    (hgated : target ≠ .approved ∧ target ≠ .queued) (hrow : repo'.assessments.get? id = some row') :
    repo.assessments.get? id = some row' ∨ ServedRow U service call repo repo' row' := by
  rcases moveTo_cases h hrow with hrow | ⟨row, -, hold, hsame, hstatus, htarget⟩
  · exact Or.inl hrow
  · rw [← hstatus] at htarget hgated
    exact Or.inr (.moved row hold hsame htarget hgated)

/-- **The rows after a service call**: they were there, or the call wrote them. -/
theorem served_row (h : serve U H service repo call = .ok repo')
    (hrow : repo'.assessments.get? id = some row') :
    repo.assessments.get? id = some row' ∨ ServedRow U service call repo repo' row' := by
  have hkey := Table.key_of_get? hrow
  cases call with
  | create token projectId scopeSnapshotId mode =>
    obtain ⟨row, hcreate, h⟩ := bind_eq_ok_iff.mp h
    cases h
    obtain rfl := Assessment.create_ok hcreate
    rcases put_cases hrow with hrow | ⟨rfl, -⟩
    · exact Or.inl hrow
    · exact Or.inr (.early rfl)
  | attachPlan token assessmentId steps =>
    obtain ⟨row, plan, -, -, -, -, rfl⟩ := attachPlan_ok h
    rcases put_cases hrow with hrow | ⟨rfl, -⟩
    · exact Or.inl hrow
    · exact Or.inr (.early rfl)
  | approve token args now =>
    cases happrove : service.approve U H repo token args now with
    | error error => simp [serve, happrove, Except.map] at h
    | ok result =>
      obtain ⟨saved, approval⟩ := result
      simp only [serve, happrove, Except.map] at h
      cases h
      obtain ⟨approvedBy, row, plan, hgate, hold, hactive, -, hplan, happroval, -, hsaved⟩ :=
        approve_ok happrove
      rw [hsaved] at hrow
      rcases put_cases hrow with hrow | ⟨rfl, -⟩
      · exact Or.inl hrow
      · have hid : args.assessmentId = row.id := (Table.key_of_get? hold).symm
        refine Or.inr (.approved rfl (.intro row plan approval token args now rfl hid (hid ▸ hold) rfl rfl
          hactive hplan ?_ rfl ?_ ?_))
        · rw [happroval]
          exact hgate
        · rw [hsaved]
          exact (Table.get?_put _ _ _).trans (if_pos rfl)
        · rw [happroval]
          exact hid
  | reject assessmentId reason actorRole => exact served_of_moveTo (reject_ok h) (by decide) hrow
  | start assessmentId actorRole grantId now =>
    rcases moveTo_cases (start_ok h) hrow with hrow | ⟨row, hid, hold, hsame, -, htarget⟩
    · exact Or.inl hrow
    · obtain ⟨_, hgate, -⟩ := bind_eq_ok_iff.mp h
      obtain rfl : row'.id = assessmentId := hkey.trans hid
      have happroved : row.status = .approved := by
        revert htarget
        cases row.status <;> decide
      exact Or.inr (.started row hold hsame happroved
        (.intro row actorRole grantId now rfl hold hsame hgate))
  | markRunning assessmentId | complete assessmentId | fail assessmentId | pause assessmentId
  | resume assessmentId | cancel assessmentId => exact served_of_moveTo h (by decide) hrow
  | createGrant token projectId name scope riskCaps validFrom validTo actorRole createdAt digest =>
    obtain ⟨-, -, h⟩ := bind_eq_ok_iff.mp h
    obtain ⟨grant, -, h⟩ := bind_eq_ok_iff.mp h
    cases h
    rw [assessments_addGrant] at hrow
    exact Or.inl hrow
  | revokeGrant grantId actorRole =>
    obtain ⟨-, -, h⟩ := bind_eq_ok_iff.mp h
    cases hgrant : repo.grants.get? grantId with
    | none => simp [hgrant] at h
    | some grant =>
      simp only [hgrant] at h
      cases h
      rw [assessments_addGrant] at hrow
      exact Or.inl hrow

end Services

/-! ## Under a grant -/

/-- The grant is active, and it covers the scope of the assessment. -/
structure GrantCovers (U : Unicode) (grants : Table EngagementGrant EngagementGrant.id)
    (repo : Repositories) (row : Assessment) (now : Time) (grant : EngagementGrant) : Prop where
  stored : grants.get? grant.id = some grant
  active : grant.isActiveAt now = true
  scope : ∃ scope, repo.scopes.get? row.scopeSnapshotId = some scope ∧ grant.coversScope U scope = .ok true

/-- The assessment has an approval in the name of the grant, which covers all steps of its plan. -/
structure ApprovedUnder (U : Unicode) (grants : Table EngagementGrant EngagementGrant.id)
    (repo : Repositories) (row : Assessment) (now : Time) (grant : EngagementGrant) : Prop
    extends GrantCovers U grants repo row now grant where
  risks : grant.coversRisks (AssessmentService.plannedSteps repo row) = true
  plan : ∃ plan, row.activePlanId = some plan.id ∧ repo.plans.get? plan.id = some plan
  approval : ∃ approval, row.approvalId = some approval.id ∧
    repo.approvals.get? approval.id = some approval ∧ approval.assessmentId = row.id ∧
    approval.approvedBy = "grant:" ++ grant.id

/-- What takes an authority: the approval of an assessment, and its start. -/
inductive Milestone
  | approval
  | start

namespace Milestone

/-- The statuses of the assessments behind a milestone. -/
def reached : Milestone → AssessmentStatus → Bool
  | .approval => AssessmentStatus.isApproved
  | .start => AssessmentStatus.isLaunched

/-- The call takes the assessment past the milestone. -/
def AskedBy (assessmentId : String) : Milestone → ServiceCall → Prop
  | .approval, .approve _ args _ => args.assessmentId = assessmentId
  | .start, .start id _ _ _ => id = assessmentId
  | _, _ => False

/-- The call has taken the assessment past the milestone, through the gate. -/
def PassedBy (U : Unicode) (service : AssessmentService) (call : ServiceCall)
    (repo repo' : Repositories) (row' : Assessment) : Milestone → Prop
  | .approval => RowApproved U service call repo repo' row'
  | .start => RowStarted U service call repo row'

/-- The grant is good for the milestone. -/
def Under (U : Unicode) (grants : Table EngagementGrant EngagementGrant.id) (repo : Repositories)
    (row : Assessment) (now : Time) (grant : EngagementGrant) : Milestone → Prop
  | .approval => ApprovedUnder U grants repo row now grant
  | .start => GrantCovers U grants repo row now grant

end Milestone

/-- Where the assessments behind a milestone come from: they were behind it, or `G` holds of them. -/
def Carried (m : Milestone) (G : Repositories → Assessment → Prop) (repo repo' : Repositories) : Prop :=
  ∀ id row', repo'.assessments.get? id = some row' → m.reached row'.status = true →
    (∃ row, repo.assessments.get? id = some row ∧ m.reached row.status = true ∧ row.SameTerms row') ∨
      G repo' row'

section Grants

variable {U : Unicode} {grants : Table EngagementGrant EngagementGrant.id} {repo repo' repo'' : Repositories}
  {row row' : Assessment} {now : Time} {grant : EngagementGrant} {m : Milestone}
  {G G' G'' : Repositories → Assessment → Prop}

theorem Assessment.SameTerms.refl (row : Assessment) : row.SameTerms row := ⟨rfl, rfl, rfl, rfl⟩

theorem Assessment.SameTerms.trans {row'' : Assessment} (h : row.SameTerms row') (h' : row'.SameTerms row'') :
    row.SameTerms row'' :=
  ⟨h'.id.trans h.id, h'.scope.trans h.scope, h'.plan.trans h.plan, h'.approval.trans h.approval⟩

theorem GrantCovers.keep (h : GrantCovers U grants repo row now grant) (hext : repo.ExtendedBy repo')
    (hsame : row.SameTerms row') : GrantCovers U grants repo' row' now grant := by
  obtain ⟨scope, hscope, hcovers⟩ := h.scope
  refine ⟨h.stored, h.active, scope, ?_, hcovers⟩
  rw [hsame.scope]
  exact hext.scopes _ _ hscope

/-- The steps of a plan that is stored stay what they are. -/
theorem plannedSteps_keep {plan : ExecutionPlan} (hactive : row.activePlanId = some plan.id)
    (hstored : repo.plans.get? plan.id = some plan) (hext : repo.ExtendedBy repo')
    (hplan : row'.activePlanId = row.activePlanId) :
    AssessmentService.plannedSteps repo' row' = AssessmentService.plannedSteps repo row := by
  rw [AssessmentService.plannedSteps, AssessmentService.plannedSteps, hplan, hactive]
  simp only [hstored, hext.plans _ _ hstored]

theorem ApprovedUnder.keep (h : ApprovedUnder U grants repo row now grant) (hext : repo.ExtendedBy repo')
    (hsame : row.SameTerms row') : ApprovedUnder U grants repo' row' now grant := by
  obtain ⟨plan, hactive, hstored⟩ := h.plan
  obtain ⟨approval, happrovalId, happroval, hassessment, happrovedBy⟩ := h.approval
  refine ⟨h.toGrantCovers.keep hext hsame, ?_, ⟨plan, ?_, hext.plans _ _ hstored⟩, approval, ?_,
    hext.approvals _ _ happroval, ?_, happrovedBy⟩
  · rw [plannedSteps_keep hactive hstored hext hsame.plan]
    exact h.risks
  · rw [hsame.plan]
    exact hactive
  · rw [hsame.approval]
    exact happrovalId
  · rw [hsame.id]
    exact hassessment

theorem Carried.refl (repo : Repositories) : Carried m G repo repo := fun _ row' hrow hstatus =>
  Or.inl ⟨row', hrow, hstatus, .refl row'⟩

/-- **What is carried twice**: what held in between still holds, and what is new holds as well. -/
theorem Carried.trans (h : Carried m G repo repo') (h' : Carried m G' repo' repo'')
    (hkeep : ∀ row row', row.SameTerms row' → G repo' row → G'' repo'' row')
    (hnew : ∀ row, G' repo'' row → G'' repo'' row) : Carried m G'' repo repo'' := by
  intro id row'' hrow'' hstatus''
  rcases h' id row'' hrow'' hstatus'' with ⟨row', hrow', hstatus', hsame'⟩ | hnow
  · rcases h id row' hrow' hstatus' with ⟨row, hrow, hstatus, hsame⟩ | hbefore
    · exact Or.inl ⟨row, hrow, hstatus, hsame.trans hsame'⟩
    · exact Or.inr (hkeep row' row'' hsame' hbefore)
  · exact Or.inr (hnew row'' hnow)

namespace Milestone

theorem Under.keep (h : m.Under U grants repo row now grant) (hext : repo.ExtendedBy repo')
    (hsame : row.SameTerms row') : m.Under U grants repo' row' now grant := by
  cases m with
  | approval => exact ApprovedUnder.keep h hext hsame
  | start => exact GrantCovers.keep h hext hsame

theorem isApproved_of_reached {status : AssessmentStatus} (h : m.reached status = true) :
    status.isApproved = true := by
  revert h
  cases m <;> cases status <;> decide

/-- Only an assessment behind the milestone moves on to a status behind it. -/
theorem reached_of_moved {status target : AssessmentStatus} (h : target ∈ allowedTransitions status)
    (hne : target ≠ .approved ∧ target ≠ .queued) (hreached : m.reached target = true) :
    m.reached status = true := by
  revert h hne hreached
  cases m <;> cases status <;> cases target <;> decide

theorem PassedBy.askedBy {service : AssessmentService} {call : ServiceCall}
    (h : m.PassedBy U service call repo repo' row') : m.AskedBy row'.id call := by
  cases m with
  | approval =>
    obtain ⟨row, plan, approval, token, args, now, rfl, hid, -⟩ := h
    exact hid
  | start =>
    obtain ⟨row, actorRole, grantId, now, rfl, -⟩ := h
    rfl

end Milestone

/-- Where the assessments behind a milestone come from in a service call. -/
theorem carried_serve {H : CanonicalDigest} {service : AssessmentService} {call : ServiceCall}
    (h : serve U H service repo call = .ok repo')
    (hnew : ∀ row', m.PassedBy U service call repo repo' row' → G repo' row') :
    Carried m G repo repo' := by
  intro id row' hrow hreached
  have hkey := Table.key_of_get? hrow
  rcases served_row h hrow with hrow | hserved
  · exact Or.inl ⟨row', hrow, hreached, .refl row'⟩
  · cases hserved with
    | early hearly =>
      rw [Milestone.isApproved_of_reached hreached] at hearly
      cases hearly
    | moved row hold hsame hallowed hgated =>
      exact Or.inl ⟨row, hkey ▸ hold, Milestone.reached_of_moved hallowed hgated hreached, hsame⟩
    | started row hold hsame happroved hstarted =>
      cases m with
      | approval =>
        refine Or.inl ⟨row, hkey ▸ hold, ?_, hsame⟩
        rw [happroved]
        rfl
      | start => exact Or.inr (hnew row' hstarted)
    | approved hstatus happroved =>
      cases m with
      | approval => exact Or.inr (hnew row' happroved)
      | start =>
        rw [hstatus] at hreached
        cases hreached

end Grants

/-! ## What a tool does -/

/-- A service call that an agent may make at a time. -/
def ServiceCall.ByAgent (time : Option Time) : ServiceCall → Prop
  | .create .. | .attachPlan .. | .pause _ | .resume _ | .cancel _ => True
  | .approve _ args now => time = some now ∧ ∃ grantId, args.grantId = some grantId
  | .start _ _ grantId now => time = some now ∧ ∃ id, grantId = some id
  | _ => False

/-- A service call of an agent, or a frozen scope. -/
inductive AgentStep (U : Unicode) (H : CanonicalDigest) (time : Option Time) (repo repo' : Repositories) : Prop
  | serve (call : ServiceCall) (hagent : call.ByAgent time) (h : serve U H {} repo call = .ok repo')
  | freeze (snapshot : ScopeSnapshot) (h : addSnapshot repo snapshot = .ok repo')

/-- A sequence of them. -/
abbrev AgentSteps (U : Unicode) (H : CanonicalDigest) (time : Option Time) :
    Repositories → Repositories → Prop :=
  Relation.ReflTransGen (AgentStep U H time)

section AgentSteps

variable {U : Unicode} {H : CanonicalDigest} {time : Option Time} {repo repo' : Repositories}

theorem grants_serve {call : ServiceCall} (hagent : call.ByAgent time)
    (h : serve U H {} repo call = .ok repo') : repo'.grants = repo.grants := by
  cases call with
  | create token projectId scopeSnapshotId mode =>
    obtain ⟨row, -, h⟩ := bind_eq_ok_iff.mp h
    cases h
    rfl
  | attachPlan token assessmentId steps =>
    obtain ⟨row, plan, -, -, -, -, rfl⟩ := attachPlan_ok h
    rfl
  | approve token args now =>
    cases happrove : AssessmentService.approve U H {} repo token args now with
    | error error => simp [serve, happrove, Except.map] at h
    | ok result =>
      obtain ⟨saved, approval⟩ := result
      simp only [serve, happrove, Except.map] at h
      cases h
      obtain ⟨_, _, _, -, -, -, -, -, -, -, hsaved⟩ := approve_ok happrove
      rw [hsaved]
  | start assessmentId actorRole grantId now =>
    obtain ⟨row, -, -, rfl⟩ := moveTo_ok_iff.mp (start_ok h)
    rfl
  | pause assessmentId | resume assessmentId | cancel assessmentId =>
    obtain ⟨row, -, -, rfl⟩ := moveTo_ok_iff.mp h
    rfl
  | reject | markRunning | complete | fail | createGrant | revokeGrant => exact hagent.elim

theorem addSnapshot_ok {snapshot : ScopeSnapshot} (h : addSnapshot repo snapshot = .ok repo') :
    repo.ExtendedBy repo' ∧ repo'.grants = repo.grants ∧ repo'.assessments = repo.assessments := by
  rw [addSnapshot] at h
  cases hinsert : repo.scopes.insert snapshot with
  | none => simp [hinsert] at h
  | some scopes =>
    simp only [hinsert] at h
    cases h
    obtain ⟨hnew, rfl⟩ := Table.insert_eq_some_iff.mp hinsert
    exact ⟨⟨.refl _, .refl _, Table.extends_put hnew⟩, rfl, rfl⟩

/-- **An agent changes no grant**, and takes nothing away. -/
theorem AgentStep.kept (h : AgentStep U H time repo repo') :
    repo.ExtendedBy repo' ∧ repo'.grants = repo.grants := by
  cases h with
  | serve call hagent h => exact ⟨extendedBy_serve h, grants_serve hagent h⟩
  | freeze snapshot h => exact ⟨(addSnapshot_ok h).1, (addSnapshot_ok h).2.1⟩

theorem AgentSteps.kept (h : AgentSteps U H time repo repo') :
    repo.ExtendedBy repo' ∧ repo'.grants = repo.grants := by
  induction h with
  | refl => exact ⟨.refl _, rfl⟩
  | tail _ hstep ih => exact ⟨ih.1.trans hstep.kept.1, hstep.kept.2.trans ih.2⟩

/-- What the gate has checked, of a row that has the scope of the one that it looked at. -/
theorem grantCovers_of_gate {service : AssessmentService} {grantId id : String} {now : Time} {u : Unit}
    {row row' : Assessment} (h : service.authorizeViaGrant U repo grantId id now = .ok u)
    (hrow : repo.assessments.get? id = some row) (hscope : row'.scopeSnapshotId = row.scopeSnapshotId)
    (hext : repo.ExtendedBy repo') :
    ∃ grant, grant.id = grantId ∧ GrantCovers U repo.grants repo' row' now grant ∧
      grant.coversRisks (AssessmentService.plannedSteps repo row) = true := by
  obtain ⟨found, scope, grant, hfound, hstored, hgrant, hactive, hcovers, hrisks⟩ :=
    authorizeViaGrant_ok h
  obtain rfl := Option.some.inj (hrow.symm.trans hfound)
  have hid := Table.key_of_get? hgrant
  refine ⟨grant, hid, ⟨?_, hactive, scope, ?_, hcovers⟩, hrisks⟩
  · rw [hid]
    exact hgrant
  · rw [hscope]
    exact hext.scopes _ _ hstored

/-- **An agent takes an assessment past a milestone under a grant.** -/
theorem AgentStep.carried (m : Milestone) (h : AgentStep U H time repo repo') :
    Carried m (fun repo' row => ∃ now grant, time = some now ∧
      m.Under U repo.grants repo' row now grant) repo repo' := by
  cases h with
  | serve call hagent h =>
    have hext := extendedBy_serve h
    refine carried_serve h fun row' hpassed => ?_
    cases m with
    | approval =>
      obtain ⟨row, plan, approval, token, args, now, rfl, hid, hold, hscope, hplan, hactive, hstored, hgate,
        happrovalId, happroval, hassessment⟩ := hpassed
      obtain ⟨htime, grantId, hgrantId⟩ := hagent
      rw [AssessmentService.approver, hgrantId] at hgate
      obtain ⟨_, hauthorized, happrovedBy⟩ := bind_eq_ok_iff.mp hgate
      obtain ⟨grant, hgrant, hcovers, hrisks⟩ :=
        grantCovers_of_gate hauthorized (hid.symm ▸ hold) hscope hext
      refine ⟨now, grant, htime, ⟨hcovers, ?_, ⟨plan, hplan.trans hactive, hext.plans _ _ hstored⟩, approval,
        happrovalId, happroval, hassessment, ?_⟩⟩
      · -- The gate has looked at the plan that is approved.
        rw [plannedSteps_keep hactive hstored hext hplan]
        exact hrisks
      · rw [hgrant]
        exact (Except.ok.inj happrovedBy).symm
    | start =>
      obtain ⟨row, actorRole, grantId, now, rfl, hold, hsame, hgate⟩ := hpassed
      obtain ⟨htime, grantId, rfl⟩ := hagent
      obtain ⟨grant, -, hcovers, -⟩ := grantCovers_of_gate hgate hold hsame.scope hext
      exact ⟨now, grant, htime, hcovers⟩
  | freeze snapshot h =>
    intro id row' hrow hreached
    rw [(addSnapshot_ok h).2.2] at hrow
    exact Or.inl ⟨row', hrow, hreached, .refl row'⟩

theorem AgentSteps.carried (m : Milestone) (h : AgentSteps U H time repo repo') :
    Carried m (fun repo' row => ∃ now grant, time = some now ∧
      m.Under U repo.grants repo' row now grant) repo repo' := by
  induction h with
  | refl => exact .refl _
  | tail hsteps hstep ih =>
    refine ih.trans (hstep.carried m) ?_ ?_
    · rintro row row' hsame ⟨now, grant, htime, hunder⟩
      exact ⟨now, grant, htime, hunder.keep hstep.kept.1 hsame⟩
    · rintro row ⟨now, grant, htime, hunder⟩
      rw [(AgentSteps.kept hsteps).2] at hunder
      exact ⟨now, grant, htime, hunder⟩

end AgentSteps

/-! ## Tool calls -/

/-- The time at which a tool asks for a grant. -/
def ToolCall.time : ToolCall → Option Time
  | .planApprove _ _ _ _ _ now => some now
  | .assessmentStart _ _ now => some now
  | .missionCreate args => some args.now
  | _ => none

/-- A write of a tool: what it leaves in the tables of assessments and grants comes from the steps of an
agent. -/
def DbWrite.ByAgent (U : Unicode) (H : CanonicalDigest) (time : Option Time) (repo : Repositories) :
    DbWrite → Prop
  | .core repo' => AgentSteps U H time repo repo'
  | _ => True

section Tools

variable {runtime : McpRuntime} {outside : Outside} {db : McpDatabase} {time : Option Time}
  {repo : Repositories} {now : Time} {assessmentId grantId action token : String}

/-- Tables that an agent may leave. -/
abbrev Attained (runtime : McpRuntime) (db : McpDatabase) (time : Option Time) (repo : Repositories) : Prop :=
  AgentSteps runtime.U runtime.canonical time db.core repo

/-- What writes leave. -/
theorem written_agentSteps {effects : List DbWrite}
    (h : ∀ e ∈ effects, e.ByAgent runtime.U runtime.canonical time db.core) :
    Attained runtime db time (UnitOfWork.written McpDatabase.apply db effects).core := by
  induction effects using List.reverseRecOn with
  | nil => exact .refl
  | append_singleton effects last ih =>
    have hbefore := ih fun e he => h e (List.mem_append_left _ he)
    have hlast := h last (by simp)
    rw [UnitOfWork.written, List.foldl_concat]
    cases last with
    | core repo => exact hlast
    | project | audit | signed | report | loop => exact hbefore

/-- A part of a tool writes what an agent may write. -/
abbrev Agentic (runtime : McpRuntime) (db : McpDatabase) (time : Option Time) {α : Type} (body : McpBody α) :
    Prop :=
  Acting.Only (DbWrite.ByAgent runtime.U runtime.canonical time db.core) body

theorem served_eq_ok {α : Type} {answer : Except ServiceError α} {a : α}
    (h : (served answer).result = .ok a) : answer = .ok a := by
  cases answer with
  | error error => cases h
  | ok value => exact congrArg Except.ok (Except.ok.inj h)

/-- A part that asks a service goes on with its answer. -/
theorem agentic_served {α β : Type} {answer : Except ServiceError α} {rest : α → McpBody β}
    (h : ∀ a, answer = .ok a → Agentic runtime db time (rest a)) :
    Agentic runtime db time (served answer >>= rest) :=
  (Acting.Only.ofExcept _).bind fun a ha => h a (served_eq_ok ha)

theorem agentic_query : Agentic runtime db time (query outside) := by
  rw [query]
  split
  · exact .pure _
  · exact .raise _

theorem agentic_auditSigned {actor resourceType resourceId : String}
    {payload : List (String × Json)} :
    Agentic runtime db time (auditSigned runtime actor action resourceType resourceId payload) := by
  rw [auditSigned]
  split
  · exact .raise _
  · exact .effect trivial

theorem agentic_auditPlain {actor resourceType resourceId : String}
    {payload : List (String × Json)} :
    Agentic runtime db time (auditPlain runtime outside db actor action resourceType resourceId payload) := by
  refine agentic_query.bind fun _ _ => ?_
  split
  · exact .raise _
  · split
    · exact .raise _
    · exact .effect trivial

/-- The tables that a service call has left are written. -/
theorem agentic_serve {repo' : Repositories} (call : ServiceCall)
    (hreach : Attained runtime db time repo) (hagent : call.ByAgent time)
    (h : serve runtime.U runtime.canonical {} repo call = .ok repo') :
    Attained runtime db time repo' ∧
      Agentic runtime db time (writeCore repo') :=
  ⟨hreach.tail (.serve call hagent h), .effect (hreach.tail (.serve call hagent h))⟩

theorem agentic_first (call : ServiceCall) (hagent : call.ByAgent time)
    (h : serve runtime.U runtime.canonical {} db.core call = .ok repo) :
    Agentic runtime db time (writeCore repo) :=
  (agentic_serve call .refl hagent h).2

theorem agentic_freeze {snapshot : ScopeSnapshot}
    (h : addSnapshot db.core snapshot = .ok repo) :
    Attained runtime db time repo ∧ Agentic runtime db time (writeCore repo) :=
  ⟨.single (.freeze snapshot h), .effect (.single (.freeze snapshot h))⟩

theorem agentic_freezeBody {args : FreezeArgs} :
    Agentic runtime db time (freezeBody runtime outside db args) := by
  refine agentic_served fun snapshot _ => agentic_served fun repo hrepo => ?_
  refine (agentic_freeze hrepo).2.bind fun _ _ => agentic_auditPlain.bind fun _ _ => ?_
  exact agentic_auditSigned.bind fun _ _ => .pure _

theorem agentic_createBody {projectId scopeSnapshotId mode : String} :
    Agentic runtime db time (createBody db projectId scopeSnapshotId mode token) := by
  refine agentic_served fun mode _ => agentic_served fun repo hrepo => ?_
  exact (agentic_first (.create token projectId scopeSnapshotId mode) trivial hrepo).bind fun _ _ => .pure _

theorem agentic_generateBody {steps : Except HandlerError (List PlanStep)} :
    Agentic runtime db time (generateBody runtime outside db assessmentId token steps) := by
  refine agentic_served fun assessment _ => ?_
  split
  · exact .raise _
  · refine (Acting.Only.ofExcept _).bind fun steps _ => ?_
    split
    · exact .raise _
    · refine agentic_served fun repo hrepo => ?_
      refine (agentic_first (.attachPlan token assessmentId steps) trivial hrepo).bind fun _ _ => ?_
      exact agentic_query.bind fun _ _ => .pure _

theorem serve_approve {call : ApproveCall} {approved : Repositories × Approval}
    (h : AssessmentService.approve runtime.U runtime.canonical {} repo token call now = .ok approved) :
    serve runtime.U runtime.canonical {} repo (.approve token call now) = .ok approved.1 := by
  rw [serve, h]
  rfl

theorem byAgent_grantApproval {scopeDigest : String} {approvedRisks : Finset RiskClass}
    {approvedCapabilities : List String} :
    (ServiceCall.approve token
      (grantApproval assessmentId grantId scopeDigest approvedRisks approvedCapabilities) now).ByAgent
        (some now) :=
  ⟨rfl, grantId, rfl⟩

theorem agentic_approveBody {approvedRisks approvedCapabilities : List String} :
    Agentic runtime db (some now)
      (approveBody runtime outside db assessmentId approvedRisks approvedCapabilities grantId token now) := by
  refine agentic_served fun risks _ => agentic_served fun digest _ => agentic_served fun approved happroved => ?_
  refine (agentic_first _ byAgent_grantApproval (serve_approve happroved)).bind fun _ _ => ?_
  exact agentic_query.bind fun _ _ => .pure _

theorem agentic_startBody :
    Agentic runtime db (some now) (startBody runtime db assessmentId grantId now) := by
  refine agentic_served fun repo hrepo => ?_
  refine (agentic_first (.start assessmentId "agent" (some grantId) now) ⟨rfl, grantId, rfl⟩ hrepo).bind ?_
  exact fun _ _ => .pure _

/-- The writes of a mission: each goes on from the tables that the one before it has left. -/
theorem agentic_missionWrites {args : MissionArgs} {grant : EngagementGrant} {scope : ScopeSnapshot}
    {cap : RiskClass} :
    Agentic runtime db (some args.now) (missionWrites runtime outside db args grant scope cap) := by
  refine agentic_served fun frozen hfrozen => ?_
  obtain ⟨hreach, hwrite⟩ := agentic_freeze hfrozen
  refine hwrite.bind fun _ _ => agentic_served fun created hcreated => ?_
  obtain ⟨hreach, hwrite⟩ := agentic_serve
    (.create args.assessmentToken args.projectId scope.id .approval) hreach trivial hcreated
  refine hwrite.bind fun _ _ => agentic_query.bind fun _ _ => ?_
  refine (Acting.Only.ofExcept _).bind fun steps _ => agentic_served fun planned hplanned => ?_
  obtain ⟨hreach, hwrite⟩ := agentic_serve
    (.attachPlan args.planToken ("asm-" ++ args.assessmentToken) steps) hreach trivial hplanned
  refine hwrite.bind fun _ _ => agentic_query.bind fun _ _ => agentic_served fun approved happroved => ?_
  obtain ⟨hreach, hwrite⟩ := agentic_serve _ hreach byAgent_grantApproval (serve_approve happroved)
  refine hwrite.bind fun _ _ => agentic_query.bind fun _ _ => agentic_served fun started hstarted => ?_
  obtain ⟨-, hwrite⟩ := agentic_serve
    (.start ("asm-" ++ args.assessmentToken) "agent" (some args.grantId) args.now) hreach
    ⟨rfl, args.grantId, rfl⟩ hstarted
  exact hwrite.bind fun _ _ => agentic_auditSigned.bind fun _ _ => .pure _

theorem agentic_missionBody {args : MissionArgs} {requestedCap : Option RiskClass} :
    Agentic runtime db (some args.now) (missionBody runtime outside db args requestedCap) := by
  rw [missionBody]
  split
  next => exact .pure _
  next grant _ =>
    split
    next => exact .pure _
    next =>
      refine agentic_served fun draft _ => agentic_served fun scope _ => agentic_served fun covered _ => ?_
      split
      next => exact .pure _
      next =>
        refine agentic_served fun cap _ => ?_
        cases requestedCap with
        | none => exact agentic_missionWrites
        | some requested =>
          dsimp only
          split
          next => exact .pure _
          next => exact agentic_missionWrites

theorem agentic_controlBody {call : ServiceCall} {status : AssessmentStatus}
    {move : Repositories → String → Except ServiceError Repositories} (hagent : call.ByAgent time)
    (hmove : move db.core assessmentId = serve runtime.U runtime.canonical {} db.core call) :
    Agentic runtime db time (controlBody runtime db assessmentId action move status) := by
  refine agentic_served fun repo hrepo => ?_
  rw [hmove] at hrepo
  exact (agentic_first call hagent hrepo).bind fun _ _ => agentic_auditSigned

theorem agentic_startThread : Agentic runtime db time (startThread runtime outside) := by
  rw [startThread]
  split
  · exact .raise _
  · exact .pure _

theorem agentic_renderBody {report : Except HandlerError Report} :
    Agentic runtime db time (renderBody db assessmentId report) := by
  refine agentic_served fun _ _ => (Acting.Only.ofExcept _).bind fun report _ => ?_
  exact (Acting.Only.effect trivial).bind fun _ _ => .pure _

theorem agentic_loopControlBody {loopId : String} :
    Agentic runtime db time (loopControlBody runtime action loopId) := by
  rw [loopControlBody]
  split
  · exact .raise _
  · exact (Acting.Only.ofExcept _).bind fun _ _ => .raise _

theorem agentic_loopCreateBody {loopId : LoopId} {maxSteps maxWallSeconds maxTotalTokens : Option ℤ} :
    Agentic runtime db time
      (loopCreateBody runtime loopId assessmentId grantId maxSteps maxWallSeconds maxTotalTokens now) :=
  (Acting.Only.effect trivial).bind fun _ _ => agentic_auditSigned.bind fun _ _ => .pure _

theorem agentic_loopStopBody {loopId actor : String} :
    Agentic runtime db time (loopStopBody runtime db loopId actor now) := by
  refine (Acting.Only.ofExcept _).bind fun id _ => ?_
  split
  · exact .raise _
  · split
    · exact .pure _
    · exact (Acting.Only.effect trivial).bind fun _ _ => agentic_auditSigned.bind fun _ _ => .pure _

/-- What a call of a tool leaves: what its body has written, or what was there. -/
theorem call_agentSteps {body : McpBody ToolResult} (h : Agentic runtime db time body) (action : String) :
    Attained runtime db time (guardedCall outside db action body).1.core ∧
      Attained runtime db time (loopCall outside db action body).1.core ∧
      Attained runtime db time (plainCall outside db body).1.core := by
  have hcommitted : ∀ (commits : Bool) (done failed : Option ToolResult),
      Attained runtime db time
        (if commits then (UnitOfWork.written McpDatabase.apply db body.effects, done)
          else (db, failed)).1.core := by
    intro commits done failed
    cases commits with
    | true => exact written_agentSteps h
    | false => exact .refl
  refine ⟨?_, ?_, ?_⟩
  · rw [guardedCall, UnitOfWork.guardInside]
    cases body.result <;> exact hcommitted _ _ _
  · rw [loopCall, UnitOfWork.guardOutside]
    cases body.result with
    | ok result => exact hcommitted _ _ _
    | error error => exact .refl
  · rw [plainCall, UnitOfWork.unguarded]
    cases body.result with
    | ok result => exact hcommitted _ _ _
    | error error => exact .refl

theorem needsGrant_agentSteps {grantId : Option String} {refusal : ToolResult}
    {call : String → McpDatabase × Option ToolResult}
    (h : ∀ grantId, Attained runtime db time (call grantId).1.core) :
    Attained runtime db time (needsGrant db grantId refusal call).1.core := by
  cases grantId with
  | none => exact .refl
  | some grantId =>
    rw [needsGrant.eq_def]
    dsimp only
    split
    · exact .refl
    · exact h grantId

/-- **A tool call is a sequence of service calls that agents may make**, whether it returns or raises. -/
theorem run_agentSteps (call : ToolCall) :
    Attained runtime db call.time (call.run runtime outside db).1.core := by
  cases call with
  | projectCreate name token now =>
    refine (call_agentSteps (agentic_served fun project _ => ?_) _).1
    exact (Acting.Only.effect trivial).bind fun _ _ => .pure _
  | scopeFreeze args => exact (call_agentSteps agentic_freezeBody _).1
  | assessmentCreate projectId scopeSnapshotId mode token =>
    exact (call_agentSteps agentic_createBody _).1
  | planGenerate assessmentId token steps => exact (call_agentSteps agentic_generateBody _).1
  | planApprove assessmentId approvedRisks approvedCapabilities grantId token now =>
    exact needsGrant_agentSteps fun grantId => (call_agentSteps agentic_approveBody _).1
  | assessmentStart assessmentId grantId now =>
    exact needsGrant_agentSteps fun grantId => (call_agentSteps agentic_startBody _).1
  | missionCreate args =>
    rw [ToolCall.run, missionCall]
    split
    next => exact (call_agentSteps agentic_missionBody "").2.2
    next =>
      split
      next => exact .refl
      next => exact (call_agentSteps agentic_missionBody "").2.2
  | assessmentPause assessmentId =>
    refine (call_agentSteps ((@agentic_controlBody _ _ _ _ _ (.pause assessmentId) _ _ trivial rfl).bind
      fun _ _ => .pure _) _).1
  | assessmentResume assessmentId =>
    refine (call_agentSteps ((@agentic_controlBody _ _ _ _ _ (.resume assessmentId) _ _ trivial rfl).bind
      fun _ _ => agentic_startThread.bind fun _ _ => .pure _) _).1
  | assessmentCancel assessmentId =>
    refine (call_agentSteps ((@agentic_controlBody _ _ _ _ _ (.cancel assessmentId) _ _ trivial rfl).bind
      fun _ _ => .pure _) _).1
  | reportRender assessmentId report => exact (call_agentSteps agentic_renderBody _).1
  | loopPause loopId reason => exact (call_agentSteps agentic_loopControlBody _).2.1
  | loopResume loopId => exact (call_agentSteps agentic_loopControlBody _).2.1
  | loopCreate loopId assessmentId grantId maxSteps maxWallSeconds maxTotalTokens now =>
    exact needsGrant_agentSteps fun grantId => (call_agentSteps agentic_loopCreateBody _).2.1
  | loopStop loopId grantId actor now =>
    exact needsGrant_agentSteps fun _ => (call_agentSteps agentic_loopStopBody _).2.1
  | read action guarded answer =>
    rw [ToolCall.run]
    split
    · exact (call_agentSteps (.ofExcept _) _).1
    · exact (call_agentSteps (.ofExcept _) "").2.2

end Tools

/-! ## Runs -/

/-- A tool call of an agent, or a service call of a human or of the executor. -/
inductive McpStep
  | tool (runtime : McpRuntime) (outside : Outside) (call : ToolCall)
  | service (call : ServiceCall)

section Runs

variable (U : Unicode) (H : CanonicalDigest) (service : AssessmentService)

/-- One step. A service call that raises is no step. -/
def McpStep.step (db : McpDatabase) : McpStep → Option McpDatabase
  | .tool runtime outside call => some (call.run runtime outside db).1
  | .service call =>
    match serve U H service db.core call with
    | .ok core => some { db with core }
    | .error _ => none

/-- The assessment was taken past the milestone in the run: by a service call, or by an agent under a grant
that was there and active at the time. -/
def PassedInRun (m : Milestone) (db : McpDatabase) (labels : List McpStep) (repo : Repositories)
    (row : Assessment) : Prop :=
  (∃ call t, Takes (McpStep.step U H service) db labels (.service call) t ∧ m.AskedBy row.id call) ∨
  ∃ runtime outside call t now grant,
    Takes (McpStep.step U H service) db labels (.tool runtime outside call) t ∧ call.time = some now ∧
    m.Under runtime.U t.core.grants repo row now grant

variable {U H service} {m : Milestone} {db t u : McpDatabase} {labels : List McpStep}
  {label : McpStep}

theorem PassedInRun.keep {repo repo' : Repositories} {row row' : Assessment}
    (h : PassedInRun U H service m db labels repo row) (hext : repo.ExtendedBy repo')
    (hsame : row.SameTerms row') (last : McpStep) :
    PassedInRun U H service m db (labels ++ [last]) repo' row' := by
  rcases h with ⟨call, t, htakes, hasked⟩ | ⟨runtime, outside, call, t, now, grant, htakes, htime, hunder⟩
  · refine Or.inl ⟨call, t, htakes.concat last, ?_⟩
    rw [hsame.id]
    exact hasked
  · exact Or.inr ⟨runtime, outside, call, t, now, grant, htakes.concat last, htime, hunder.keep hext hsame⟩

/-- What one more step does to the tables. -/
theorem McpStep.extendedBy (h : McpStep.step U H service t label = some u) : t.core.ExtendedBy u.core := by
  cases label with
  | tool runtime outside call =>
    obtain rfl := Option.some.inj h
    exact (AgentSteps.kept (run_agentSteps call)).1
  | service call =>
    rw [McpStep.step] at h
    split at h
    next core hserve =>
      obtain rfl := Option.some.inj h
      exact extendedBy_serve hserve
    next => cases h

theorem McpStep.carried (hrun : runLabels (McpStep.step U H service) db labels = some t)
    (h : McpStep.step U H service t label = some u) :
    Carried m (PassedInRun U H service m db (labels ++ [label])) t.core u.core := by
  have htakes := Takes.last hrun label
  cases label with
  | tool runtime outside call =>
    obtain rfl := Option.some.inj h
    intro id row hrow hreached
    rcases (run_agentSteps call).carried m id row hrow hreached with hbefore | ⟨now, grant, htime, hunder⟩
    · exact Or.inl hbefore
    · exact Or.inr (Or.inr ⟨runtime, outside, call, t, now, grant, htakes, htime, hunder⟩)
  | service call =>
    rw [McpStep.step] at h
    split at h
    next core hserve =>
      obtain rfl := Option.some.inj h
      exact carried_serve hserve fun row' hpassed => Or.inl ⟨call, t, htakes, hpassed.askedBy⟩
    next => cases h

/-- **An agent has the authority of the grants and no more**: in every run of tool calls and service calls,
an assessment that is approved at the end was so at the start, or a service call has approved it, or an
agent has, under a grant that was active then and covers its scope and the steps of its plan; the same
holds of its start. Where only agents have acted, the grants are what they were. -/
theorem agent_authority (hrun : runLabels (McpStep.step U H service) db labels = some t) :
    (∀ m, Carried m (PassedInRun U H service m db labels) db.core t.core) ∧
      ((∀ label ∈ labels, ∃ runtime outside call, label = .tool runtime outside call) →
        t.core.grants = db.core.grants) := by
  constructor
  · intro m
    refine history_induction (P := fun labels t =>
      Carried m (PassedInRun U H service m db labels) db.core t.core) (.refl _) ?_ hrun
    intro labels t label u hbefore hcarried hstep
    refine hcarried.trans (McpStep.carried hbefore hstep) ?_ fun _ => id
    exact fun _ _ hsame h => h.keep (McpStep.extendedBy hstep) hsame label
  · refine history_induction (P := fun labels t =>
      (∀ label ∈ labels, ∃ runtime outside call, label = McpStep.tool runtime outside call) →
        t.core.grants = db.core.grants) (fun _ => rfl) ?_ hrun
    intro labels t label u _ ih hstep honly
    obtain ⟨runtime, outside, call, rfl⟩ := honly label (by simp)
    obtain rfl := Option.some.inj hstep
    rw [(AgentSteps.kept (run_agentSteps call)).2]
    exact ih fun label hlabel => honly label (List.mem_append_left _ hlabel)

end Runs

/-- A project with a grant for a day. -/
def grantedProject : McpDatabase where
  core :=
    { scopes := projectScopes
      grants := Table.empty.put
        (dayGrant (singleScope "scope-a" "project-a" "digest-a" "10.0.0.5".toList)) }

/-- An assessment from its creation to its start, by an agent; the executor goes on. -/
def agentRun : List McpStep :=
  [.tool sampleRuntime {} (.assessmentCreate "project-a" "scope-a" "approval" "1"),
    .tool sampleRuntime {} (.planGenerate "asm-1" "1" (.ok [⟨"ports", "nmap", .low, .empty, []⟩])),
    .tool sampleRuntime {} (.planApprove "asm-1" ["low"] [] (some "grant") "1" 5),
    .tool sampleRuntime {} (.assessmentStart "asm-1" (some "grant") 6),
    .service (.markRunning "asm-1")]

theorem agent_authority_running :
    ∃ t row, runLabels (McpStep.step .ascii sampleDigest {}) grantedProject agentRun = some t ∧
      t.core.assessments.get? "asm-1" = some row ∧ row.status = .running ∧
      ∀ m, PassedInRun .ascii sampleDigest {} m grantedProject agentRun t.core row := by
  have hstatus : (runLabels (McpStep.step .ascii sampleDigest {}) grantedProject agentRun).map
      (fun t => (t.core.assessments.get? "asm-1").map Assessment.status) = some (some .running) := by
    decide +kernel
  obtain ⟨t, hrun, hrow⟩ := Option.map_eq_some_iff.mp hstatus
  obtain ⟨row, hrow, hrunning⟩ := Option.map_eq_some_iff.mp hrow
  refine ⟨t, row, hrun, hrow, hrunning, fun m => ?_⟩
  -- The assessment was not there at the start.
  refine ((agent_authority hrun).1 m "asm-1" row hrow (by rw [hrunning]; cases m <;> rfl)).resolve_left ?_
  rintro ⟨old, hold, -⟩
  cases hold

end SecOpent
