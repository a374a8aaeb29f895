import SecOpent.Assessments.Service
import SecOpent.Transition.Runs

/-!
# Approvals on the grant path

With a grant id, `approve` asks the grant gate about the assessment's scope and the steps of its
plan. The gate is not told the approved risks, the scope digest or the project: these are as the
caller supplied them. In every run in which the callers supply what they should, an approval on the
grant path lies within its grant.

## Main definitions

* `GrantApproval`: an approval on the grant path, with the repositories it was recorded in
* `GrantApproval.Within`: the approval lies within its grant
* `SuppliedWithin`: the condition on one call, read in the state before it

## Main results

* `within_iff`: for one recorded approval, the condition is exactly what is missing
* `grantApprovals_within`: approvals on the grant path lie within their grants, in every run
-/

namespace SecOpent

open Python Transition

/-- An approval on the grant path, with the repositories and the time at which it was recorded. -/
structure GrantApproval where
  repo : Repositories
  call : ApproveCall
  grantId : String
  now : Time
  approval : Approval

/-- The services after some calls. `grantApprovals` is a record of the model. -/
structure ServiceState where
  repo : Repositories
  grantApprovals : List GrantApproval := []

variable (U : Unicode) (H : CanonicalDigest) (service : AssessmentService)

/-- The approval that a call records on the grant path. -/
def recordGrantApproval (repo : Repositories) : ServiceCall → List GrantApproval
  | .approve token call now =>
    match call.grantId, service.approve U H repo token call now with
    | some grantId, .ok (_, approval) => [⟨repo, call, grantId, now, approval⟩]
    | _, _ => []
  | _ => []

/-- One call. A call that raises leaves everything as it was and is no step. -/
def ServiceState.step (s : ServiceState) (call : ServiceCall) : Option ServiceState :=
  if call.TokenFresh s.repo then
    match serve U H service s.repo call with
    | .ok repo' => some
        { repo := repo'
          grantApprovals := s.grantApprovals ++ recordGrantApproval U H service s.repo call }
    | .error _ => none
  else none

/-- What the call supplies lies within the grant: risks, project and scope digest. -/
def ApproveCall.SuppliedWithin (repo : Repositories) (call : ApproveCall) (grantId : String) :
    Prop :=
  ∀ assessment scope grant, repo.assessments.get? call.assessmentId = some assessment →
    repo.scopes.get? assessment.scopeSnapshotId = some scope →
    repo.grants.get? grantId = some grant →
    call.approvedRisks ⊆ grant.riskCaps ∧ grant.projectId = assessment.projectId ∧
      call.scopeDigest = scope.digest

/-- Every approval on the grant path is asked for within its grant. -/
def ServiceState.SuppliedWithin (s : ServiceState) : ServiceCall → Prop
  | .approve _ call _ => ∀ grantId, call.grantId = some grantId → call.SuppliedWithin s.repo grantId
  | _ => True

/-- **The approval lies within its grant**, as the repositories were when it was recorded. -/
def GrantApproval.Within (entry : GrantApproval) : Prop :=
  ∃ assessment plan scope grant,
    entry.repo.assessments.get? entry.approval.assessmentId = some assessment ∧
    assessment.activePlanId = some plan.id ∧ entry.repo.plans.get? plan.id = some plan ∧
    entry.repo.scopes.get? assessment.scopeSnapshotId = some scope ∧
    entry.repo.grants.get? entry.grantId = some grant ∧
    entry.approval.approvedBy = "grant:" ++ entry.grantId ∧
    entry.approval.planDigest = plan.digest ∧
    entry.approval.approvedRisks ⊆ grant.riskCaps ∧
    grant.projectId = assessment.projectId ∧
    grant.isActiveAt entry.now = true ∧
    (∀ step ∈ plan.steps, step.risk ∈ grant.riskCaps) ∧
    entry.approval.scopeDigest = scope.digest ∧
    grant.coversScope U scope = .ok true

/-- No assessment has a plan with an empty id, which the gate would take for no plan. -/
def PlanIdsNonempty (repo : Repositories) : Prop :=
  ∀ id row, repo.assessments.get? id = some row → row.activePlanId ≠ some ""

section Runs

variable {U H service}

theorem PlanIdsNonempty.of_effect {repo repo' : Repositories} (h : PlanIdsNonempty repo)
    {served : Option ServiceCall} (heffect : ServeEffect served repo repo') :
    PlanIdsNonempty repo' := by
  intro id row hrow
  rcases heffect.assessments with heq | ⟨written, hwritten, heq⟩
  · rw [heq] at hrow
    exact h id row hrow
  · rw [heq, Table.get?_put] at hrow
    split at hrow
    · cases hrow
      cases hwritten with
      | created row hstatus hplan hnew => simp [hplan]
      | planned row plan hrow hstatus hne => simpa using hne
      | approved row plan approval token args now hcall hid hrisks hdigest hrow =>
        exact h row.id row hrow
      | moved row target control hrow => exact h row.id row hrow
    · exact h id row hrow

/-- What `approve` leaves to its caller on the grant path is exactly what the caller supplies. -/
theorem within_iff {repo repo' : Repositories} {token grantId : String} {call : ApproveCall}
    {now : Time} {approval : Approval} (hids : PlanIdsNonempty repo)
    (hgrant : call.grantId = some grantId)
    (h : service.approve U H repo token call now = .ok (repo', approval)) :
    GrantApproval.Within U ⟨repo, call, grantId, now, approval⟩ ↔
      call.SuppliedWithin repo grantId := by
  obtain ⟨approvedBy, assessment, plan, hby, hassessment, hactive, -, hplan, happroval, -, -⟩ :=
    approve_ok h
  simp only [AssessmentService.approver, hgrant] at hby
  obtain ⟨_, hauth, hby⟩ := bind_eq_ok_iff.mp hby
  cases hby
  obtain ⟨found, scope, grant, hfound, hscope, hget, hisActive, hcovers, hrisks⟩ :=
    authorizeViaGrant_ok hauth
  rw [hassessment] at hfound
  cases hfound
  -- The gate looked at the plan that is approved.
  have hsteps : AssessmentService.plannedSteps repo assessment = plan.steps := by
    have hne : plan.id ≠ "" := by
      intro hempty
      exact hids _ _ hassessment (hempty ▸ hactive)
    simp [AssessmentService.plannedSteps, hactive, hne, hplan]
  rw [hsteps] at hrisks
  subst happroval
  constructor
  · rintro ⟨assessment', plan', scope', grant', hassessment', -, -, hscope', hget', -, -, hcaps,
      hproject, -, -, hdigest, -⟩ a s g ha hs hg
    have hassessment'' : repo.assessments.get? call.assessmentId = some assessment' := hassessment'
    rw [hassessment] at ha hassessment''
    cases ha
    cases hassessment''
    dsimp only at hscope' hget'
    rw [hs] at hscope'
    rw [hg] at hget'
    cases hscope'
    cases hget'
    exact ⟨hcaps, hproject, hdigest⟩
  · intro hsupplied
    obtain ⟨hcaps, hproject, hdigest⟩ := hsupplied assessment scope grant hassessment hscope hget
    refine ⟨assessment, plan, scope, grant, hassessment, hactive, hplan, hscope, hget, rfl, rfl,
      hcaps, hproject, hisActive, ?_, hdigest, hcovers⟩
    simpa [EngagementGrant.coversRisks] using hrisks

theorem step_eq_some {s u : ServiceState} {call : ServiceCall}
    (h : s.step U H service call = some u) :
    serve U H service s.repo call = .ok u.repo ∧ call.TokenFresh s.repo ∧
      u.grantApprovals = s.grantApprovals ++ recordGrantApproval U H service s.repo call := by
  unfold ServiceState.step at h
  split at h
  next hfresh =>
    cases hserve : serve U H service s.repo call with
    | error e => simp [hserve] at h
    | ok repo' =>
      simp only [hserve] at h
      cases h
      exact ⟨rfl, hfresh, rfl⟩
  next => cases h

theorem mem_recordGrantApproval {repo : Repositories} {call : ServiceCall} {entry : GrantApproval}
    (h : entry ∈ recordGrantApproval U H service repo call) :
    ∃ token repo', call = .approve token entry.call entry.now ∧
      entry.call.grantId = some entry.grantId ∧ entry.repo = repo ∧
      service.approve U H repo token entry.call entry.now = .ok (repo', entry.approval) := by
  cases call with
  | approve token call now =>
    simp only [recordGrantApproval] at h
    split at h
    next grantId repo' approval hgrant happrove =>
      obtain rfl := List.mem_singleton.mp h
      exact ⟨token, repo', rfl, hgrant, rfl, happrove⟩
    next => simp at h
  | _ => simp [recordGrantApproval] at h

/-- What holds along a run: plan ids are not empty, and the recorded approvals lie within their
grants and are still there. -/
structure ServiceState.WithinGrants (U : Unicode) (s : ServiceState) : Prop where
  planIds : PlanIdsNonempty s.repo
  within : ∀ entry ∈ s.grantApprovals, entry.Within U ∧
    s.repo.approvals.get? entry.approval.id = some entry.approval

theorem ServiceState.WithinGrants.step {s u : ServiceState} {call : ServiceCall}
    (hinv : s.WithinGrants U) (hcond : s.SuppliedWithin call)
    (hstep : s.step U H service call = some u) : u.WithinGrants U := by
  obtain ⟨hserve, hfresh, hlog⟩ := step_eq_some hstep
  have heffect := serve_effect hserve hfresh
  refine ⟨hinv.planIds.of_effect heffect, ?_⟩
  intro entry hentry
  rw [hlog] at hentry
  rcases List.mem_append.mp hentry with hentry | hentry
  · obtain ⟨hwithin, hstored⟩ := hinv.within entry hentry
    exact ⟨hwithin, heffect.approvals _ _ hstored⟩
  · obtain ⟨token, repo', rfl, hgrant, hrepo, happrove⟩ := mem_recordGrantApproval hentry
    obtain ⟨repo, call, grantId, now, approval⟩ := entry
    subst hrepo
    refine ⟨(within_iff hinv.planIds hgrant happrove).mpr (hcond grantId hgrant), ?_⟩
    simp only [serve, happrove, Except.map] at hserve
    cases hserve
    obtain ⟨_, _, _, -, -, -, -, -, -, -, hrepo'⟩ := approve_ok happrove
    simp [hrepo']

/-- **Approvals on the grant path lie within their grants**: in every run of service calls whose
approvals on the grant path are asked for within their grants, starting from any scopes. -/
theorem grantApprovals_within {scopes : Table ScopeSnapshot ScopeSnapshot.id} {t : ServiceState}
    (h : Reaches (ServiceState.step U H service) ServiceState.SuppliedWithin
      { repo := { scopes } } t) :
    ∀ entry ∈ t.grantApprovals, entry.Within U ∧
      t.repo.approvals.get? entry.approval.id = some entry.approval := by
  have hinit : ServiceState.WithinGrants U { repo := { scopes } } := by
    constructor
    · intro id row hrow
      cases hrow
    · intro entry hentry
      cases hentry
  exact (h.invariant hinit fun _ _ _ hinv hcond hstep => hinv.step hcond hstep).within

end Runs

/-! ## A grant of another project -/

/-- A grant of a project, an assessment of project a with a passive plan, and its approval through
the grant. -/
def grantRun (grantProject : String) (approvedRisks : Finset RiskClass) (scopeDigest : String) :
    List ServiceCall :=
  [.createGrant "g" grantProject "engagement".toList
      (singleScope "scope-g" grantProject "digest-g" "10.0.0.0/24".toList) {.passive} 0 86400000000
      "human" 0 "digest",
    .create "a" "project-a" "scope-a" .approval,
    .attachPlan "p" "asm-a" [⟨"scan", "nmap", .passive, .empty, []⟩],
    .approve "r" ⟨"asm-a", "agent", approvedRisks, ∅, scopeDigest, "agent", some "grant-g"⟩ 1]

/-- The grant of another project records an approval of an intrusive risk that it does not allow,
for a scope digest that is nobody's. -/
theorem grantApproval_outside_grant :
    ∃ t entry grant, runLabels (ServiceState.step .ascii sampleDigest {})
        { repo := { scopes := projectScopes } }
        (grantRun "project-b" {.passive, .intrusive} "digest-z") = some t ∧
      t.grantApprovals = [entry] ∧ entry.repo.grants.get? entry.grantId = some grant ∧
      grant.projectId = "project-b" ∧ grant.riskCaps = {.passive} ∧
      entry.approval.approvedRisks = {.passive, .intrusive} ∧
      entry.approval.scopeDigest = "digest-z" ∧ ¬entry.Within .ascii := by
  refine ⟨_, _, _, rfl, rfl, rfl, rfl, rfl, rfl, rfl, ?_⟩
  rintro ⟨_, _, _, grant, -, -, -, -, hgrant, -, -, hcaps, -⟩
  cases hgrant
  revert hcaps
  decide

theorem grantApprovals_within_own_project :
    ∃ t, Reaches (ServiceState.step .ascii sampleDigest {}) ServiceState.SuppliedWithin
        { repo := { scopes := projectScopes } } t ∧ t.grantApprovals.length = 1 ∧
      ∀ entry ∈ t.grantApprovals, entry.Within .ascii ∧
        t.repo.approvals.get? entry.approval.id = some entry.approval := by
  have hmeets : runMeets (ServiceState.step .ascii sampleDigest {}) ServiceState.SuppliedWithin
      { repo := { scopes := projectScopes } } (grantRun "project-a" {.passive} "digest-a") := by
    -- Only the last call goes through the grant.
    refine ⟨trivial, fun t ht => ?_⟩
    cases ht
    refine ⟨trivial, fun t ht => ?_⟩
    cases ht
    refine ⟨trivial, fun t ht => ?_⟩
    cases ht
    refine ⟨?_, fun t ht => trivial⟩
    intro grantId hgrant assessment scope grant hassessment hscope hget
    cases hgrant
    cases hassessment
    cases hscope
    cases hget
    exact ⟨subset_rfl, rfl, rfl⟩
  have hreach := Reaches.of_runLabels rfl hmeets
  exact ⟨_, hreach, rfl, grantApprovals_within hreach⟩

end SecOpent
