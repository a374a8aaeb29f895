import SecOpent.Assessments.Service
import SecOpent.Transition.Runs

/-!
# The life of an assessment

The operations of `AssessmentService` as they read and write their repositories: one call after the
other, and what was written before an exception stays written. Every operation reads and checks
first, saves a plan or an approval next and writes the assessment last, so an exception leaves the
repositories as they were. Over any sequence of operations an assessment moves along
`ALLOWED_TRANSITIONS`, and from its approval on it is bound to an approval of the plan it executes.

## Main definitions

* `Serving α`: a service call that keeps its writes when it raises
* `perform`: the operations in the order of their reads and writes
* `ApprovalBound`, `Bound`: the stored approval of an assessment pins its active plan
* `OperationSequence`: the repositories after a sequence of operations with fresh ids

## Main results

* `perform_eq_serve`: an operation that raises has written nothing
* `status_change_allowed`, `bound_of_effect`: what one operation preserves
* `assessment_lifecycle`: what every sequence of operations preserves
-/

namespace SecOpent

open Python Transition

/-! ## Calls that keep their writes -/

/-- A call on the repositories that returns or raises; what it wrote before stays. -/
abbrev Serving (α : Type) := ExceptT ServiceError (StateM Repositories) α

namespace Serving

variable {α β : Type}

/-- A read of the repositories, or a check. -/
def read (f : Repositories → Except ServiceError α) : Serving α := fun repo => (f repo, repo)

/-- A write of the repositories, which may be refused. -/
def write (f : Repositories → Except ServiceError Repositories) : Serving Unit := fun repo =>
  match f repo with
  | .ok repo' => (.ok (), repo')
  | .error e => (.error e, repo)

/-- The call does what a computation on the repositories says, and writes nothing when it raises. -/
def Agrees (x : Serving Unit) (repo : Repositories) (result : Except ServiceError Repositories) :
    Prop :=
  x repo = match result with
    | .ok repo' => (.ok (), repo')
    | .error e => (.error e, repo)

variable {repo : Repositories}

theorem agrees_write (f : Repositories → Except ServiceError Repositories) :
    Agrees (write f) repo (f repo) := rfl

theorem bind_apply (x : Serving α) (k : α → Serving β) :
    (x >>= k) repo = match x repo with
      | (.ok a, t) => k a t
      | (.error e, t) => (.error e, t) := by
  simp only [bind, ExceptT.bind, ExceptT.mk, StateT.bind, ExceptT.bindCont]
  rcases x repo with ⟨_ | _, t⟩
  · rfl
  · rfl

theorem agrees_of_read_ok {f : Repositories → Except ServiceError α} {k : α → Serving Unit} {a : α}
    {result : Except ServiceError Repositories} (hf : f repo = .ok a)
    (h : Agrees (k a) repo result) : Agrees (read f >>= k) repo result := by
  unfold Agrees
  rw [bind_apply, read, hf]
  exact h

theorem agrees_of_read_error {f : Repositories → Except ServiceError α} {k : α → Serving Unit}
    {e : ServiceError} (hf : f repo = .error e) : Agrees (read f >>= k) repo (.error e) := by
  unfold Agrees
  rw [bind_apply, read, hf]

/-- A check, and then a call that agrees if the check passes. -/
theorem agrees_read {f : Repositories → Except ServiceError α} {k : α → Serving Unit}
    {result : α → Except ServiceError Repositories} (h : ∀ a, Agrees (k a) repo (result a)) :
    Agrees (read f >>= k) repo (f repo >>= result) := by
  cases hf : f repo with
  | error e => exact agrees_of_read_error hf
  | ok a => exact agrees_of_read_ok hf (h a)

/-- Two writes, the second of which is not refused. -/
theorem agrees_write_write {f : Repositories → Except ServiceError Repositories}
    {g : Repositories → Repositories} :
    Agrees (write f >>= fun _ => write fun repo => .ok (g repo)) repo
      (f repo >>= fun repo' => pure (g repo')) := by
  unfold Agrees
  rw [bind_apply, write]
  cases f repo with
  | error e => rfl
  | ok repo' => rfl

end Serving

/-! ## The operations -/

variable (U : Unicode) (H : CanonicalDigest) (service : AssessmentService)

namespace AssessmentService.Stateful

open Serving

/-- `AssessmentRepository.get`, or the `LookupError` of every operation. -/
def get (assessmentId : String) : Serving Assessment := read fun repo => repo.assessment assessmentId

/-- `AssessmentRepository.add`. -/
def add (assessment : Assessment) : Serving Unit :=
  write fun repo => .ok (repo.addAssessment assessment)

/-- A check that reads no repository. -/
def check {α : Type} (result : Except ServiceError α) : Serving α := read fun _ => result

/-- `create`. -/
def create (token projectId scopeSnapshotId : String) (mode : ExecutionMode) : Serving Unit := do
  let assessment ← check (Assessment.create ("asm-" ++ token) projectId scopeSnapshotId mode)
  add assessment

/-- `attach_plan`. -/
def attachPlan (token assessmentId : String) (steps : List PlanStep) : Serving Unit := do
  let assessment ← get assessmentId
  check (assertTransition assessment.status .awaitingApproval)
  let plan ← check (ExecutionPlan.create ("plan-" ++ token) assessmentId 1 steps
    (H.plan assessmentId 1 steps))
  write fun repo => repo.savePlan plan
  add { assessment with status := .awaitingApproval, activePlanId := some plan.id }

/-- `approve`. -/
def approve (token : String) (call : ApproveCall) (now : Time) : Serving Unit := do
  let approvedBy ← read fun repo => service.approver U repo call now
  let assessment ← get call.assessmentId
  let planId ← check (match assessment.activePlanId with
    | none => .error (.validation "assessment has no plan to approve")
    | some planId => .ok planId)
  check (assertTransition assessment.status .approved)
  let plan ← read fun repo => match repo.plans.get? planId with
    | none => .error (.lookup "active plan not found")
    | some plan => .ok plan
  let approval ← check (Approval.create (approvalOf H token call approvedBy assessment plan))
  write fun repo => repo.saveApproval approval
  add { assessment with status := .approved, approvalId := some approval.id }

/-- `reject`. -/
def reject (assessmentId : String) (reason : Str) (actorRole : String) : Serving Unit := do
  check (requireHuman actorRole)
  let assessment ← get assessmentId
  check (assertTransition assessment.status .rejected)
  check (raiseUnless (!(strip reason).isEmpty) (.validation "rejection reason must be non-empty"))
  add { assessment with status := .rejected }

/-- `start`. -/
def start (assessmentId actorRole : String) (grantId : Option String) (now : Time) :
    Serving Unit := do
  read fun repo => service.authorizeStart U repo assessmentId actorRole grantId now
  let assessment ← get assessmentId
  check (assertTransition assessment.status .queued)
  let planId := assessment.activePlanId.getD ""
  let approvalId := assessment.approvalId.getD ""
  check (raiseUnless (planId != "") (.validation "assessment has no plan to execute"))
  check (raiseUnless (approvalId != "") (.validation "assessment has no approval"))
  let updated ← check (assessment.start planId approvalId)
  add updated

/-- The operations that only move an assessment to another status. -/
def moveTo (assessmentId : String) (target : AssessmentStatus) (control : Option ControlState) :
    Serving Unit := do
  let assessment ← get assessmentId
  check (assertTransition assessment.status target)
  add { assessment with status := target, control := control.getD assessment.control }

end AssessmentService.Stateful

open AssessmentService in
/-- **The operations of the service**, on repositories that keep what was written. The calls on grants
that may come between them write the tables of grants and scopes only. -/
def perform : ServiceCall → Serving Unit
  | .create token projectId scopeSnapshotId mode =>
    Stateful.create token projectId scopeSnapshotId mode
  | .attachPlan token assessmentId steps => Stateful.attachPlan H token assessmentId steps
  | .approve token call now => Stateful.approve U H service token call now
  | .reject assessmentId reason actorRole => Stateful.reject assessmentId reason actorRole
  | .start assessmentId actorRole grantId now =>
    Stateful.start U service assessmentId actorRole grantId now
  | .markRunning assessmentId => Stateful.moveTo assessmentId .running none
  | .complete assessmentId => Stateful.moveTo assessmentId .completed none
  | .fail assessmentId => Stateful.moveTo assessmentId .failed none
  | .pause assessmentId => Stateful.moveTo assessmentId .paused (some .pauseRequested)
  | .resume assessmentId => Stateful.moveTo assessmentId .running (some .resumeRequested)
  | .cancel assessmentId => Stateful.moveTo assessmentId .cancelled (some .cancelRequested)
  | call => Serving.write fun repo => serve U H service repo call

section Refinement

open Serving AssessmentService

variable {U H service} {repo : Repositories}

theorem agrees_moveTo {assessmentId : String} {target : AssessmentStatus}
    {control : Option ControlState} :
    Agrees (Stateful.moveTo assessmentId target control) repo
      (moveTo repo assessmentId target control) := by
  refine agrees_read fun assessment => ?_
  refine agrees_read fun _ => ?_
  exact agrees_write _

theorem agrees_attachPlan {token assessmentId : String} {steps : List PlanStep} :
    Agrees (Stateful.attachPlan H token assessmentId steps) repo
      (attachPlan H repo token assessmentId steps) := by
  refine agrees_read fun assessment => ?_
  refine agrees_read fun _ => ?_
  refine agrees_read fun plan => ?_
  exact agrees_write_write

theorem agrees_reject {assessmentId actorRole : String} {reason : Str} :
    Agrees (Stateful.reject assessmentId reason actorRole) repo
      (reject repo assessmentId reason actorRole) := by
  refine agrees_read fun _ => ?_
  refine agrees_read fun assessment => ?_
  refine agrees_read fun _ => ?_
  refine agrees_read fun _ => ?_
  exact agrees_write _

theorem agrees_start {assessmentId actorRole : String} {grantId : Option String} {now : Time} :
    Agrees (Stateful.start U service assessmentId actorRole grantId now) repo
      (service.start U repo assessmentId actorRole grantId now) := by
  refine agrees_read fun _ => ?_
  refine agrees_read fun assessment => ?_
  refine agrees_read fun _ => ?_
  refine agrees_read fun _ => ?_
  refine agrees_read fun _ => ?_
  refine agrees_read fun updated => ?_
  exact agrees_write _

theorem map_bind {ε α β γ : Type} {x : Except ε α} {f : α → Except ε β} {g : β → γ} :
    (x >>= f).map g = x >>= fun a => (f a).map g := by
  cases x <;> rfl

theorem agrees_approve {token : String} {call : ApproveCall} {now : Time} :
    Agrees (Stateful.approve U H service token call now) repo
      ((service.approve U H repo token call now).map Prod.fst) := by
  rw [AssessmentService.approve, map_bind]
  refine agrees_read fun approvedBy => ?_
  rw [map_bind]
  refine agrees_read fun assessment => ?_
  cases hplanId : assessment.activePlanId with
  | none => rfl
  | some planId =>
    simp only [map_bind]
    refine agrees_of_read_ok rfl ?_
    refine agrees_read fun _ => ?_
    cases hplan : repo.plans.get? planId with
    | none => exact agrees_of_read_error (by simp [hplan])
    | some plan =>
      simp only [map_bind]
      refine agrees_of_read_ok (a := plan) (by simp [hplan]) ?_
      refine agrees_read fun approval => ?_
      exact agrees_write_write

/-- **An operation that raises has written nothing**: what the operations do in the order of their
reads and writes is what `serve` says. -/
theorem perform_eq_serve (call : ServiceCall) :
    Agrees (perform U H service call) repo (serve U H service repo call) := by
  cases call with
  | create token projectId scopeSnapshotId mode => exact agrees_read fun _ => agrees_write _
  | attachPlan token assessmentId steps => exact agrees_attachPlan
  | approve token call now => exact agrees_approve
  | reject assessmentId reason actorRole => exact agrees_reject
  | start assessmentId actorRole grantId now => exact agrees_start
  | markRunning assessmentId | complete assessmentId | fail assessmentId | pause assessmentId
  | resume assessmentId | cancel assessmentId => exact agrees_moveTo
  | createGrant token projectId name scope riskCaps validFrom validTo actorRole createdAt digest =>
    exact agrees_write _
  | revokeGrant grantId actorRole => exact agrees_write _

end Refinement

/-! ## Sequences of operations -/

/-- The repositories after one operation, whether it returned or raised. -/
def afterCall (repo : Repositories) (call : ServiceCall) : Option Repositories :=
  some (perform U H service call repo).2

/-- The repositories after a sequence of operations with fresh ids. -/
def OperationSequence (repo repo' : Repositories) : Prop :=
  Reaches (afterCall U H service) (fun repo call => call.TokenFresh repo) repo repo'

/-- The terminal statuses. -/
def AssessmentStatus.isTerminal : AssessmentStatus → Bool
  | .rejected | .completed | .partially | .failed | .cancelled => true
  | _ => false

/-- The statuses from the approval on. -/
def AssessmentStatus.isApproved : AssessmentStatus → Bool
  | .approved | .queued | .running | .paused | .completed | .partially | .failed | .cancelled => true
  | _ => false

/-- **The approval binding**: a stored approval of the assessment pins its active plan. -/
def ApprovalBound (repo : Repositories) (row : Assessment) : Prop :=
  ∃ approval plan, row.approvalId = some approval.id ∧
    repo.approvals.get? approval.id = some approval ∧ approval.assessmentId = row.id ∧
    row.activePlanId = some plan.id ∧ repo.plans.get? plan.id = some plan ∧
    approval.planDigest = plan.digest

/-- Every assessment is bound from its approval on. -/
def Bound (repo : Repositories) : Prop :=
  ∀ id row, repo.assessments.get? id = some row → row.status.isApproved = true →
    ApprovalBound repo row

section Sequences

variable {U H service} {repo repo' : Repositories} {call : ServiceCall}

/-- What one operation does: nothing if it raises, and what `serve` does if it returns. -/
theorem afterCall_cases (hfresh : call.TokenFresh repo)
    (h : afterCall U H service repo call = some repo') :
    repo' = repo ∨ ServeEffect (some call) repo repo' := by
  have hagrees : perform U H service call repo = _ := perform_eq_serve call
  rw [afterCall, hagrees, Option.some.injEq] at h
  cases hserve : serve U H service repo call with
  | error e =>
    rw [hserve] at h
    exact .inl h.symm
  | ok repo₁ =>
    rw [hserve] at h
    cases h
    exact .inr (serve_effect hserve hfresh)

theorem raise_unchanged {e : ServiceError} (h : (perform U H service call repo).1 = .error e) :
    (perform U H service call repo).2 = repo := by
  have hagrees : perform U H service call repo = _ := perform_eq_serve call
  rw [hagrees] at h ⊢
  cases hserve : serve U H service repo call with
  | error e => rfl
  | ok repo₁ =>
    rw [hserve] at h
    cases h

theorem ApprovalBound.extend {row : Assessment} (h : ApprovalBound repo row)
    (hplans : repo.plans.Extends repo'.plans) (happrovals : repo.approvals.Extends repo'.approvals) :
    ApprovalBound repo' row := by
  obtain ⟨approval, plan, hid, hstored, hassessment, hactive, hplan, hdigest⟩ := h
  exact ⟨approval, plan, hid, happrovals _ _ hstored, hassessment, hactive, hplans _ _ hplan, hdigest⟩

theorem isTerminal_allowed {status : AssessmentStatus} (h : status.isTerminal = true) :
    allowedTransitions status = [] := by
  cases status <;> first | rfl | cases h

/-- Only an approved assessment moves on to a status after its approval. -/
theorem isApproved_of_moved {status target : AssessmentStatus}
    (h : target ∈ allowedTransitions status) (hne : target ≠ .approved)
    (happroved : target.isApproved = true) : status.isApproved = true := by
  revert h hne happroved
  cases status <;> cases target <;> decide

/-- A row after an effect was there before, or it was written. -/
theorem row_cases {served : Option ServiceCall} (heffect : ServeEffect served repo repo')
    {id : String} {row : Assessment} (h : repo'.assessments.get? id = some row) :
    repo.assessments.get? id = some row ∨ (WrittenRow served repo repo' row ∧ row.id = id) := by
  rcases heffect.assessments with heq | ⟨written, hwritten, heq⟩
  · rw [heq] at h
    exact .inl h
  · rw [heq, Table.get?_put] at h
    split at h
    next hid =>
      cases h
      exact .inr ⟨hwritten, hid.symm⟩
    next => exact .inl h

/-- **The binding survives every operation.** -/
theorem bound_of_effect {served : Option ServiceCall} (h : Bound repo)
    (heffect : ServeEffect served repo repo') : Bound repo' := by
  intro id row hrow happroved
  rcases row_cases heffect hrow with hrow | ⟨hwritten, hid⟩
  · exact (h id row hrow happroved).extend heffect.plans heffect.approvals
  · cases hwritten with
    | created row hstatus hplan hnew =>
      rw [hstatus] at happroved
      cases happroved
    | planned row plan hold hstatus hne hassessment hplan => cases happroved
    | approved row plan approval token args now hcall hargs hrisks hscope hold hstatus hactive hplan
        hstored hassessment hdigest =>
      exact ⟨approval, plan, rfl, hstored, hassessment, hactive, heffect.plans _ _ hplan, hdigest⟩
    | moved row target control hold htarget hplan hne hpause =>
      have hbound := h row.id row hold (isApproved_of_moved htarget hne happroved)
      obtain ⟨approval, plan, hid, hstored, hassessment, hactive, hplan, hdigest⟩ :=
        hbound.extend heffect.plans heffect.approvals
      exact ⟨approval, plan, hid, hstored, hassessment, hactive, hplan, hdigest⟩

/-- **An operation moves an assessment along a legal transition**, and a new one is a draft. -/
theorem status_change_allowed {served : Option ServiceCall} (heffect : ServeEffect served repo repo')
    {id : String} {row : Assessment} (h : repo'.assessments.get? id = some row) :
    (repo.assessments.get? id = none ∧ row.status = .draft) ∨
      ∃ old, repo.assessments.get? id = some old ∧
        (row.status ≠ old.status → row.status ∈ allowedTransitions old.status) := by
  rcases row_cases heffect h with hrow | ⟨hwritten, hid⟩
  · exact .inr ⟨row, hrow, fun hne => absurd rfl hne⟩
  · subst hid
    cases hwritten with
    | created row hstatus hplan hnew => exact .inl ⟨hnew, hstatus⟩
    | planned row plan hold hstatus => exact .inr ⟨row, hold, fun _ => hstatus⟩
    | approved row plan approval token args now hcall hargs hrisks hscope hold hstatus =>
      refine .inr ⟨row, hold, fun _ => ?_⟩
      rw [hstatus]
      simp [allowedTransitions]
    | moved row target control hold htarget => exact .inr ⟨row, hold, fun _ => htarget⟩

/-- No assessment goes away. -/
theorem row_kept {served : Option ServiceCall} (heffect : ServeEffect served repo repo') {id : String}
    {row : Assessment} (h : repo.assessments.get? id = some row) :
    ∃ row', repo'.assessments.get? id = some row' := by
  rcases heffect.assessments with heq | ⟨written, -, heq⟩
  · exact ⟨row, by rw [heq, h]⟩
  · rw [heq, Table.get?_put]
    split
    next => exact ⟨written, rfl⟩
    next => exact ⟨row, h⟩

/-- An assessment after one operation that returned or raised. -/
theorem row_after (hfresh : call.TokenFresh repo) {id : String} {row : Assessment}
    (h : repo.assessments.get? id = some row) :
    ∃ row', (perform U H service call repo).2.assessments.get? id = some row' ∧
      (row'.status ≠ row.status → row'.status ∈ allowedTransitions row.status) := by
  have hcall : afterCall U H service repo call = some (perform U H service call repo).2 := rfl
  rcases afterCall_cases hfresh hcall with heq | heffect
  · exact ⟨row, by rw [heq, h], fun hne => absurd rfl hne⟩
  · obtain ⟨row', hrow'⟩ := row_kept heffect h
    refine ⟨row', hrow', ?_⟩
    rcases status_change_allowed heffect hrow' with ⟨hnone, -⟩ | ⟨old, hold, hchange⟩
    · rw [h] at hnone
      cases hnone
    · rw [h] at hold
      cases hold
      exact hchange

theorem new_row_draft (hfresh : call.TokenFresh repo) {id : String} {row : Assessment}
    (hnone : repo.assessments.get? id = none)
    (hrow : (perform U H service call repo).2.assessments.get? id = some row) :
    row.status = .draft := by
  have hcall : afterCall U H service repo call = some (perform U H service call repo).2 := rfl
  rcases afterCall_cases hfresh hcall with heq | heffect
  · rw [heq, hnone] at hrow
    cases hrow
  · rcases status_change_allowed heffect hrow with ⟨-, hdraft⟩ | ⟨old, hold, -⟩
    · exact hdraft
    · rw [hnone] at hold
      cases hold

/-- The assessment has the status. -/
def AssessmentHas (id : String) (status : AssessmentStatus) (repo : Repositories) : Prop :=
  ∃ row, repo.assessments.get? id = some row ∧ row.status = status

theorem terminal_kept (h : OperationSequence U H service repo repo') {id : String} {row : Assessment}
    (hrow : repo.assessments.get? id = some row) (hterminal : row.status.isTerminal = true) :
    AssessmentHas id row.status repo' := by
  refine h.invariant ⟨row, hrow, rfl⟩ ?_
  rintro repo₁ call repo₂ ⟨row₁, hrow₁, hstatus₁⟩ hfresh hstep
  obtain ⟨row₂, hrow₂, hchange⟩ := row_after hfresh hrow₁
  cases hstep
  refine ⟨row₂, hrow₂, ?_⟩
  by_contra hne
  rw [← hstatus₁] at hne
  have hallowed := hchange hne
  rw [hstatus₁, isTerminal_allowed hterminal] at hallowed
  cases hallowed

theorem bound_of_sequence (hstart : repo.assessments = .empty)
    (h : OperationSequence U H service repo repo') : Bound repo' := by
  refine h.invariant ?_ fun repo₁ call repo₂ hbound hfresh hstep => ?_
  · intro id row hrow
    rw [hstart, Table.get?_empty] at hrow
    cases hrow
  · rcases afterCall_cases hfresh hstep with rfl | heffect
    · exact hbound
    · exact bound_of_effect hbound heffect

/-- **Every sequence of operations** keeps the approval binding, moves assessments along legal
transitions only, leaves no terminal status, and changes nothing where it raises. -/
theorem assessment_lifecycle (hstart : repo.assessments = .empty)
    (h : OperationSequence U H service repo repo') :
    Bound repo' ∧
      (∀ call, call.TokenFresh repo' → ∀ id row, repo'.assessments.get? id = some row →
        ∃ row', (perform U H service call repo').2.assessments.get? id = some row' ∧
          (row'.status ≠ row.status → row'.status ∈ allowedTransitions row.status)) ∧
      (∀ call, call.TokenFresh repo' → ∀ id row, repo'.assessments.get? id = none →
        (perform U H service call repo').2.assessments.get? id = some row → row.status = .draft) ∧
      (∀ call e, (perform U H service call repo').1 = .error e →
        (perform U H service call repo').2 = repo') ∧
      ∀ later, OperationSequence U H service repo' later → ∀ id row,
        repo'.assessments.get? id = some row → row.status.isTerminal = true →
          ∃ row', later.assessments.get? id = some row' ∧ row'.status = row.status := by
  refine ⟨bound_of_sequence hstart h, ?_, ?_, ?_, ?_⟩
  · exact fun call hfresh id row hrow => row_after hfresh hrow
  · exact fun call hfresh id row hnone hrow => new_row_draft hfresh hnone hrow
  · exact fun call e hraise => raise_unchanged hraise
  · exact fun later hlater id row hrow hterminal => terminal_kept hlater hrow hterminal

end Sequences

/-- An assessment from its creation to its completion; it is approved a second time in between. -/
def completedRun : List ServiceCall :=
  [.create "1" "project-a" "scope-a" .approval,
    .attachPlan "1" "asm-1" [⟨"ports", "nmap", .low, .empty, []⟩],
    .approve "1" ⟨"asm-1", "operator", {.low}, ∅, "digest-a", "human", none⟩ 0,
    .approve "2" ⟨"asm-1", "operator", {.low}, ∅, "digest-a", "human", none⟩ 0,
    .start "asm-1" "human" none 0,
    .markRunning "asm-1",
    .complete "asm-1"]

theorem assessment_lifecycle_completed :
    ∃ repo : Repositories, OperationSequence .ascii sampleDigest {} {} repo ∧
      (repo.assessments.get? "asm-1").map Assessment.status = some .completed ∧
      Bound repo := by
  have hstatus : (runLabels (afterCall .ascii sampleDigest {}) {} completedRun).map
      (fun repo => (repo.assessments.get? "asm-1").map Assessment.status) =
        some (some .completed) := by
    decide +kernel
  have hmeets : runMeets (afterCall .ascii sampleDigest {}) (fun repo call => call.TokenFresh repo) {}
      completedRun := by
    decide +kernel
  obtain ⟨repo, hrun, hcompleted⟩ := Option.map_eq_some_iff.mp hstatus
  have hsequence : OperationSequence .ascii sampleDigest {} {} repo := .of_runLabels hrun hmeets
  exact ⟨repo, hsequence, hcompleted, (assessment_lifecycle rfl hsequence).1⟩

end SecOpent
