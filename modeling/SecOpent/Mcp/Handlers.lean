import SecOpent.Assessments.LlmPlanner
import SecOpent.Assessments.Service
import SecOpent.Audit.Chain
import SecOpent.Audit.Service
import SecOpent.Python.UnitOfWork
import SecOpent.ReasoningLoop.PauseControl

/-!
# The tool handlers of the MCP server

`interfaces/mcp/handlers.py`: each tool opens a unit of work, does its writes in one session, and
answers with a result. A guard turns exceptions into error results, inside the unit of work for most
tools and around it for the loop tools. An error that a guard hides inside the unit of work does not
roll it back, so a tool that raises after a write commits the write and answers with an error.

## Main definitions

* `McpDatabase`, `DbWrite`: the tables, and one write of a session
* `HandlerError`, `ToolResult`, `guardResult`: what a handler raises, and what `_guard` makes of it
* `ToolCall`, `ToolCall.run`: the tools, and one call
-/

namespace SecOpent

open Python

/-! ## Tables -/

/-- `Project`, without its status. -/
structure Project where
  id : String
  name : String
  createdAt : Time

/-- `Project.create`. -/
def Project.create (projectId : String) (name : Str) (now : Time) : Except ServiceError Project :=
  let normalizedId := strip projectId.toList
  let normalizedName := strip name
  if normalizedId.isEmpty then .error (.validation "project id must not be empty")
  else if normalizedName.isEmpty then .error (.validation "project name must not be empty")
  else .ok ⟨String.ofList normalizedId, String.ofList normalizedName, now⟩

/-- `Report`; the renderer makes it. -/
structure Report where
  id : String
  assessmentId : String
  title : String
  sections : List (String × String)
  findingCount : ℕ
  coverageRate : FloatRepr
  completenessOk : Bool
  digest : String

/-- The tables that the handlers write. -/
structure McpDatabase where
  core : Repositories := {}
  projects : Table Project Project.id := .empty
  auditEvents : List AuditEvent := []
  signedEvents : List SignedAuditEvent := []
  reports : Table Report Report.id := .empty
  loops : Dict String LoopState := .empty

/-- A write of a session. `core` is what an operation of a service leaves in its tables. -/
inductive DbWrite
  | core (repo : Repositories)
  | project (project : Project)
  | audit (event : AuditEvent)
  | signed (event : SignedAuditEvent)
  | report (report : Report)
  | loop (state : LoopState)

/-- The tables after a write. -/
def McpDatabase.apply (db : McpDatabase) : DbWrite → McpDatabase
  | .core repo => { db with core := repo }
  | .project project => { db with projects := db.projects.put project }
  | .audit event => { db with auditEvents := db.auditEvents ++ [event] }
  | .signed event => { db with signedEvents := db.signedEvents ++ [event] }
  | .report report => { db with reports := db.reports.put report }
  | .loop state => { db with loops := db.loops.set state.loopId.value state }

/-! ## Exceptions and results -/

/-- What the body of a handler raises. -/
inductive HandlerError
  /-- `AssessmentPermissionError` and `ApprovalRejected`. -/
  | humanOnly (message : String)
  | lookup (message : String)
  | value (message : String)
  | internal (message : String)
  /-- The session fails to write its rows, and cannot commit any more. -/
  | database (message : String)

/-- The session of the handler is broken. -/
def HandlerError.broken : HandlerError → Bool
  | .database _ => true
  | _ => false

/-- What a service raises, as `_guard` sorts it. -/
def ServiceError.raised : ServiceError → HandlerError
  | .lookup message => .lookup message
  | .validation message => .value message
  | .permission message => .humanOnly message
  | .grantNotFound message => .lookup message
  | .integrity => .database "UNIQUE constraint failed"
  | .python (.domainValidation message) => .value message
  | .python .valueError => .value "invalid value"

/-- What the audit recorder raises. -/
def AuditError.raised : AuditError → HandlerError
  | .validation message => .value message

/-- The result of a tool; the fields of a success are left out. -/
inductive ToolResult
  | success
  | humanRequired (action assessmentId message : String)
  | error (code message : String)
  deriving DecidableEq

/-- `_guard`. -/
def guardResult (action : String) : HandlerError → ToolResult
  | .humanOnly message => .humanRequired action "" message
  | .lookup message => .error "NOT_FOUND" message
  | .value message => .error "INVALID_ARGUMENT" message
  | .internal message => .error "INTERNAL" message
  | .database message => .error "INTERNAL" message

/-! ## Calls -/

/-- The arguments of `scope_freeze`, with the generated token, the clock and the digest. -/
structure FreezeArgs where
  projectId : Str
  includeRules : List Str
  excludeRules : Option (List Str) := none
  ports : Option (List ℤ) := none
  approvedBy : String
  requestsPerSecond : ℚ := 5
  concurrency : ℤ := 3
  maxRequests : ℤ := 50000
  cloudAccounts : Option (List Str) := none
  token : String
  now : Time
  digest : String

/-- The arguments of `mission_create`, with the generated tokens, the clock, the digest of the scope,
and the steps that the planner answers for a cap. -/
structure MissionArgs where
  projectId : String
  target : Str
  intent : String
  grantId : String
  riskCap : Option String := none
  scopeToken : String
  assessmentToken : String
  planToken : String
  approvalToken : String
  now : Time
  digest : String
  steps : RiskClass → Except HandlerError (List PlanStep)

/-- A call of a tool. What it generates is given, and so is what the catalog, the planner and the
report renderer answer. The tools that only read are one. -/
inductive ToolCall
  | projectCreate (name : Str) (token : String) (now : Time)
  | scopeFreeze (args : FreezeArgs)
  | assessmentCreate (projectId scopeSnapshotId mode token : String)
  | planGenerate (assessmentId token : String) (steps : Except HandlerError (List PlanStep))
  | planApprove (assessmentId : String) (approvedRisks : List String)
      (approvedCapabilities : List String) (grantId : Option String) (token : String) (now : Time)
  | assessmentStart (assessmentId : String) (grantId : Option String) (now : Time)
  | missionCreate (args : MissionArgs)
  | assessmentPause (assessmentId : String)
  | assessmentResume (assessmentId : String)
  | assessmentCancel (assessmentId : String)
  | reportRender (assessmentId : String) (report : Except HandlerError Report)
  | loopPause (loopId reason : String)
  | loopResume (loopId : String)
  | loopCreate (loopId : LoopId) (assessmentId : String) (grantId : Option String)
      (maxSteps maxWallSeconds maxTotalTokens : Option ℤ) (now : Time)
  | loopStop (loopId : String) (grantId : Option String) (actor : String) (now : Time)
  | read (action : String) (guarded : Bool) (answer : Except HandlerError ToolResult)

/-- What the outside does during a call: whether the session can write its rows before a query,
whether the audit rows can be read back, whether the commit succeeds, and whether a thread starts. -/
structure Outside where
  flushes : Bool := true
  readable : Bool := true
  commits : Bool := true
  threads : Bool := true

/-- The parts of `McpRuntime` that the handlers use; the loops are in the database. -/
structure McpRuntime where
  U : Unicode
  H : Sha256
  canonical : CanonicalDigest
  order : RowOrder
  signer : AuditSigner
  chain : AuditChain := {}
  clock : DateTime
  resumeScheduler : Bool := true
  loopControl : Bool := true

/-- The body of a handler. -/
abbrev McpBody (α : Type) := Acting HandlerError DbWrite α

section Bodies

variable (runtime : McpRuntime) (outside : Outside) (db : McpDatabase)

/-- What a service returns, or raises. -/
def served {α : Type} (answer : Except ServiceError α) : McpBody α :=
  .ofExcept (answer.mapError ServiceError.raised)

/-- A query: the session writes its rows first. -/
def query : McpBody Unit :=
  if outside.flushes then pure () else .raise (.database "rows cannot be written")

/-- What an operation of a service leaves in its tables. -/
def writeCore (repo : Repositories) : McpBody Unit := .effect (.core repo)

/-- `_audit`. -/
def auditSigned (actor action resourceType resourceId : String) (payload : List (String × Json)) :
    McpBody Unit :=
  match (runtime.chain.record runtime.H runtime.U runtime.signer
      { actor, action, resourceType, resourceId, payload, now := runtime.clock }).2 with
  | .error error => .raise error.raised
  | .ok event => .effect (.signed event)

/-- `AuditService.record`, which reads the rows back. -/
def auditPlain (actor action resourceType resourceId : String) (payload : List (String × Json)) :
    McpBody Unit := do
  query outside
  if !outside.readable then .raise (.internal "an audit row cannot be read back")
  else
    match AuditService.record runtime.H runtime.U runtime.order db.auditEvents
        { actor, action, resourceType, resourceId, payload, now := runtime.clock } with
    | .error error => .raise error.raised
    | .ok event => .effect (.audit event)

/-- `ScopeLimits(..)`. -/
def scopeLimits (requestsPerSecond : ℚ) (concurrency maxRequests : ℤ) :
    Except ServiceError ScopeLimits :=
  if h : 0 < requestsPerSecond ∧ 1 ≤ concurrency ∧ 1 ≤ maxRequests then
    .ok ⟨requestsPerSecond, concurrency, maxRequests, h⟩
  else .error (.validation "scope limits must be positive")

/-- `ScopeDraft(..)`. -/
def scopeDraft (projectId : Str) (includeRules excludeRules : List Str) (ports : List ℤ)
    (limits : ScopeLimits) (cloudAccounts : List Str) : Except ServiceError ScopeDraft :=
  if h : strip projectId ≠ [] ∧ includeRules ≠ [] then
    if hports : ∀ p ∈ ports, 1 ≤ p ∧ p ≤ 65535 then
      .ok ⟨projectId, includeRules, excludeRules, ports, limits, cloudAccounts, h.1, h.2, hports⟩
    else .error (.validation "port must be between 1 and 65535")
  else .error (.validation "project and include targets are required")

/-- `ports or [443]`. -/
def orDefaultPorts : Option (List ℤ) → List ℤ
  | none => [443]
  | some [] => [443]
  | some ports => ports

/-- The snapshot of `ScopeService.freeze`, before it is written. -/
def FreezeArgs.snapshot (U : Unicode) (args : FreezeArgs) : Except ServiceError ScopeSnapshot := do
  let limits ← scopeLimits args.requestsPerSecond args.concurrency args.maxRequests
  let draft ← scopeDraft args.projectId args.includeRules (args.excludeRules.getD [])
    (orDefaultPorts args.ports) limits (args.cloudAccounts.getD [])
  (draft.freeze U ("scope-" ++ args.token) args.approvedBy args.now args.digest).mapError .python

/-- `ScopeRepository.add_snapshot`. -/
def addSnapshot (repo : Repositories) (snapshot : ScopeSnapshot) : Except ServiceError Repositories :=
  match repo.scopes.insert snapshot with
  | none => .error .integrity
  | some scopes => .ok { repo with scopes }

/-- The payload of `scope.frozen`. -/
def frozenPayload (projectId digest : String) : List (String × Json) :=
  [("project_id", .text projectId), ("digest", .text digest)]

/-- `scope_freeze`: the event is recorded by the service, and once more on the signed chain. -/
def freezeBody (args : FreezeArgs) : McpBody ToolResult := do
  let snapshot ← served (args.snapshot runtime.U)
  let repo ← served (addSnapshot db.core snapshot)
  writeCore repo
  auditPlain runtime outside db args.approvedBy "scope.frozen" "scope_snapshot" snapshot.id
    (frozenPayload (String.ofList args.projectId) snapshot.digest)
  auditSigned runtime args.approvedBy "scope.frozen" "scope_snapshot" snapshot.id
    (frozenPayload (String.ofList args.projectId) snapshot.digest)
  pure .success

/-- `ExecutionMode(mode)`. -/
def executionMode (mode : String) : Except ServiceError ExecutionMode :=
  if mode = "approval" then .ok .approval
  else if mode = "scope_autopilot" then .ok .scopeAutopilot
  else .error (.validation ("'" ++ mode ++ "' is not a valid ExecutionMode"))

/-- `assessment_create`. -/
def createBody (projectId scopeSnapshotId mode token : String) : McpBody ToolResult := do
  let mode ← served (executionMode mode)
  let repo ← served (AssessmentService.create db.core token projectId scopeSnapshotId mode)
  writeCore repo
  pure .success

/-- `plan_generate`. -/
def generateBody (assessmentId token : String) (steps : Except HandlerError (List PlanStep)) :
    McpBody ToolResult := do
  let assessment ← served (db.core.assessment assessmentId)
  match db.core.scopes.get? assessment.scopeSnapshotId with
  | none => .raise (.lookup "scope snapshot not found")
  | some _ => do
    let steps ← (.ofExcept steps : McpBody _)
    if steps.isEmpty then .raise (.value "no required test classes for the scope's asset types")
    else do
      let repo ← served
        (AssessmentService.attachPlan runtime.canonical db.core token assessmentId steps)
      writeCore repo
      query outside
      pure .success

/-- `frozenset(RiskClass(r) for r in risks)`. -/
def riskClasses : List String → Except ServiceError (Finset RiskClass)
  | [] => .ok ∅
  | risk :: risks =>
    match RiskClass.ofValue? risk with
    | none => .error (.validation ("'" ++ risk ++ "' is not a valid RiskClass"))
    | some first => (riskClasses risks).map fun rest => insert first rest

/-- `_scope_digest`. -/
def scopeDigest (assessmentId : String) : Except ServiceError String :=
  match (db.core.assessments.get? assessmentId).bind fun a =>
      db.core.scopes.get? a.scopeSnapshotId with
  | none => .error (.lookup ("assessment " ++ assessmentId ++ " or its scope not found"))
  | some snapshot => .ok snapshot.digest

/-- The call of `approve` by an agent with a grant. -/
def grantApproval (assessmentId grantId scopeDigest : String) (approvedRisks : Finset RiskClass)
    (approvedCapabilities : List String) : ApproveCall where
  assessmentId := assessmentId
  approvedBy := "agent"
  approvedRisks := approvedRisks
  approvedCapabilities := approvedCapabilities.toFinset
  scopeDigest := scopeDigest
  actorRole := "agent"
  grantId := some grantId

/-- `_approve_via_grant`. -/
def approveBody (assessmentId : String) (approvedRisks approvedCapabilities : List String)
    (grantId token : String) (now : Time) : McpBody ToolResult := do
  let risks ← served (riskClasses approvedRisks)
  let digest ← served (scopeDigest db assessmentId)
  let approved ← served (({} : AssessmentService).approve runtime.U runtime.canonical db.core token
    (grantApproval assessmentId grantId digest risks approvedCapabilities) now)
  writeCore approved.1
  query outside
  pure .success

/-- `assessment_start`, with a grant. -/
def startBody (assessmentId grantId : String) (now : Time) : McpBody ToolResult := do
  let repo ← served
    (({} : AssessmentService).start runtime.U db.core assessmentId "agent" (some grantId) now)
  writeCore repo
  pure .success

/-- The highest cap of a grant; `max` of nothing raises. -/
def grantCap (grant : EngagementGrant) : Except ServiceError RiskClass :=
  match [RiskClass.destructive, .intrusive, .active, .low, .passive].find? fun risk =>
      risk ∈ grant.riskCaps with
  | none => .error (.validation "max() iterable argument is empty")
  | some cap => .ok cap

/-- The values of the caps of a grant, sorted. -/
def capNames (grant : EngagementGrant) : List String :=
  (["active", "destructive", "intrusive", "low", "passive"] : List String).filter fun name =>
    (RiskClass.ofValue? name).any fun risk => risk ∈ grant.riskCaps

/-- The end of `mission_create`: the scope, the assessment, the plan, the approval and the start. -/
def missionWrites (args : MissionArgs) (grant : EngagementGrant) (scope : ScopeSnapshot)
    (cap : RiskClass) : McpBody ToolResult := do
  let repo ← served (addSnapshot db.core scope)
  writeCore repo
  let repo ← served
    (AssessmentService.create repo args.assessmentToken args.projectId scope.id .approval)
  writeCore repo
  query outside
  let assessmentId := "asm-" ++ args.assessmentToken
  let steps ← (.ofExcept (args.steps cap) : McpBody _)
  let repo ← served
    (AssessmentService.attachPlan runtime.canonical repo args.planToken assessmentId steps)
  writeCore repo
  query outside
  let approved ← served (({} : AssessmentService).approve runtime.U runtime.canonical repo
    args.approvalToken (grantApproval assessmentId args.grantId scope.digest grant.riskCaps [])
    args.now)
  writeCore approved.1
  query outside
  let repo ← served (({} : AssessmentService).start runtime.U approved.1 assessmentId "agent"
    (some args.grantId) args.now)
  writeCore repo
  auditSigned runtime "agent" "mission.created" "mission" assessmentId
    [("grant_id", .text args.grantId), ("target", .text (String.ofList args.target)),
      ("intent", .text args.intent), ("plan_steps", .int steps.length)]
  pure .success

/-- The checks of `mission_create` on the grant; they answer with error results. -/
def missionBody (args : MissionArgs) (requestedCap : Option RiskClass) : McpBody ToolResult :=
  match (db.core.grants.get? args.grantId).filter fun grant => grant.isActiveAt args.now with
  | none => pure (.error "GRANT_NOT_FOUND" ("grant " ++ args.grantId ++ " is not active"))
  | some grant =>
    if grant.projectId ≠ args.projectId then
      pure (.error "GRANT_NOT_FOUND" "grant does not belong to this project")
    else do
      let draft ← served
        (scopeDraft args.projectId.toList [args.target] [] [80, 443] .default [])
      let scope ← served ((draft.freeze runtime.U ("mscope-" ++ args.scopeToken)
        ("grant:" ++ args.grantId) args.now args.digest).mapError .python)
      let covered ← served ((grant.coversScope runtime.U scope).mapError .python)
      if !covered then
        pure (.error "GRANT_SCOPE_MISMATCH"
          ("target " ++ String.ofList args.target ++ " not covered by grant " ++ args.grantId))
      else do
        let cap ← served (grantCap grant)
        match requestedCap with
        | none => missionWrites runtime outside db args grant scope cap
        | some requested =>
          if riskRank requested > riskRank cap then
            pure (.error "GRANT_RISK_NOT_APPROVED"
              ("risk_cap '" ++ args.riskCap.getD "" ++ "' exceeds grant caps (" ++
                String.intercalate "," (capNames grant) ++ ")"))
          else missionWrites runtime outside db args grant scope requested

/-- `_assessment_control`: the move of the service, and its event. -/
def controlBody (assessmentId action : String)
    (move : Repositories → String → Except ServiceError Repositories) (status : AssessmentStatus) :
    McpBody Unit := do
  let repo ← served (move db.core assessmentId)
  writeCore repo
  auditSigned runtime "agent" ("assessment." ++ action) "assessment" assessmentId
    [("assessment_id", .text assessmentId), ("status", .text status.value)]

/-- The thread that drains the remaining jobs. -/
def startThread : McpBody Unit :=
  if runtime.resumeScheduler && !outside.threads then .raise (.internal "can't start new thread")
  else pure ()

/-- `report_render`. -/
def renderBody (assessmentId : String) (report : Except HandlerError Report) :
    McpBody ToolResult := do
  let _ ← served (db.core.assessment assessmentId)
  let report ← (.ofExcept report : McpBody _)
  .effect (.report report)
  pure .success

/-- `LoopId(loop_id)`. -/
def parseLoopId (text : String) : Except HandlerError LoopId :=
  if h : isLoopIdText text = true then .ok ⟨text, h⟩
  else .error (.value ("LoopId must be 8 lowercase hex chars, got: '" ++ text ++ "'"))

/-- `loop_pause` and `loop_resume`: the caller is always an agent, which the pause control refuses
before it reads anything. -/
def loopControlBody (action loopId : String) : McpBody ToolResult :=
  if !runtime.loopControl then .raise (.lookup "loop control not configured")
  else do
    let _ ← (.ofExcept (parseLoopId loopId) : McpBody _)
    .raise (.humanOnly (action ++ " is human-only (403): agents are rejected"))

/-- `loop_create`, with a grant. -/
def loopCreateBody (loopId : LoopId) (assessmentId grantId : String)
    (maxSteps maxWallSeconds maxTotalTokens : Option ℤ) (now : Time) : McpBody ToolResult := do
  let budget : LoopBudget :=
    { maxSteps := maxSteps.getD LoopBudget.default.maxSteps
      maxTotalTokens := maxTotalTokens.getD LoopBudget.default.maxTotalTokens
      maxWallSeconds := maxWallSeconds.getD LoopBudget.default.maxWallSeconds }
  .effect (.loop
    { loopId, assessmentId
      phase := .initializing
      policySnapshot := "mcp:loop:default"
      budget
      contextHash := String.ofList (List.replicate 64 '0')
      catalogRequiredRemaining := ∅
      catalogRequiredExecuted := ∅
      consecutiveNoSignal := 0
      consecutivePolicyRejected := 0
      startedAt := now
      lastStepAt := none })
  auditSigned runtime "human" "loop.created" "reasoning_loop" loopId.value
    [("assessment_id", .text assessmentId), ("grant_id", .text grantId),
      ("budget", .object [("max_steps", .int budget.maxSteps),
        ("max_total_tokens", .int budget.maxTotalTokens),
        ("max_wall_seconds", .int budget.maxWallSeconds)])]
  pure .success

/-- `loop_stop`, with a grant. -/
def loopStopBody (loopId actor : String) (now : Time) : McpBody ToolResult := do
  let id ← (.ofExcept (parseLoopId loopId) : McpBody _)
  match db.loops.get? id.value with
  | none => .raise (.lookup ("loop '" ++ loopId ++ "' not found"))
  | some state =>
    if state.phase = .emergencyStopped then pure .success
    else do
      .effect (.loop { state with phase := .emergencyStopped, lastStepAt := some now })
      auditSigned runtime (if actor = "" then "human" else actor) "loop.terminated" "reasoning_loop"
        loopId
        [("final_phase", .text LoopPhase.emergencyStopped.value), ("reason", .text "emergency_stop"),
          ("human_reason", .text "stopped via MCP loop_stop (grant)"),
          ("from_phase", .text state.phase.value)]
      pure .success

/-! ## One call -/

/-- `with unit_of_work(): return _guard(action, body)`. -/
def guardedCall (action : String) (body : McpBody ToolResult) : McpDatabase × Option ToolResult :=
  UnitOfWork.guardInside McpDatabase.apply HandlerError.broken (guardResult action) outside.commits db
    body

/-- `_guard(action, with _loop_write_ctx(): body)`. -/
def loopCall (action : String) (body : McpBody ToolResult) : McpDatabase × Option ToolResult :=
  UnitOfWork.guardOutside McpDatabase.apply (guardResult action) (.database "commit failed")
    outside.commits db body

/-- `with unit_of_work(): body`. -/
def plainCall (body : McpBody ToolResult) : McpDatabase × Option ToolResult :=
  UnitOfWork.unguarded McpDatabase.apply outside.commits db body

/-- A tool that needs a grant answers without one. -/
def needsGrant (grantId : Option String) (refusal : ToolResult)
    (call : String → McpDatabase × Option ToolResult) : McpDatabase × Option ToolResult :=
  match grantId with
  | none => (db, some refusal)
  | some grantId => if grantId = "" then (db, some refusal) else call grantId

/-- `mission_create`: the cap is checked before the unit of work is opened. -/
def missionCall (args : MissionArgs) : McpDatabase × Option ToolResult :=
  match args.riskCap with
  | none => plainCall outside db (missionBody runtime outside db args none)
  | some riskCap =>
    match RiskClass.ofValue? riskCap with
    | none => (db, some (.error "INVALID_ARGUMENT" ("invalid risk_cap: '" ++ riskCap ++ "'")))
    | some cap => plainCall outside db (missionBody runtime outside db args (some cap))

/-- One call of a tool: the tables afterwards, and the result, or `none` for an exception. -/
def ToolCall.run : ToolCall → McpDatabase × Option ToolResult
  | .projectCreate name token now => guardedCall outside db "project_create" do
      let project ← served (Project.create ("proj-" ++ token) name now)
      .effect (.project project)
      pure .success
  | .scopeFreeze args => guardedCall outside db "scope_freeze" (freezeBody runtime outside db args)
  | .assessmentCreate projectId scopeSnapshotId mode token =>
    guardedCall outside db "assessment_create" (createBody db projectId scopeSnapshotId mode token)
  | .planGenerate assessmentId token steps =>
    guardedCall outside db "plan_generate" (generateBody runtime outside db assessmentId token steps)
  | .planApprove assessmentId approvedRisks approvedCapabilities grantId token now =>
    needsGrant db grantId
      (.humanRequired "plan_approve" assessmentId "agents need a grant to approve (see grant_list)")
      fun grantId => guardedCall outside db "plan_approve"
        (approveBody runtime outside db assessmentId approvedRisks approvedCapabilities grantId token
          now)
  | .assessmentStart assessmentId grantId now =>
    needsGrant db grantId
      (.humanRequired "assessment_start" assessmentId "agents need a grant to start (see grant_list)")
      fun grantId => guardedCall outside db "assessment_start"
        (startBody runtime db assessmentId grantId now)
  | .missionCreate args => missionCall runtime outside db args
  | .assessmentPause assessmentId => guardedCall outside db "assessment_pause" do
      controlBody runtime db assessmentId "pause" AssessmentService.pause .paused
      pure .success
  | .assessmentResume assessmentId => guardedCall outside db "assessment_resume" do
      controlBody runtime db assessmentId "resumed" AssessmentService.resume .running
      startThread runtime outside
      pure .success
  | .assessmentCancel assessmentId => guardedCall outside db "assessment_cancel" do
      controlBody runtime db assessmentId "cancel" AssessmentService.cancel .cancelled
      pure .success
  | .reportRender assessmentId report =>
    guardedCall outside db "report_render" (renderBody db assessmentId report)
  | .loopPause loopId _ => loopCall outside db "loop_pause" (loopControlBody runtime "pause" loopId)
  | .loopResume loopId => loopCall outside db "loop_resume" (loopControlBody runtime "resume" loopId)
  | .loopCreate loopId assessmentId grantId maxSteps maxWallSeconds maxTotalTokens now =>
    needsGrant db grantId
      (.humanRequired "loop_create" assessmentId
        "humans need a grant to create a loop (see grant_list)")
      fun grantId => loopCall outside db "loop_create"
        (loopCreateBody runtime loopId assessmentId grantId maxSteps maxWallSeconds maxTotalTokens now)
  | .loopStop loopId grantId actor now =>
    needsGrant db grantId
      (.humanRequired "loop_stop" loopId "humans need a grant to stop a loop (see grant_list)")
      fun _ => loopCall outside db "loop_stop" (loopStopBody runtime db loopId actor now)
  | .read action guarded answer =>
    if guarded then guardedCall outside db action (.ofExcept answer)
    else plainCall outside db (.ofExcept answer)

end Bodies

end SecOpent
