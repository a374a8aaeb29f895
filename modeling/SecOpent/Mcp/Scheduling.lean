import SecOpent.Mcp.Atomicity

/-!
# Starting what has been queued

`assessment_start` and `mission_create` move an assessment from `APPROVED` to `QUEUED`, and an executor
has to run it. The first of them looks for the status `success` in its result, where a started
assessment has its own status, so it never schedules. The second schedules after its unit of work.

## Main definitions

* `assessmentOut`, `humanRequiredOut`, `errorOut`: the results of the handlers, as dictionaries
* `CallEvent`, `startEvents`, `missionEvents`: what the two handlers do, in order
* `Moved`: a committed write takes an assessment from `APPROVED` to `QUEUED`
* `SchedulesAsStated`: what is moved is scheduled once, after the commit, and nothing else is

## Main results

* `after_startEvents`, `after_missionEvents`: the events are those of the calls
* `hasStatusSuccess_startResult`: no result of `assessment_start` has the status that it looks for
* `moved_startEvents_iff`, `moved_missionEvents`: what the calls move
* `started_scheduled_iff`: only `mission_create` schedules what it has moved
-/

namespace SecOpent

open Python

/-! ## Results -/

/-- `ExecutionMode.value`. -/
def ExecutionMode.value : ExecutionMode → String
  | .approval => "approval"
  | .scopeAutopilot => "scope_autopilot"

/-- `ControlState.value`. -/
def ControlState.value : ControlState → String
  | .none => "none"
  | .pauseRequested => "pause_requested"
  | .resumeRequested => "resume_requested"
  | .cancelRequested => "cancel_requested"

/-- The result of a handler. -/
abbrev ResultDict := Dict String Json

/-- A text, or `None`. -/
def optionalText : Option String → Json
  | none => .null
  | some text => .text text

/-- `_assessment_out`. -/
def assessmentOut (assessment : Assessment) : ResultDict where
  items :=
    [("id", .text assessment.id), ("project_id", .text assessment.projectId),
      ("scope_snapshot_id", .text assessment.scopeSnapshotId),
      ("mode", .text assessment.mode.value), ("status", .text assessment.status.value),
      ("control", .text assessment.control.value),
      ("active_plan_id", optionalText assessment.activePlanId),
      ("approval_id", optionalText assessment.approvalId)]
  keys_nodup := (by decide :
    ["id", "project_id", "scope_snapshot_id", "mode", "status", "control", "active_plan_id",
      "approval_id"].Nodup)

/-- `_human_required`. -/
def humanRequiredOut (action assessmentId message : String) : ResultDict where
  items :=
    [("status", .text "HUMAN_REQUIRED"), ("action", .text action),
      ("assessment_id", .text assessmentId), ("message", .text message),
      ("next_step", .text "a human must approve/start this assessment via the SecOpent UI")]
  keys_nodup := (by decide : ["status", "action", "assessment_id", "message", "next_step"].Nodup)

/-- `_error`. -/
def errorOut (code message : String) : ResultDict where
  items := [("status", .text "error"), ("code", .text code), ("message", .text message)]
  keys_nodup := (by decide : ["status", "code", "message"].Nodup)

/-- What `_guard` answers to an exception. -/
def guardOut (action : String) : HandlerError → ResultDict
  | .humanOnly message => humanRequiredOut action "" message
  | .lookup message => errorOut "NOT_FOUND" message
  | .value message => errorOut "INVALID_ARGUMENT" message
  | .internal message => errorOut "INTERNAL" message
  | .database message => errorOut "INTERNAL" message

/-! ## What the handlers do, in order -/

/-- A write of the session, the end of the unit of work, or a thread that runs the executor. -/
inductive CallEvent
  | write (change : DbWrite)
  | commit
  | rollback
  | schedule (assessmentId : String)

/-- The event is the start of a thread. -/
def CallEvent.isSchedule : CallEvent → Bool
  | .write _ => false
  | .commit => false
  | .rollback => false
  | .schedule _ => true

/-- The write of an event. -/
def CallEvent.change? : CallEvent → Option DbWrite
  | .write change => some change
  | .commit => none
  | .rollback => none
  | .schedule _ => none

/-- The writes of a block. -/
def writeEvents (changes : List DbWrite) : List CallEvent := changes.map .write

/-- The end of a unit of work without an exception. -/
def closing (commits : Bool) : CallEvent := if commits then .commit else .rollback

/-- The event is the commit. -/
def CallEvent.isCommit : CallEvent → Bool
  | .write _ => false
  | .commit => true
  | .rollback => false
  | .schedule _ => false

/-- The tables after a call. -/
def tablesAfter (db : McpDatabase) (events : List CallEvent) : McpDatabase :=
  if events.any CallEvent.isCommit then
    UnitOfWork.written McpDatabase.apply db (events.filterMap CallEvent.change?)
  else db

section Calls

variable (runtime : McpRuntime) (outside : Outside) (startScheduler : Bool) (db : McpDatabase)

/-- The body of `assessment_start`, with the dictionary that it returns. -/
def startOutBody (assessmentId grantId : String) (now : Time) : McpBody ResultDict := do
  let repo ← served
    (({} : AssessmentService).start runtime.U db.core assessmentId "agent" (some grantId) now)
  writeCore repo
  let started ← served (repo.assessment assessmentId)
  pure (assessmentOut started)

/-- `_guard("assessment_start", ..)`. -/
def startResult (assessmentId grantId : String) (now : Time) : ResultDict :=
  match (startOutBody runtime db assessmentId grantId now).result with
  | .ok result => result
  | .error error => guardOut "assessment_start" error

/-- `result.get("status") == "success"`. -/
def hasStatusSuccess (result : ResultDict) : Bool :=
  match result.get? "status" with
  | some (.text status) => status = "success"
  | _ => false

/-- The session can be committed after the body. -/
def startCommits (assessmentId grantId : String) (now : Time) : Bool :=
  match (startOutBody runtime db assessmentId grantId now).result with
  | .ok _ => outside.commits
  | .error error => outside.commits && !error.broken

/-- `handler_assessment_start`: the thread is started inside the unit of work. -/
def startEvents (assessmentId : String) (grantId : Option String) (now : Time) : List CallEvent :=
  match grantId with
  | none => []
  | some grantId =>
    if grantId = "" then []
    else
      let writes := writeEvents (startOutBody runtime db assessmentId grantId now).effects
      if hasStatusSuccess (startResult runtime db assessmentId grantId now) && startScheduler then
        if outside.threads then
          writes ++ [.schedule assessmentId, closing (startCommits runtime outside db assessmentId
            grantId now)]
        else writes ++ [.rollback]
      else writes ++ [closing (startCommits runtime outside db assessmentId grantId now)]

/-- The unit of work of `mission_create`, and the thread after it. An early return leaves the unit of
work, and the handler. -/
def missionEventsOf (args : MissionArgs) (requestedCap : Option RiskClass) : List CallEvent :=
  let body := missionBody runtime outside db args requestedCap
  let writes := writeEvents body.effects
  match body.result with
  | .error _ => writes ++ [.rollback]
  | .ok result =>
    if !outside.commits then writes ++ [.rollback]
    else if result = .success && startScheduler && outside.threads then
      writes ++ [.commit, .schedule ("asm-" ++ args.assessmentToken)]
    else writes ++ [.commit]

/-- `handler_mission_create`. -/
def missionEvents (args : MissionArgs) : List CallEvent :=
  match args.riskCap with
  | none => missionEventsOf runtime outside startScheduler db args none
  | some riskCap =>
    match RiskClass.ofValue? riskCap with
    | none => []
    | some cap => missionEventsOf runtime outside startScheduler db args (some cap)

end Calls

/-! ## What is moved, and what is scheduled -/

/-- A write takes the row of an assessment from `APPROVED` to `QUEUED`. -/
def Queues (repo repo' : Repositories) (assessmentId : String) : Prop :=
  ∃ row row', repo.assessments.get? assessmentId = some row ∧ row.status = .approved ∧
    repo'.assessments.get? assessmentId = some row' ∧ row'.status = .queued

/-- One of the writes does. -/
def QueuedBy (db : McpDatabase) : List DbWrite → String → Prop
  | [], _ => False
  | change :: changes, assessmentId =>
    Queues db.core (db.apply change).core assessmentId ∨
      QueuedBy (db.apply change) changes assessmentId

/-- A call moved an assessment from `APPROVED` to `QUEUED`. -/
def Moved (db : McpDatabase) (events : List CallEvent) (assessmentId : String) : Prop :=
  .commit ∈ events ∧ QueuedBy db (events.filterMap CallEvent.change?) assessmentId

/-- What a call has moved is scheduled once, nothing else is, and only after the commit. -/
structure SchedulesAsStated (db : McpDatabase) (events : List CallEvent) : Prop where
  once : ∀ assessmentId, Moved db events assessmentId →
    events.filter CallEvent.isSchedule = [.schedule assessmentId]
  otherwise : ∀ assessmentId, .schedule assessmentId ∈ events → Moved db events assessmentId
  committed : ∀ before assessmentId later, events = before ++ .schedule assessmentId :: later →
    .commit ∈ before

/-! ## `assessment_start` -/

theorem status_value_ne (status : AssessmentStatus) : status.value ≠ "success" := by
  cases status with
  | draft | planned | awaitingApproval | approved | rejected | queued | running | paused | completed
  | partially | failed | cancelled => decide

theorem hasStatusSuccess_assessmentOut (assessment : Assessment) :
    hasStatusSuccess (assessmentOut assessment) = false := by
  have hstatus : (assessmentOut assessment).get? "status" = some (.text assessment.status.value) := rfl
  simp only [hasStatusSuccess, hstatus, decide_eq_false_iff_not]
  exact status_value_ne assessment.status

theorem hasStatusSuccess_guardOut (action : String) (error : HandlerError) :
    hasStatusSuccess (guardOut action error) = false := by
  cases error with
  | humanOnly _ | lookup _ | value _ | internal _ | database _ => rfl

/-- A started assessment was approved. -/
theorem start_queues {U : Unicode} {repo repo' : Repositories} {assessmentId : String}
    {grantId : Option String} {now : Time}
    (h : ({} : AssessmentService).start U repo assessmentId "agent" grantId now = .ok repo') :
    ∃ row, repo.assessments.get? assessmentId = some row ∧ row.status = .approved ∧
      repo' = repo.addAssessment { row with status := .queued } ∧
      repo'.assessments.get? assessmentId = some { row with status := .queued } := by
  obtain ⟨row, hrow, hallowed, rfl⟩ := moveTo_ok_iff.mp (start_ok h)
  have hid : row.id = assessmentId := Table.key_of_get? hrow
  refine ⟨row, hrow, ?_, rfl, ?_⟩
  · cases hstatus : row.status with
    | approved => rfl
    | draft | planned | awaitingApproval | rejected | queued | running | paused | completed | partially
    | failed | cancelled => simp [hstatus, allowedTransitions] at hallowed
  · simp only [Repositories.addAssessment, Table.get?_put, hid, if_true, Option.getD_none]

/-! ### Writes of one row -/

/-- A write that leaves the rows of the assessments moves none. -/
theorem not_queues_of_same {repo repo' : Repositories} (h : repo'.assessments = repo.assessments)
    (assessmentId : String) : ¬Queues repo repo' assessmentId := by
  rintro ⟨row, row', hrow, happroved, hrow', hqueued⟩
  rw [h, hrow] at hrow'
  cases hrow'
  rw [happroved] at hqueued
  cases hqueued

/-- A write of one row moves no other, and that one only to the status that it writes. -/
theorem queues_put {repo repo' : Repositories} {written : Assessment} {assessmentId : String}
    (hput : repo'.assessments = repo.assessments.put written) (h : Queues repo repo' assessmentId) :
    assessmentId = written.id ∧ written.status = .queued := by
  obtain ⟨row, row', hrow, happroved, hrow', hqueued⟩ := h
  rw [hput, Table.get?_put] at hrow'
  by_cases hid : assessmentId = written.id
  · rw [if_pos hid] at hrow'
    cases hrow'
    exact ⟨hid, hqueued⟩
  · rw [if_neg hid, hrow] at hrow'
    cases hrow'
    rw [happroved] at hqueued
    cases hqueued

theorem start_queues_iff {U : Unicode} {repo repo' : Repositories} {assessmentId : String}
    {grantId : Option String} {now : Time}
    (h : ({} : AssessmentService).start U repo assessmentId "agent" grantId now = .ok repo')
    (id : String) : Queues repo repo' id ↔ id = assessmentId := by
  obtain ⟨row, hrow, happroved, hrepo, hrow'⟩ := start_queues h
  constructor
  · intro hqueues
    have hput : repo'.assessments = repo.assessments.put { row with status := .queued } := by
      rw [hrepo]
      rfl
    obtain ⟨hid, -⟩ := queues_put hput hqueues
    have hkey : row.id = assessmentId := Table.key_of_get? hrow
    exact hid.trans hkey
  · rintro rfl
    exact ⟨row, _, hrow, happroved, hrow', rfl⟩

section Start

variable (runtime : McpRuntime) (outside : Outside) (db : McpDatabase) (assessmentId grantId : String)
  (now : Time)

/-- What the body returns is the row that it has written. -/
theorem startOutBody_cases :
    (∃ error,
      ({} : AssessmentService).start runtime.U db.core assessmentId "agent" (some grantId) now =
        .error error ∧
      startOutBody runtime db assessmentId grantId now = .raise error.raised ∧
      startBody runtime db assessmentId grantId now = .raise error.raised) ∨
    ∃ repo started,
      ({} : AssessmentService).start runtime.U db.core assessmentId "agent" (some grantId) now =
        .ok repo ∧
      startOutBody runtime db assessmentId grantId now = ⟨[.core repo], .ok (assessmentOut started)⟩ ∧
      startBody runtime db assessmentId grantId now = ⟨[.core repo], .ok .success⟩ := by
  cases hstart : ({} : AssessmentService).start runtime.U db.core assessmentId "agent" (some grantId)
      now with
  | error error =>
    refine .inl ⟨error, rfl, ?_, ?_⟩
    · simp only [startOutBody, hstart]
      rfl
    · simp only [startBody, hstart]
      rfl
  | ok repo =>
    obtain ⟨row, -, -, -, hread⟩ := start_queues hstart
    refine .inr ⟨repo, { row with status := .queued }, rfl, ?_, ?_⟩
    · simp only [startOutBody, hstart]
      change (writeCore repo >>= fun _ => served (repo.assessment assessmentId) >>= fun started =>
        pure (assessmentOut started)) = _
      simp only [assessment_ok_iff.mpr hread]
      rfl
    · simp only [startBody, hstart]
      rfl

/-- No result has the status that the handler looks for. -/
theorem hasStatusSuccess_startResult :
    hasStatusSuccess (startResult runtime db assessmentId grantId now) = false := by
  unfold startResult
  rcases startOutBody_cases runtime db assessmentId grantId now with
    ⟨error, -, hout, -⟩ | ⟨repo, started, -, hout, -⟩
  · rw [hout]
    exact hasStatusSuccess_guardOut "assessment_start" error.raised
  · rw [hout]
    exact hasStatusSuccess_assessmentOut started

variable {runtime outside db assessmentId grantId now}

/-- The handler writes, and ends its unit of work. -/
theorem startEvents_eq (startScheduler : Bool) (hgrant : grantId ≠ "") :
    startEvents runtime outside startScheduler db assessmentId (some grantId) now =
      writeEvents (startOutBody runtime db assessmentId grantId now).effects ++
        [closing (startCommits runtime outside db assessmentId grantId now)] := by
  simp only [startEvents, if_neg hgrant, hasStatusSuccess_startResult, Bool.false_and,
    Bool.false_eq_true, if_false]

end Start

/-! ### Events without a thread -/

theorem change?_writeEvents (changes : List DbWrite) :
    (writeEvents changes).filterMap CallEvent.change? = changes := by
  induction changes with
  | nil => rfl
  | cons change changes ih => exact congrArg (change :: ·) ih

theorem isSchedule_writeEvents (changes : List DbWrite) :
    (writeEvents changes).filter CallEvent.isSchedule = [] := by
  induction changes with
  | nil => rfl
  | cons change changes ih => exact ih

theorem not_mem_writeEvents {changes : List DbWrite} {event : CallEvent}
    (h : event.change? = none) : event ∉ writeEvents changes := by
  intro hmem
  obtain ⟨change, -, rfl⟩ := List.mem_map.mp hmem
  cases h

theorem isSchedule_unit (changes : List DbWrite) {ending : CallEvent}
    (hending : ending.isSchedule = false) :
    (writeEvents changes ++ [ending]).filter CallEvent.isSchedule = [] := by
  rw [List.filter_append, isSchedule_writeEvents, List.nil_append, List.filter_singleton, hending]
  rfl

/-- A call without a thread does what is stated if it moves nothing. -/
theorem schedulesAsStated_unscheduled (db : McpDatabase) {events : List CallEvent}
    (hnone : events.filter CallEvent.isSchedule = []) :
    SchedulesAsStated db events ↔ ∀ id, ¬Moved db events id := by
  have hschedule : ∀ id, .schedule id ∉ events := by
    intro id hmem
    have hfilter := List.mem_filter.mpr ⟨hmem, (rfl : (CallEvent.schedule id).isSchedule = true)⟩
    rw [hnone] at hfilter
    cases hfilter
  constructor
  · intro h id hmoved
    have honce := h.once id hmoved
    rw [hnone] at honce
    cases honce
  · intro h
    refine ⟨fun id hmoved => (h id hmoved).elim, fun id hmem => (hschedule id hmem).elim, ?_⟩
    intro before id later heq
    refine (hschedule id ?_).elim
    rw [heq]
    exact List.mem_append_right _ (List.mem_cons_self ..)

/-- The writes of an approved row with a plan and an approval. -/
def ReadyToStart (repo : Repositories) (assessmentId : String) : Prop :=
  ∃ row planId approvalId, repo.assessments.get? assessmentId = some row ∧ row.status = .approved ∧
    row.activePlanId = some planId ∧ planId ≠ "" ∧ row.approvalId = some approvalId ∧ approvalId ≠ ""

/-- A grant lets the call of `assessment_start` through, the assessment is ready, and the session can be
committed. -/
structure StartAccepted (runtime : McpRuntime) (outside : Outside) (db : McpDatabase)
    (assessmentId : String) (grantId : Option String) (now : Time) : Prop where
  granted : ∃ grant, grantId = some grant ∧ grant ≠ "" ∧
    ({} : AssessmentService).authorizeStart runtime.U db.core assessmentId "agent" (some grant) now =
      .ok ()
  ready : ReadyToStart db.core assessmentId
  commits : outside.commits = true

/-- What `start` checks. -/
theorem start_returns_iff {U : Unicode} {repo : Repositories} {assessmentId : String}
    {grantId : Option String} {now : Time} :
    (∃ repo', ({} : AssessmentService).start U repo assessmentId "agent" grantId now = .ok repo') ↔
      ({} : AssessmentService).authorizeStart U repo assessmentId "agent" grantId now = .ok () ∧
        ReadyToStart repo assessmentId := by
  constructor
  · rintro ⟨repo', h⟩
    obtain ⟨row, hrow, happroved, -, -⟩ := start_queues h
    unfold AssessmentService.start at h
    obtain ⟨_, hauth, h⟩ := bind_eq_ok_iff.mp h
    obtain ⟨found, hfound, h⟩ := bind_eq_ok_iff.mp h
    rw [assessment_ok_iff, hrow] at hfound
    cases hfound
    obtain ⟨-, -, h⟩ := bind_eq_ok_iff.mp h
    obtain ⟨_, hplan, h⟩ := bind_eq_ok_iff.mp h
    obtain ⟨_, happroval, -⟩ := bind_eq_ok_iff.mp h
    rw [raiseUnless_ok_iff, bne_iff_ne] at hplan happroval
    refine ⟨hauth, row, row.activePlanId.getD "", row.approvalId.getD "", hrow, happroved, ?_, hplan,
      ?_, happroval⟩
    · cases hid : row.activePlanId with
      | none => simp [hid] at hplan
      | some planId => rfl
    · cases hid : row.approvalId with
      | none => simp [hid] at happroval
      | some approvalId => rfl
  · rintro ⟨hauth, row, planId, approvalId, hrow, happroved, hplan, hplanId, happroval, happrovalId⟩
    have hstart : row.start planId approvalId = .ok
        { row with status := .queued, activePlanId := some planId, approvalId := some approvalId } := by
      simp [Assessment.start, happrovalId, happroved]
    refine ⟨repo.addAssessment
      { row with status := .queued, activePlanId := some planId, approvalId := some approvalId }, ?_⟩
    unfold AssessmentService.start
    refine bind_eq_ok_iff.mpr ⟨(), hauth, bind_eq_ok_iff.mpr ⟨row, assessment_ok_iff.mpr hrow, ?_⟩⟩
    refine bind_eq_ok_iff.mpr ⟨(), assertTransition_ok_iff.mpr (by simp [happroved,
      allowedTransitions]), ?_⟩
    simp only [hplan, happroval, Option.getD_some]
    refine bind_eq_ok_iff.mpr ⟨(), raiseUnless_ok_iff.mpr (bne_iff_ne.mpr hplanId), ?_⟩
    refine bind_eq_ok_iff.mpr ⟨(), raiseUnless_ok_iff.mpr (bne_iff_ne.mpr happrovalId), ?_⟩
    exact bind_eq_ok_iff.mpr ⟨_, hstart, rfl⟩

theorem closing_eq (commits : Bool) : closing commits = .commit ∨ closing commits = .rollback := by
  cases commits with
  | true => exact .inl rfl
  | false => exact .inr rfl

theorem isSchedule_closing (commits : Bool) : (closing commits).isSchedule = false := by
  cases commits with
  | true => rfl
  | false => rfl

/-- What the writes of a unit of work move, if it is committed. -/
theorem moved_unscheduled_iff (db : McpDatabase) (changes : List DbWrite) (commits : Bool)
    (assessmentId : String) :
    Moved db (writeEvents changes ++ [closing commits]) assessmentId ↔
      commits = true ∧ QueuedBy db changes assessmentId := by
  have hchanges : (writeEvents changes ++ [closing commits]).filterMap CallEvent.change? = changes := by
    rw [List.filterMap_append, change?_writeEvents]
    rcases closing_eq commits with hclosing | hclosing
    · rw [hclosing]
      exact List.append_nil changes
    · rw [hclosing]
      exact List.append_nil changes
  unfold Moved
  rw [hchanges, List.mem_append, List.mem_singleton]
  refine and_congr_left fun _ => ?_
  constructor
  · rintro (hmem | hclosing)
    · exact absurd hmem (not_mem_writeEvents rfl)
    · cases commits with
      | true => rfl
      | false => cases hclosing
  · rintro rfl
    exact .inr rfl

/-- The tables after a unit of work. -/
theorem tablesAfter_unit (db : McpDatabase) (changes : List DbWrite) {ending : List CallEvent}
    (hending : ending.filterMap CallEvent.change? = []) :
    tablesAfter db (writeEvents changes ++ ending) =
      if ending.any CallEvent.isCommit then UnitOfWork.written McpDatabase.apply db changes
      else db := by
  have hwrites : (writeEvents changes).any CallEvent.isCommit = false := by
    rw [List.any_eq_false]
    intro event hevent
    obtain ⟨change, -, rfl⟩ := List.mem_map.mp hevent
    exact Bool.false_ne_true
  unfold tablesAfter
  rw [List.filterMap_append, change?_writeEvents, hending, List.append_nil, List.any_append, hwrites,
    Bool.false_or]

section Start

variable (runtime : McpRuntime) (outside : Outside) (db : McpDatabase) (assessmentId : String)
  (grantId : Option String) (now : Time)

/-- The events are those of the call. -/
theorem after_startEvents (startScheduler : Bool) :
    tablesAfter db (startEvents runtime outside startScheduler db assessmentId grantId now) =
      ((ToolCall.assessmentStart assessmentId grantId now).run runtime outside db).1 := by
  cases grantId with
  | none => rfl
  | some grantId =>
    by_cases hgrant : grantId = ""
    · simp only [startEvents, ToolCall.run, needsGrant, if_pos hgrant]
      rfl
    rw [startEvents_eq startScheduler hgrant]
    simp only [ToolCall.run, needsGrant, if_neg hgrant]
    rcases startOutBody_cases runtime db assessmentId grantId now with
      ⟨error, -, hout, hbody⟩ | ⟨repo, started, -, hout, hbody⟩
    · have hnone : tablesAfter db (writeEvents ([] : List DbWrite) ++
          [closing (startCommits runtime outside db assessmentId grantId now)]) = db := by
        rcases closing_eq (startCommits runtime outside db assessmentId grantId now) with hend | hend
        · rw [hend]
          rfl
        · rw [hend]
          rfl
      rw [hout, Acting.raise_effects, hnone]
      simp only [guardedCall, UnitOfWork.guardInside, hbody, Acting.raise_result, Acting.raise_effects]
      split
      · rfl
      · rfl
    · have hcommits : startCommits runtime outside db assessmentId grantId now = outside.commits := by
        simp only [startCommits, hout]
      rw [hout, hcommits, guardedCall, hbody]
      cases hcommit : outside.commits with
      | true => rfl
      | false => rfl

/-- The calls of `assessment_start` that move an assessment. -/
theorem moved_startEvents_iff (startScheduler : Bool) (id : String) :
    Moved db (startEvents runtime outside startScheduler db assessmentId grantId now) id ↔
      id = assessmentId ∧ StartAccepted runtime outside db assessmentId grantId now := by
  cases grantId with
  | none =>
    refine ⟨fun h => absurd h.1 List.not_mem_nil, fun ⟨_, h⟩ => ?_⟩
    obtain ⟨grant, hgrant, -⟩ := h.granted
    cases hgrant
  | some grantId =>
    by_cases hgrant : grantId = ""
    · have hnil : startEvents runtime outside startScheduler db assessmentId (some grantId) now = [] :=
        if_pos hgrant
      rw [hnil]
      refine ⟨fun h => absurd h.1 List.not_mem_nil, fun ⟨_, h⟩ => ?_⟩
      obtain ⟨grant, heq, hne, -⟩ := h.granted
      cases heq
      exact absurd hgrant hne
    rw [startEvents_eq startScheduler hgrant, moved_unscheduled_iff]
    rcases startOutBody_cases runtime db assessmentId grantId now with
      ⟨error, hstart, hout, -⟩ | ⟨repo, started, hstart, hout, -⟩
    · simp only [hout, Acting.raise_effects, QueuedBy, and_false, false_iff, not_and]
      intro _ h
      obtain ⟨grant, heq, -, hauth⟩ := h.granted
      cases heq
      obtain ⟨repo', hok⟩ := start_returns_iff.mpr ⟨hauth, h.ready⟩
      rw [hstart] at hok
      cases hok
    · have hcommits : startCommits runtime outside db assessmentId grantId now = outside.commits := by
        simp only [startCommits, hout]
      obtain ⟨hauth, hready⟩ := start_returns_iff.mp ⟨repo, hstart⟩
      simp only [hout, hcommits, QueuedBy, or_false, McpDatabase.apply]
      rw [start_queues_iff hstart]
      constructor
      · rintro ⟨hcommit, hid⟩
        exact ⟨hid, ⟨grantId, rfl, hgrant, hauth⟩, hready, hcommit⟩
      · rintro ⟨hid, haccepted⟩
        exact ⟨haccepted.commits, hid⟩

/-- `assessment_start` starts no thread. -/
theorem startEvents_unscheduled (startScheduler : Bool) :
    (startEvents runtime outside startScheduler db assessmentId grantId now).filter
      CallEvent.isSchedule = [] := by
  cases grantId with
  | none => rfl
  | some grantId =>
    by_cases hgrant : grantId = ""
    · have hnil : startEvents runtime outside startScheduler db assessmentId (some grantId) now = [] :=
        if_pos hgrant
      rw [hnil]
      rfl
    · rw [startEvents_eq startScheduler hgrant]
      exact isSchedule_unit _ (isSchedule_closing _)

/-- `assessment_start` does what is stated for the calls that it refuses. -/
theorem schedulesAsStated_startEvents_iff (startScheduler : Bool) :
    SchedulesAsStated db (startEvents runtime outside startScheduler db assessmentId grantId now) ↔
      ¬StartAccepted runtime outside db assessmentId grantId now := by
  have hmoved := moved_startEvents_iff runtime outside db assessmentId grantId now startScheduler
  rw [schedulesAsStated_unscheduled db
    (startEvents_unscheduled runtime outside db assessmentId grantId now startScheduler)]
  constructor
  · intro h haccepted
    exact h assessmentId ((hmoved assessmentId).mpr ⟨rfl, haccepted⟩)
  · intro h id hid
    exact h ((hmoved id).mp hid).2

end Start

/-! ## `mission_create` -/

section Steps

variable {outside : Outside} {α : Type} {result : ToolResult}

/-- A body that goes on after a service has returned. -/
theorem served_bind_ok {answer : Except ServiceError α} {f : α → McpBody ToolResult}
    (h : (served answer >>= f).result = .ok result) :
    ∃ a, answer = .ok a ∧ (f a).result = .ok result ∧
      (served answer >>= f).effects = (f a).effects := by
  cases hanswer : answer with
  | error error =>
    rw [served_bind_of_error hanswer] at h
    cases h
  | ok a =>
    rw [served_bind_of_ok hanswer] at h
    exact ⟨a, rfl, h, rfl⟩

/-- A body that goes on after an answer. -/
theorem answered_bind_ok {answer : Except HandlerError α} {f : α → McpBody ToolResult}
    (h : ((.ofExcept answer : McpBody α) >>= f).result = .ok result) :
    ∃ a, (f a).result = .ok result ∧
      ((.ofExcept answer : McpBody α) >>= f).effects = (f a).effects := by
  cases hanswer : answer with
  | error error =>
    rw [Acting.ofExcept_error_bind hanswer] at h
    cases h
  | ok a =>
    rw [Acting.ofExcept_ok_bind hanswer] at h
    exact ⟨a, h, rfl⟩

/-- A body that goes on after a query. -/
theorem query_bind_ok {f : Unit → McpBody ToolResult}
    (h : (query outside >>= f).result = .ok result) :
    (f ()).result = .ok result ∧ (query outside >>= f).effects = (f ()).effects := by
  unfold query at h ⊢
  cases hflush : outside.flushes with
  | false =>
    rw [hflush] at h
    cases h
  | true =>
    rw [hflush] at h
    exact ⟨h, rfl⟩

/-- A body that goes on after a write. -/
theorem write_bind_ok {repo : Repositories} {f : Unit → McpBody ToolResult}
    (h : (writeCore repo >>= f).result = .ok result) :
    (f ()).result = .ok result ∧ (writeCore repo >>= f).effects = .core repo :: (f ()).effects :=
  ⟨h, rfl⟩

/-- A body that ends with its event. -/
theorem audited_success {runtime : McpRuntime} {actor action resourceType resourceId : String}
    {payload : List (String × Json)}
    (h : (auditSigned runtime actor action resourceType resourceId payload >>= fun _ =>
      (pure .success : McpBody ToolResult)).result = .ok result) :
    result = .success ∧ ∃ event,
      (auditSigned runtime actor action resourceType resourceId payload >>= fun _ =>
        (pure .success : McpBody ToolResult)).effects = [.signed event] := by
  unfold auditSigned at h ⊢
  split at h
  · cases h
  · cases h
    exact ⟨rfl, _, rfl⟩

end Steps

section Mission

variable {runtime : McpRuntime} {outside : Outside} {db : McpDatabase} {args : MissionArgs}

/-- A mission that returns has written the scope, the assessment, the plan, the approval, the start and
the event. -/
theorem missionWrites_ok {grant : EngagementGrant} {scope : ScopeSnapshot} {cap : RiskClass}
    {result : ToolResult}
    (h : (missionWrites runtime outside db args grant scope cap).result = .ok result) :
    ∃ stored created planned approved started event steps,
      addSnapshot db.core scope = .ok stored ∧
      AssessmentService.create stored args.assessmentToken args.projectId scope.id .approval =
        .ok created ∧
      AssessmentService.attachPlan runtime.canonical created args.planToken
        ("asm-" ++ args.assessmentToken) steps = .ok planned ∧
      ({} : AssessmentService).approve runtime.U runtime.canonical planned args.approvalToken
        (grantApproval ("asm-" ++ args.assessmentToken) args.grantId scope.digest grant.riskCaps [])
        args.now = .ok approved ∧
      ({} : AssessmentService).start runtime.U approved.1 ("asm-" ++ args.assessmentToken) "agent"
        (some args.grantId) args.now = .ok started ∧
      result = .success ∧
      (missionWrites runtime outside db args grant scope cap).effects =
        [.core stored, .core created, .core planned, .core approved.1, .core started,
          .signed event] := by
  unfold missionWrites at h ⊢
  obtain ⟨stored, hstored, h, heffects₁⟩ := served_bind_ok h
  obtain ⟨h, heffects₂⟩ := write_bind_ok h
  obtain ⟨created, hcreated, h, heffects₃⟩ := served_bind_ok h
  obtain ⟨h, heffects₄⟩ := write_bind_ok h
  obtain ⟨h, heffects₅⟩ := query_bind_ok h
  obtain ⟨steps, h, heffects₆⟩ := answered_bind_ok h
  obtain ⟨planned, hplanned, h, heffects₇⟩ := served_bind_ok h
  obtain ⟨h, heffects₈⟩ := write_bind_ok h
  obtain ⟨h, heffects₉⟩ := query_bind_ok h
  obtain ⟨approved, happroved, h, heffects₁₀⟩ := served_bind_ok h
  obtain ⟨h, heffects₁₁⟩ := write_bind_ok h
  obtain ⟨h, heffects₁₂⟩ := query_bind_ok h
  obtain ⟨started, hstarted, h, heffects₁₃⟩ := served_bind_ok h
  obtain ⟨h, heffects₁₄⟩ := write_bind_ok h
  obtain ⟨hresult, event, heffects₁₅⟩ := audited_success h
  refine ⟨stored, created, planned, approved, started, event, steps, hstored, hcreated, hplanned,
    happroved, hstarted, hresult, ?_⟩
  simp only [heffects₁, heffects₂, heffects₃, heffects₄, heffects₅, heffects₆, heffects₇, heffects₈,
    heffects₉, heffects₁₀, heffects₁₁, heffects₁₂, heffects₁₃, heffects₁₄, heffects₁₅]

/-- Only the start of a mission moves its assessment. -/
theorem queuedBy_missionWrites {grant : EngagementGrant} {scope : ScopeSnapshot} {cap : RiskClass}
    {result : ToolResult}
    (h : (missionWrites runtime outside db args grant scope cap).result = .ok result) (id : String) :
    QueuedBy db (missionWrites runtime outside db args grant scope cap).effects id ↔
      id = "asm-" ++ args.assessmentToken := by
  obtain ⟨stored, created, planned, approved, started, event, steps, hstored, hcreated, hplanned,
    happroved, hstarted, -, heffects⟩ := missionWrites_ok h
  -- The scope is in another table.
  have hscope : ¬Queues db.core stored id := by
    apply not_queues_of_same
    unfold addSnapshot at hstored
    cases hinsert : db.core.scopes.insert scope with
    | none =>
      rw [hinsert] at hstored
      cases hstored
    | some scopes =>
      rw [hinsert] at hstored
      cases hstored
      rfl
  -- The other writes leave the row in an earlier status.
  have hcreate : ¬Queues stored created id := by
    intro hqueues
    unfold AssessmentService.create at hcreated
    obtain ⟨row, hrow, hok⟩ := bind_eq_ok_iff.mp hcreated
    rw [Assessment.create_ok hrow] at hok
    cases hok
    obtain ⟨-, hstatus⟩ := queues_put rfl hqueues
    cases hstatus
  have hplan : ¬Queues created planned id := by
    intro hqueues
    obtain ⟨row, plan, -, -, -, -, rfl⟩ := attachPlan_ok hplanned
    obtain ⟨-, hstatus⟩ := queues_put rfl hqueues
    cases hstatus
  have happrove : ¬Queues planned approved.1 id := by
    intro hqueues
    obtain ⟨-, row, plan, -, -, -, -, -, -, -, hrepo⟩ := approve_ok happroved
    rw [hrepo] at hqueues
    obtain ⟨-, hstatus⟩ := queues_put rfl hqueues
    cases hstatus
  rw [heffects]
  simp only [QueuedBy, McpDatabase.apply, hscope, hcreate, hplan, happrove, start_queues_iff hstarted,
    false_or, or_false]
  refine or_iff_left ?_
  exact not_queues_of_same rfl id

/-- A body that returns has written nothing, or has moved the assessment. -/
def MovesOnSuccess (db : McpDatabase) (assessmentId : String) (body : McpBody ToolResult) : Prop :=
  ∀ result, body.result = .ok result →
    (result ≠ .success ∧ body.effects = []) ∨
      (result = .success ∧ ∀ id, QueuedBy db body.effects id ↔ id = assessmentId)

theorem MovesOnSuccess.refused (assessmentId code message : String) :
    MovesOnSuccess db assessmentId (pure (.error code message)) := by
  intro result h
  cases h
  exact .inl ⟨ToolResult.noConfusion, rfl⟩

theorem MovesOnSuccess.served {α : Type} {assessmentId : String} {answer : Except ServiceError α}
    {f : α → McpBody ToolResult} (h : ∀ a, MovesOnSuccess db assessmentId (f a)) :
    MovesOnSuccess db assessmentId (SecOpent.served answer >>= f) := by
  intro result hresult
  obtain ⟨a, -, hok, heffects⟩ := served_bind_ok hresult
  rw [heffects]
  exact h a result hok

theorem missionWrites_moves (grant : EngagementGrant) (scope : ScopeSnapshot) (cap : RiskClass) :
    MovesOnSuccess db ("asm-" ++ args.assessmentToken)
      (missionWrites runtime outside db args grant scope cap) := by
  intro result h
  obtain ⟨-, -, -, -, -, -, -, -, -, -, -, -, hresult, -⟩ := missionWrites_ok h
  exact .inr ⟨hresult, queuedBy_missionWrites h⟩

variable (runtime outside db args) in
/-- A mission answers with an error before it writes, or it goes through. -/
theorem missionBody_moves (requestedCap : Option RiskClass) :
    MovesOnSuccess db ("asm-" ++ args.assessmentToken)
      (missionBody runtime outside db args requestedCap) := by
  unfold missionBody
  split
  · exact .refused _ _ _
  · split
    · exact .refused _ _ _
    · refine .served fun draft => .served fun scope => .served fun covered => ?_
      split
      · exact .refused _ _ _
      · refine .served fun cap => ?_
        split
        · exact missionWrites_moves _ _ _
        · split
          · exact .refused _ _ _
          · exact missionWrites_moves _ _ _

theorem mem_commit_unit {changes : List DbWrite} {ending : List CallEvent} :
    .commit ∈ writeEvents changes ++ ending ↔ .commit ∈ ending := by
  rw [List.mem_append]
  exact or_iff_right (not_mem_writeEvents rfl)

variable (runtime outside db args) in
/-- A mission that is not committed, or that was refused, moves nothing. The others are scheduled after
the commit. -/
theorem missionEventsOf_cases (requestedCap : Option RiskClass) :
    (missionEventsOf runtime outside true db args requestedCap).filter CallEvent.isSchedule = [] ∧
        (∀ id, ¬Moved db (missionEventsOf runtime outside true db args requestedCap) id) ∨
      ∃ changes, (∀ id, QueuedBy db changes id ↔ id = "asm-" ++ args.assessmentToken) ∧
        missionEventsOf runtime outside true db args requestedCap =
          writeEvents changes ++ .commit :: if outside.threads then
            [.schedule ("asm-" ++ args.assessmentToken)] else [] := by
  have hrollback : ∀ changes,
      (writeEvents changes ++ [CallEvent.rollback]).filter CallEvent.isSchedule = [] ∧
        ∀ id, ¬Moved db (writeEvents changes ++ [CallEvent.rollback]) id := by
    intro changes
    refine ⟨isSchedule_unit changes rfl, fun id h => ?_⟩
    have hcommit := mem_commit_unit.mp h.1
    simp at hcommit
  unfold missionEventsOf
  cases hbody : (missionBody runtime outside db args requestedCap).result with
  | error error =>
    simp only [hbody]
    exact .inl (hrollback _)
  | ok result =>
    simp only [hbody]
    cases hcommits : outside.commits with
    | false => exact .inl (hrollback _)
    | true =>
      rcases missionBody_moves runtime outside db args requestedCap result hbody with
        ⟨hrefused, heffects⟩ | ⟨rfl, hqueued⟩
      · refine .inl ?_
        simp only [hrefused, heffects]
        exact ⟨rfl, fun id h => h.2⟩
      · refine .inr ⟨_, hqueued, ?_⟩
        cases hthreads : outside.threads with
        | false => rfl
        | true => rfl

/-- A committed mission with its thread is what is stated. -/
theorem schedulesAsStated_committed {changes : List DbWrite} {assessmentId : String}
    (hqueued : ∀ id, QueuedBy db changes id ↔ id = assessmentId) :
    SchedulesAsStated db (writeEvents changes ++ [.commit, .schedule assessmentId]) := by
  have hchanges : (writeEvents changes ++ [CallEvent.commit, .schedule assessmentId]).filterMap
      CallEvent.change? = changes := by
    rw [List.filterMap_append, change?_writeEvents]
    exact List.append_nil changes
  have hmoved : ∀ id, Moved db (writeEvents changes ++ [.commit, .schedule assessmentId]) id ↔
      id = assessmentId := by
    intro id
    unfold Moved
    rw [hchanges, hqueued]
    exact and_iff_right (mem_commit_unit.mpr (List.mem_cons_self ..))
  have hscheduled : ∀ id, .schedule id ∈ writeEvents changes ++ [.commit, .schedule assessmentId] →
      id = assessmentId := by
    intro id hmem
    rcases List.mem_append.mp hmem with hmem | hmem
    · exact absurd hmem (not_mem_writeEvents rfl)
    · simpa using hmem
  refine ⟨fun id hid => ?_, fun id hmem => (hmoved id).mpr (hscheduled id hmem), ?_⟩
  · rw [(hmoved id).mp hid, List.filter_append, isSchedule_writeEvents]
    rfl
  · intro before id later heq
    -- The thread is the last event, so the commit is before it.
    have hsplit : (writeEvents changes ++ [CallEvent.commit]) ++ [.schedule assessmentId] =
        before ++ .schedule id :: later := by
      rw [← heq, List.append_assoc]
      rfl
    rcases List.append_eq_append_iff.mp hsplit with ⟨middle, hbefore, -⟩ | ⟨middle, hstart, hrest⟩
    · rw [hbefore]
      exact List.mem_append_left _ (List.mem_append_right _ (List.mem_singleton_self _))
    · cases middle with
      | nil =>
        rw [List.append_nil] at hstart
        rw [← hstart]
        exact List.mem_append_right _ (List.mem_singleton_self _)
      | cons event middle =>
        have hmem : event ∈ writeEvents changes ++ [CallEvent.commit] := by
          rw [hstart]
          exact List.mem_append_right _ (List.mem_cons_self ..)
        obtain ⟨rfl, -⟩ := List.cons.inj hrest
        rcases List.mem_append.mp hmem with hmem | hmem
        · exact absurd hmem (not_mem_writeEvents rfl)
        · simp at hmem

variable (runtime outside db args) in
theorem missionEvents_cases :
    (missionEvents runtime outside true db args).filter CallEvent.isSchedule = [] ∧
        (∀ id, ¬Moved db (missionEvents runtime outside true db args) id) ∨
      ∃ changes, (∀ id, QueuedBy db changes id ↔ id = "asm-" ++ args.assessmentToken) ∧
        missionEvents runtime outside true db args =
          writeEvents changes ++ .commit :: if outside.threads then
            [.schedule ("asm-" ++ args.assessmentToken)] else [] := by
  unfold missionEvents
  split
  · exact missionEventsOf_cases runtime outside db args none
  · split
    · exact .inl ⟨rfl, fun id h => absurd h.1 List.not_mem_nil⟩
    · exact missionEventsOf_cases runtime outside db args _

variable (runtime outside db args) in
theorem after_missionEventsOf (startScheduler : Bool) (requestedCap : Option RiskClass) :
    tablesAfter db (missionEventsOf runtime outside startScheduler db args requestedCap) =
      (plainCall outside db (missionBody runtime outside db args requestedCap)).1 := by
  unfold missionEventsOf plainCall UnitOfWork.unguarded
  cases hbody : (missionBody runtime outside db args requestedCap).result with
  | error error =>
    simp only [hbody]
    exact tablesAfter_unit db _ rfl
  | ok result =>
    simp only [hbody]
    cases hcommits : outside.commits with
    | false => exact tablesAfter_unit db _ rfl
    | true =>
      simp only [Bool.not_true, Bool.false_eq_true, if_false, if_true]
      split
      · exact tablesAfter_unit db _ rfl
      · exact tablesAfter_unit db _ rfl

variable (runtime outside db args) in
/-- The events are those of the call. -/
theorem after_missionEvents (startScheduler : Bool) :
    tablesAfter db (missionEvents runtime outside startScheduler db args) =
      ((ToolCall.missionCreate args).run runtime outside db).1 := by
  simp only [missionEvents, ToolCall.run, missionCall]
  cases args.riskCap with
  | none => exact after_missionEventsOf runtime outside db args startScheduler none
  | some riskCap =>
    cases hcap : RiskClass.ofValue? riskCap with
    | none =>
      simp only [hcap]
      rfl
    | some cap =>
      simp only [hcap]
      exact after_missionEventsOf runtime outside db args startScheduler (some cap)

variable (runtime outside db args) in
/-- `mission_create` does what is stated, unless it cannot start the thread of what it has moved. -/
theorem schedulesAsStated_missionEvents_iff :
    SchedulesAsStated db (missionEvents runtime outside true db args) ↔
      outside.threads = true ∨ ∀ id, ¬Moved db (missionEvents runtime outside true db args) id := by
  rcases missionEvents_cases runtime outside db args with ⟨hnone, hmoved⟩ | ⟨changes, hqueued, hevents⟩
  · rw [schedulesAsStated_unscheduled db hnone]
    exact ⟨fun _ => .inr hmoved, fun _ => hmoved⟩
  · rw [hevents]
    cases hthreads : outside.threads with
    | true =>
      refine ⟨fun _ => .inl rfl, fun _ => ?_⟩
      exact schedulesAsStated_committed hqueued
    | false =>
      simp only [Bool.false_eq_true, if_false, false_or]
      exact schedulesAsStated_unscheduled db (isSchedule_unit changes rfl)

end Mission

/-- `assessment_start` does what is stated only for the calls that move nothing, and `mission_create`
for every call whose thread starts. -/
theorem started_scheduled_iff (runtime : McpRuntime) (outside : Outside) (db : McpDatabase) :
    (∀ assessmentId grantId now,
      SchedulesAsStated db (startEvents runtime outside true db assessmentId grantId now) ↔
        ¬StartAccepted runtime outside db assessmentId grantId now) ∧
    ∀ args, SchedulesAsStated db (missionEvents runtime outside true db args) ↔
      outside.threads = true ∨ ∀ id, ¬Moved db (missionEvents runtime outside true db args) id := by
  constructor
  · intro assessmentId grantId now
    exact schedulesAsStated_startEvents_iff runtime outside db assessmentId grantId now true
  · intro args
    exact schedulesAsStated_missionEvents_iff runtime outside db args

/-! ### An approved assessment -/

/-- An engagement that covers the scope of the assessment. -/
def sampleEngagement : EngagementGrant where
  id := "grant-a"
  projectId := "project-a"
  name := "engagement".toList
  scope := singleScope "scope-g" "project-a" "digest-g" "10.0.0.0/24".toList
  riskCaps := {.low}
  validFrom := 0
  validTo := 100
  createdBy := "operator"
  createdAt := 0
  status := .active
  digest := "digest-grant"

/-- The tables with an approved assessment. -/
def approvedDatabase : McpDatabase where
  core :=
    { assessments := Table.empty.put
        { id := "asm-a", projectId := "project-a", scopeSnapshotId := "scope-a", mode := .approval
          status := .approved, activePlanId := some "plan-a", approvalId := some "apr-a" }
      plans := Table.empty.put ⟨"plan-a", "asm-a", 1, [], "plan-digest"⟩
      scopes := projectScopes
      grants := Table.empty.put sampleEngagement }

/-- The start is committed, and the executor is never started. -/
theorem started_assessment_stalls :
    let call := ToolCall.assessmentStart "asm-a" (some "grant-a") 50
    let after := call.run sampleRuntime {} approvedDatabase
    let events := startEvents sampleRuntime {} true approvedDatabase "asm-a" (some "grant-a") 50
    after.2 = some .success ∧
      (after.1.core.assessments.get? "asm-a").map Assessment.status = some .queued ∧
      events.filter CallEvent.isSchedule = [] ∧ ¬SchedulesAsStated approvedDatabase events := by
  intro call after events
  have haccepted : StartAccepted sampleRuntime {} approvedDatabase "asm-a" (some "grant-a") 50 := by
    refine ⟨⟨"grant-a", rfl, by decide, by decide +kernel⟩, ?_, rfl⟩
    exact ⟨_, "plan-a", "apr-a", rfl, rfl, rfl, by decide, rfl, by decide⟩
  refine ⟨by decide +kernel, by decide +kernel, startEvents_unscheduled .., ?_⟩
  rw [schedulesAsStated_startEvents_iff]
  exact not_not_intro haccepted

end SecOpent
