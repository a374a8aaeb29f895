import SecOpent.Jobs.Repository
import SecOpent.Python.Json
import SecOpent.ReasoningLoop.PermitGate
import SecOpent.ReasoningLoop.States
import SecOpent.Transition.Conditions

/-!
# Scheduling permitted steps

`application/reasoning_loop/loop_scheduler.py` and `job_builder.py`: a step of a loop that holds a
permit becomes a plain job. The scheduler asks the verifier about the permit, with no nonce to
refuse, and the store about the key of the step. It does not remember the nonces of the permits that
it accepted, and it does not compare the tool and the parameters with what the permit was issued for.

## Main definitions

* `LoopPayload`, `buildJob`
* `ScheduleCall`, `schedule`: a call, and what it returns and leaves
* `Scheduling`: the store, and the jobs that were added to it by calls
* `Scheduling.SingleUse`, `Scheduling.Bound`: what the permits of the added jobs promise
* `ProperCall`: a permit that is presented once, with its own action

## Main results

* `schedule_store`: a call adds at most one job
* `single_use_iff`: permits are single-use and bound to their actions exactly if the calls are proper
-/

namespace SecOpent

open Python Transition

/-! ## Jobs of a loop -/

/-- The parameters of the job of a step. -/
structure LoopPayload where
  loopId : String
  stepId : String
  stepNumber : ℤ
  proposedActionDigest : String
  permitId : String
  toolOrCaseId : String
  parameters : List (String × Json)

/-- `idempotency_key`. -/
def stepKey (loopId : LoopId) (stepId : String) : String := loopId.value ++ ":" ++ stepId

/-- `build_job`. -/
def buildJob (loopId : LoopId) (stepNumber : ℤ) (permit : LoopPermit) (toolOrCaseId : String)
    (parameters : List (String × Json)) : ParameterJob LoopPayload :=
  let stepId := String.ofList (intRepr stepNumber)
  { id := "job:loop:" ++ stepKey loopId stepId
    planStepKey := "loop:" ++ stepKey loopId stepId
    idempotencyKey := stepKey loopId stepId
    status := .ready
    dependencies := []
    resultDigest := ""
    failureClass := ""
    parameters :=
      { loopId := loopId.value
        stepId := stepId
        stepNumber := stepNumber
        proposedActionDigest := permit.scopeDigest
        permitId := permit.jobId
        toolOrCaseId := toolOrCaseId
        parameters := parameters } }

/-! ## Calls -/

/-- A call of `schedule` at a time, with a permit that was issued by the gate. -/
structure ScheduleCall where
  loopId : LoopId
  stepId : String
  toolOrCaseId : String
  parameters : List (String × Json)
  issuance : Issuance
  workerId : String
  now : Time

variable (U : Unicode) (H : Sha256) (key : PermitKey)

namespace ScheduleCall

variable (call : ScheduleCall)

/-- The permit that is presented. -/
def permit : LoopPermit := call.issuance.permit H key

/-- `_permit_valid`: every error of the verifier is a refusal, and no nonce is refused. -/
def permitValid : Bool := (key.verify (call.permit H key) call.now [] (some call.workerId)).isOk

/-- `_already_scheduled`. -/
def alreadyScheduled (store : MemoryJobStore LoopPayload) : Bool :=
  store.jobs.values.any fun job => job.idempotencyKey == stepKey call.loopId call.stepId

/-- The job that the call builds: `int(step_id)` may raise. -/
def job? : Option (ParameterJob LoopPayload) :=
  (Python.int U call.stepId.toList).map fun stepNumber =>
    buildJob call.loopId stepNumber (call.permit H key) call.toolOrCaseId call.parameters

end ScheduleCall

/-- `JobService.add`, on the store in memory. -/
def addJob (store : MemoryJobStore LoopPayload) (job : ParameterJob LoopPayload) :
    MemoryJobStore LoopPayload :=
  afterOp store (store.perform 0 (.add job))

/-- `LoopJobScheduler.schedule`. -/
def schedule (store : MemoryJobStore LoopPayload) (call : ScheduleCall) :
    Except PyError (Bool × MemoryJobStore LoopPayload) :=
  if !call.permitValid H key then .ok (false, store)
  else if call.alreadyScheduled store then .ok (false, store)
  else do
    let job ← orValueError (call.job? U H key)
    pure (true, addJob store job)

/-- The store after a call; one that raises has changed nothing. -/
def storeAfter (store : MemoryJobStore LoopPayload) (call : ScheduleCall) :
    MemoryJobStore LoopPayload :=
  match schedule U H key store call with
  | .ok (_, store') => store'
  | .error _ => store

/-! ## Sequences of calls -/

/-- A job that was added to the store, with the call that added it. -/
structure Enqueued where
  call : ScheduleCall
  job : ParameterJob LoopPayload

/-- The jobs that one store has and another has not, by their idempotency keys. -/
def newJobs (before after : MemoryJobStore LoopPayload) : List (ParameterJob LoopPayload) :=
  after.jobs.values.filter fun job =>
    before.jobs.values.all fun old => old.idempotencyKey != job.idempotencyKey

/-- The store, and the jobs that calls have added to it. -/
structure Scheduling where
  store : MemoryJobStore LoopPayload
  enqueued : List Enqueued := []

namespace Scheduling

/-- One call. -/
def step (w : Scheduling) (call : ScheduleCall) : Option Scheduling :=
  let store := storeAfter U H key w.store call
  some ⟨store, w.enqueued ++ (newJobs w.store store).map fun job => ⟨call, job⟩⟩

/-- No two distinct jobs were added under the nonce of one permit. -/
def SingleUse (w : Scheduling) : Prop :=
  ∀ e ∈ w.enqueued, ∀ e' ∈ w.enqueued,
    (e.call.permit H key).nonce = (e'.call.permit H key).nonce → e.job.id = e'.job.id

/-- Every job that was added runs the action that its permit was issued for. -/
def Bound (w : Scheduling) : Prop :=
  ∀ e ∈ w.enqueued, e.job.parameters.toolOrCaseId = e.call.issuance.action.capability ∧
    e.job.parameters.parameters = e.call.issuance.action.parameters

end Scheduling

/-- The call has its job added: its permit verifies, and the store has no job of its step. -/
def ScheduleCall.Adds (call : ScheduleCall) (store : MemoryJobStore LoopPayload) : Prop :=
  call.permitValid H key = true ∧ call.alreadyScheduled store = false ∧
    ∃ job, call.job? U H key = some job ∧
      ∀ old ∈ store.jobs.values, old.idempotencyKey ≠ job.idempotencyKey

/-- A call that has its job added presents a permit under whose nonce no job was added, and the tool
or case and the parameters of the action that the permit was issued for. -/
def ProperCall (w : Scheduling) (call : ScheduleCall) : Prop :=
  call.Adds U H key w.store →
    (∀ e ∈ w.enqueued, (e.call.permit H key).nonce ≠ (call.permit H key).nonce) ∧
      call.toolOrCaseId = call.issuance.action.capability ∧
      call.parameters = call.issuance.action.parameters

section Scheduling

variable {U} {H} {key} {w w' : Scheduling} {call : ScheduleCall}
  {store : MemoryJobStore LoopPayload} {job : ParameterJob LoopPayload}

/-! ## One call -/

theorem addJob_of_new (h : ∀ old ∈ store.jobs.values, old.idempotencyKey ≠ job.idempotencyKey) :
    addJob store job = ⟨store.jobs.set job.id job⟩ := by
  have hnone : (store.jobs.values.find? fun existing =>
      existing.idempotencyKey == job.idempotencyKey) = none :=
    List.find?_eq_none.mpr fun old hold => by simpa using h old hold
  simp [addJob, MemoryJobStore.perform, hnone, afterOp]

theorem addJob_of_old {old : ParameterJob LoopPayload} (hold : old ∈ store.jobs.values)
    (h : old.idempotencyKey = job.idempotencyKey) : addJob store job = store := by
  obtain ⟨existing, hexisting⟩ : ∃ existing, (store.jobs.values.find? fun existing =>
      existing.idempotencyKey == job.idempotencyKey) = some existing := by
    rw [← Option.isSome_iff_exists, List.find?_isSome]
    exact ⟨old, hold, by simpa using h⟩
  simp [addJob, MemoryJobStore.perform, hexisting, afterOp]

/-- **A call adds the job that it builds**, or leaves the store as it was. -/
theorem schedule_store (U : Unicode) (H : Sha256) (key : PermitKey) (call : ScheduleCall)
    (store : MemoryJobStore LoopPayload) :
    (∃ job, call.job? U H key = some job ∧
        (∀ old ∈ store.jobs.values, old.idempotencyKey ≠ job.idempotencyKey) ∧
        call.Adds U H key store ∧ storeAfter U H key store call = ⟨store.jobs.set job.id job⟩) ∨
      (¬call.Adds U H key store ∧ storeAfter U H key store call = store) := by
  by_cases hvalid : call.permitValid H key = true
  · by_cases hscheduled : call.alreadyScheduled store = true
    · refine .inr ⟨fun h => ?_, by simp [storeAfter, schedule, hvalid, hscheduled]⟩
      rw [h.2.1] at hscheduled
      cases hscheduled
    · have hunscheduled : call.alreadyScheduled store = false := by simpa using hscheduled
      cases hjob : call.job? U H key with
      | none =>
        refine .inr ⟨?_, by simp [storeAfter, schedule, hvalid, hunscheduled, hjob, orValueError,
          bind, Except.bind]⟩
        rintro ⟨-, -, job, hsome, -⟩
        rw [hjob] at hsome
        cases hsome
      | some job =>
        have hafter : storeAfter U H key store call = addJob store job := by
          simp [storeAfter, schedule, hvalid, hunscheduled, hjob, orValueError, bind, Except.bind,
            pure, Except.pure]
        by_cases hnew : ∀ old ∈ store.jobs.values, old.idempotencyKey ≠ job.idempotencyKey
        · exact .inl ⟨job, rfl, hnew, ⟨hvalid, hunscheduled, job, hjob, hnew⟩,
            hafter.trans (addJob_of_new hnew)⟩
        · -- The number of the step is written otherwise, and a job has its key.
          push Not at hnew
          obtain ⟨old, hold, hkey⟩ := hnew
          refine .inr ⟨?_, hafter.trans (addJob_of_old hold hkey)⟩
          rintro ⟨-, -, job', hsome, hnew⟩
          rw [hjob] at hsome
          cases hsome
          exact hnew old hold hkey
  · refine .inr ⟨fun h => hvalid h.1, by simp [storeAfter, schedule, hvalid]⟩

theorem newJobs_self (store : MemoryJobStore LoopPayload) : newJobs store store = [] := by
  refine List.filter_eq_nil_iff.mpr fun job hjob => ?_
  rw [List.all_eq_true]
  intro h
  simpa using h job hjob

/-- A job with a new key is the one new job, also when its id was taken. -/
theorem newJobs_set (h : ∀ old ∈ store.jobs.values, old.idempotencyKey ≠ job.idempotencyKey) :
    newJobs store ⟨store.jobs.set job.id job⟩ = [job] := by
  refine Dict.filter_values_set _ _ ?_ fun old hold => ?_
  · exact List.all_eq_true.mpr fun old hold => by simpa using h old hold
  · refine Bool.eq_false_iff.mpr fun hall => ?_
    simpa using List.all_eq_true.mp hall old hold

/-- What a call adds to the record. -/
theorem step_cases (h : w.step U H key call = some w') :
    (∃ job, call.job? U H key = some job ∧
        (∀ old ∈ w.store.jobs.values, old.idempotencyKey ≠ job.idempotencyKey) ∧
        call.Adds U H key w.store ∧
        w' = ⟨⟨w.store.jobs.set job.id job⟩, w.enqueued ++ [⟨call, job⟩]⟩) ∨
      (¬call.Adds U H key w.store ∧ w' = w) := by
  obtain rfl := Option.some.inj h
  rcases schedule_store U H key call w.store with
    ⟨job, hjob, hnew, hadds, hafter⟩ | ⟨hadds, hafter⟩
  · refine .inl ⟨job, hjob, hnew, hadds, ?_⟩
    simp only [hafter, newJobs_set hnew, List.map_cons, List.map_nil]
  · refine .inr ⟨hadds, ?_⟩
    simp only [hafter, newJobs_self, List.map_nil, List.append_nil]

/-! ## Runs -/

/-- The key of a job that was added is in the store, under the id that the key gives. -/
def KeysStored (w : Scheduling) : Prop :=
  ∀ e ∈ w.enqueued, e.job.id = "job:loop:" ++ e.job.idempotencyKey ∧
    ∃ stored, w.store.jobs.get? e.job.id = some stored ∧
      stored.idempotencyKey = e.job.idempotencyKey

/-- What `build_job` fixes. -/
theorem job?_spec (h : call.job? U H key = some job) :
    job.id = "job:loop:" ++ job.idempotencyKey ∧
      job.parameters.toolOrCaseId = call.toolOrCaseId ∧
      job.parameters.parameters = call.parameters := by
  obtain ⟨stepNumber, -, rfl⟩ := Option.map_eq_some_iff.mp h
  exact ⟨rfl, rfl, rfl⟩

theorem loopJobId_inj {a b : String} (h : "job:loop:" ++ a = "job:loop:" ++ b) : a = b := by
  have hlist := congrArg String.toList h
  exact String.toList_inj.mp (by simpa using hlist)

theorem KeysStored.step (hw : KeysStored w) (h : w.step U H key call = some w') : KeysStored w' := by
  rcases step_cases h with ⟨job, hjob, -, -, rfl⟩ | ⟨-, rfl⟩
  · intro e he
    have hid := (job?_spec hjob).1
    rcases List.mem_append.mp he with he | he
    · obtain ⟨heid, stored, hstored, hkey⟩ := hw e he
      refine ⟨heid, ?_⟩
      simp only [Dict.get?_set]
      by_cases hsame : e.job.id = job.id
      · -- The id is the one of the new job, so the key is too.
        rw [if_pos hsame]
        exact ⟨job, rfl, (loopJobId_inj (heid.symm.trans (hsame.trans hid))).symm⟩
      · rw [if_neg hsame]
        exact ⟨stored, hstored, hkey⟩
    · obtain rfl := List.mem_singleton.mp he
      exact ⟨hid, job, by simp, rfl⟩
  · exact hw

/-- One more job keeps permits single-use exactly if no job was added under its nonce. -/
theorem singleUse_concat (hw : KeysStored w) (hjob : call.job? U H key = some job)
    (hnew : ∀ old ∈ w.store.jobs.values, old.idempotencyKey ≠ job.idempotencyKey) :
    Scheduling.SingleUse H key ⟨store, w.enqueued ++ [⟨call, job⟩]⟩ ↔
      w.SingleUse H key ∧
        ∀ e ∈ w.enqueued, (e.call.permit H key).nonce ≠ (call.permit H key).nonce := by
  refine (forall_pairs_concat (fun e e' h hnonce => (h hnonce.symm).symm) fun _ => rfl).trans ?_
  refine and_congr_right fun _ => forall₂_congr fun e he => ?_
  -- The job under the same nonce would have the id of the new one, but its key is in the store.
  obtain ⟨heid, stored, hstored, hkey⟩ := hw e he
  have hmem : stored ∈ w.store.jobs.values := Dict.mem_values.mpr ⟨_, hstored⟩
  have hne : e.job.id ≠ job.id := fun hsame => hnew stored hmem
    (hkey.trans (loopJobId_inj (heid.symm.trans (hsame.trans (job?_spec hjob).1))))
  exact ⟨fun h hnonce => hne (h hnonce), fun h hnonce => absurd hnonce h⟩

/-- One call keeps permits single-use and bound to their actions exactly if it is proper. -/
theorem single_use_step (hw : KeysStored w) (h : w.step U H key call = some w') :
    (w'.SingleUse H key ∧ w'.Bound) ↔
      (w.SingleUse H key ∧ w.Bound) ∧ ProperCall U H key w call := by
  rcases step_cases h with ⟨job, hjob, hnew, hadds, rfl⟩ | ⟨hadds, rfl⟩
  · obtain ⟨-, htool, hparameters⟩ := job?_spec hjob
    have hbound : Scheduling.Bound ⟨⟨w.store.jobs.set job.id job⟩, w.enqueued ++ [⟨call, job⟩]⟩ ↔
        w.Bound ∧ call.toolOrCaseId = call.issuance.action.capability ∧
          call.parameters = call.issuance.action.parameters := by
      simp only [Scheduling.Bound, List.forall_mem_append, List.forall_mem_singleton, htool,
        hparameters]
    rw [singleUse_concat hw hjob hnew, hbound]
    constructor
    · rintro ⟨⟨hsingle, hfresh⟩, hbound, hown⟩
      exact ⟨⟨hsingle, hbound⟩, fun _ => ⟨hfresh, hown⟩⟩
    · rintro ⟨⟨hsingle, hbound⟩, hproper⟩
      obtain ⟨hfresh, hown⟩ := hproper hadds
      exact ⟨⟨hsingle, hfresh⟩, hbound, hown⟩
  · exact ⟨fun hgood => ⟨hgood, fun h => absurd h hadds⟩, fun hgood => hgood.1⟩

/-- **Permits are single-use and bound to their actions** after a sequence of calls on any store
exactly if every call is proper. -/
theorem single_use_iff (U : Unicode) (H : Sha256) (key : PermitKey)
    (store : MemoryJobStore LoopPayload) (calls : List ScheduleCall) (w : Scheduling)
    (h : runLabels (Scheduling.step U H key) ⟨store, []⟩ calls = some w) :
    (w.SingleUse H key ∧ w.Bound) ↔
      runMeets (Scheduling.step U H key) (ProperCall U H key) ⟨store, []⟩ calls := by
  have hstart : KeysStored ⟨store, []⟩ := by simp [KeysStored]
  have hexact : (w.SingleUse H key ∧ w.Bound) ↔
      (Scheduling.SingleUse H key ⟨store, []⟩ ∧ Scheduling.Bound ⟨store, []⟩) ∧
        runMeets (Scheduling.step U H key) (ProperCall U H key) ⟨store, []⟩ calls :=
    runMeets_exact (P := fun w : Scheduling => w.SingleUse H key ∧ w.Bound)
      (fun w call w' hw => KeysStored.step hw) (fun w call w' hw => single_use_step hw) hstart h
  rw [hexact]
  refine ⟨fun h => h.2, fun h => ⟨⟨?_, ?_⟩, h⟩⟩
  · simp [Scheduling.SingleUse]
  · simp [Scheduling.Bound]

end Scheduling

/-! ### One permit, presented twice -/

/-- Keys whose signatures are one text. -/
def stampKey : PermitKey where
  sign _ := "stamp"
  verifies permit := permit.signature == "stamp"
  verifies_sign _ := rfl

/-- A scan of one host. -/
def scanAction : ProposeAction where
  actionType := .runTool
  payload := runToolPayload "nmap" [("host", .text "192.0.2.7")]
  rationale := "the open ports of the host are not known yet, so scan it first"
  confidence := ⟨['0', '.', '8'], List.all_eq_true.mp (by decide), by decide⟩
  payload_valid := rfl
  rationale_length := by decide

/-- A permit for the scan, for 15 minutes. -/
def scanIssuance : Issuance :=
  ⟨scanAction, .blank, 900000000, 0, "nonce", by decide, by decide⟩

/-- The scan as the permit allows it, as step 1. -/
def scanCall : ScheduleCall where
  loopId := firstLoopId
  stepId := "1"
  toolOrCaseId := "nmap"
  parameters := [("host", .text "192.0.2.7")]
  issuance := scanIssuance
  workerId := loopWorkerId
  now := 1000000

/-- Another tool on another host, as step 2, with the permit for the scan. -/
def otherCall : ScheduleCall :=
  { scanCall with
    stepId := "2"
    toolOrCaseId := "sqlmap"
    parameters := [("host", .text "192.0.2.9")]
    now := 2000000 }

/-- The jobs that were added: the nonce of the permit, the id of the job, the tool that it runs and
the tool that the permit was issued for. -/
def Scheduling.summary (w : Scheduling) : List (String × String × String × String) :=
  w.enqueued.map fun e =>
    ((e.call.permit codeDigest stampKey).nonce, e.job.id, e.job.parameters.toolOrCaseId,
      e.call.issuance.action.capability)

/-- The scan is scheduled once. -/
theorem single_use_scan :
    ∃ w, runLabels (Scheduling.step .ascii codeDigest stampKey) ⟨⟨.empty⟩, []⟩ [scanCall] = some w ∧
      w.summary = [("nonce", "job:loop:abcd1234:1", "nmap", "nmap")] ∧
      w.SingleUse codeDigest stampKey ∧ w.Bound := by
  refine ⟨_, rfl, by decide +kernel, ?_⟩
  refine (single_use_iff .ascii codeDigest stampKey ⟨.empty⟩ [scanCall] _ rfl).mpr ⟨?_, ?_⟩
  · exact fun _ => ⟨by simp, rfl, rfl⟩
  · exact fun _ _ => trivial

/-- The permit is accepted again, and for an action that it was not issued for. -/
theorem replayed_permit_accepted :
    ∃ w, runLabels (Scheduling.step .ascii codeDigest stampKey) ⟨⟨.empty⟩, []⟩
        [scanCall, otherCall] = some w ∧
      ¬w.SingleUse codeDigest stampKey ∧ ¬w.Bound := by
  obtain ⟨w, hrun, hsummary⟩ : ∃ w, runLabels (Scheduling.step .ascii codeDigest stampKey)
      ⟨⟨.empty⟩, []⟩ [scanCall, otherCall] = some w ∧
      w.summary = [("nonce", "job:loop:abcd1234:1", "nmap", "nmap"),
        ("nonce", "job:loop:abcd1234:2", "sqlmap", "nmap")] :=
    ⟨_, rfl, by decide +kernel⟩
  obtain ⟨e, rest, henqueued, he, hrest⟩ := List.map_eq_cons_iff.mp hsummary
  obtain ⟨e', others, rfl, he', -⟩ := List.map_eq_cons_iff.mp hrest
  simp only [Prod.mk.injEq] at he he'
  have hmem : e ∈ w.enqueued := by simp [henqueued]
  have hmem' : e' ∈ w.enqueued := by simp [henqueued]
  refine ⟨w, hrun, fun hsingle => ?_, fun hbound => ?_⟩
  · have hid := hsingle e hmem e' hmem' (he.1.trans he'.1.symm)
    rw [he.2.1, he'.2.1] at hid
    exact absurd hid (by decide)
  · have htool := (hbound e' hmem').1
    rw [he'.2.2.1, he'.2.2.2] at htool
    exact absurd htool (by decide)

end SecOpent
