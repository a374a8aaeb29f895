import SecOpent.ReasoningLoop.LoopScheduler

/-!
# What the scheduler answers

`LoopJobScheduler.schedule` looks for the key of a step as the caller wrote it, and the job that it
builds has the key of the number that was read from what the caller wrote. The texts `1` and `01` are
one number. A step that is written in another way than before is not found, and the store keeps the
job that it has, but the answer is that new work was enqueued.

## Main definitions

* `ScheduleCall.jobKey?`: the job that a call comes down to
* `Answering`: the store, and the calls that were answered
* `Answering.Truthful`, `Answering.Separate`: what the answers promise
* `ScheduleCall.WrittenAsBefore`: a call that writes its step as the calls before it did

## Main results

* `jobKey?_loopId`: jobs of two loops are two jobs
* `answers_truthful_iff`: the answers are right exactly if every step is written as before
* `writtenAsBefore_of_plain`: steps that are written as `str` writes them are written as before
-/

namespace SecOpent

open Python Transition

/-! ## Answers -/

section Answers

variable (U : Unicode) (H : Sha256) (key : PermitKey)

/-- The idempotency key of the job that a call comes down to: the job of the step that the store has
already, or else the job that the call builds. -/
def ScheduleCall.jobKey? (call : ScheduleCall) (store : MemoryJobStore LoopPayload) :
    Option String :=
  if !call.permitValid H key then none
  else if call.alreadyScheduled store then some (stepKey call.loopId call.stepId)
  else (call.job? U H key).map fun job => job.idempotencyKey

/-- A call, what it returned or raised, the job that it came down to, and the jobs that it added. -/
structure ScheduleAnswer where
  call : ScheduleCall
  answer : Except PyError Bool
  jobKey? : Option String
  added : List (ParameterJob LoopPayload)

/-- The store, and the calls that were answered. -/
structure Answering where
  store : MemoryJobStore LoopPayload
  answered : List ScheduleAnswer := []

namespace Answering

/-- One call. -/
def step (w : Answering) (call : ScheduleCall) : Option Answering :=
  let store := storeAfter U H key w.store call
  some ⟨store, w.answered ++
    [⟨call, (schedule U H key w.store call).map Prod.fst, call.jobKey? U H key w.store,
      newJobs w.store store⟩]⟩

/-- The calls that returned `True` are those that added a job. -/
def Truthful (w : Answering) : Prop :=
  ∀ e ∈ w.answered, e.answer = .ok true ↔ e.added ≠ []

/-- A call that came down to a job that an earlier call added is for the same step of the same loop. -/
def Separate (w : Answering) : Prop :=
  w.answered.Pairwise fun e d => ∀ job ∈ e.added, d.jobKey? = some job.idempotencyKey →
    e.call.loopId = d.call.loopId ∧ e.call.stepId = d.call.stepId

end Answering

/-- A call whose permit verifies writes its step as before: if the store has the job of the number
that is read, then it has one under what is written; and if the step is written as `str` writes the
number, then so it was by the call that added the job. -/
def ScheduleCall.WrittenAsBefore (w : Answering) (call : ScheduleCall) : Prop :=
  call.permitValid H key = true →
    (∀ job, call.job? U H key = some job →
      (∃ old ∈ w.store.jobs.values, old.idempotencyKey = job.idempotencyKey) →
        call.alreadyScheduled w.store = true) ∧
      ∀ e ∈ w.answered, e.added ≠ [] → e.call.loopId = call.loopId →
        ∀ stepNumber, Python.int U e.call.stepId.toList = some stepNumber →
          call.stepId = String.ofList (intRepr stepNumber) → e.call.stepId = call.stepId

/-- The step is written as `str` writes its number. -/
def ScheduleCall.Plain (call : ScheduleCall) : Prop :=
  ∀ stepNumber, Python.int U call.stepId.toList = some stepNumber →
    call.stepId = String.ofList (intRepr stepNumber)

end Answers

section Answering

variable {U : Unicode} {H : Sha256} {key : PermitKey} {w w' : Answering} {call : ScheduleCall}
  {store : MemoryJobStore LoopPayload} {job : ParameterJob LoopPayload} {k : String}

/-! ## Keys -/

theorem LoopId.length_value (loopId : LoopId) : loopId.value.toList.length = 8 := by
  have hvalid := loopId.valid
  simp only [isLoopIdText, Bool.and_eq_true, beq_iff_eq] at hvalid
  exact hvalid.1

/-- The loop and the step can be read from a key, since the ids of loops have one length. -/
theorem stepKey_inj {a b : LoopId} {s t : String} (h : stepKey a s = stepKey b t) :
    a = b ∧ s = t := by
  have hlist : a.value.toList ++ (":".toList ++ s.toList) =
      b.value.toList ++ (":".toList ++ t.toList) := by
    have := congrArg String.toList h
    simpa only [stepKey, String.toList_append, List.append_assoc] using this
  -- The first eight characters are the loop.
  obtain ⟨hloop, hrest⟩ :=
    List.append_inj hlist (a.length_value.trans b.length_value.symm)
  obtain ⟨a, ha⟩ := a
  obtain ⟨b, hb⟩ := b
  obtain rfl : a = b := String.toList_inj.mp hloop
  exact ⟨rfl, String.toList_inj.mp (List.append_cancel_left hrest)⟩

theorem alreadyScheduled_iff : call.alreadyScheduled store = true ↔
    ∃ old ∈ store.jobs.values, old.idempotencyKey = stepKey call.loopId call.stepId := by
  simp only [ScheduleCall.alreadyScheduled, List.any_eq_true, beq_iff_eq]

/-- The key of the job that a call builds is the one of its loop and of the number of its step. -/
theorem job?_key (h : call.job? U H key = some job) :
    ∃ stepNumber, Python.int U call.stepId.toList = some stepNumber ∧
      job.idempotencyKey = stepKey call.loopId (String.ofList (intRepr stepNumber)) := by
  obtain ⟨stepNumber, hnumber, rfl⟩ := Option.map_eq_some_iff.mp h
  exact ⟨stepNumber, hnumber, rfl⟩

/-- What a call comes down to. -/
theorem jobKey?_cases (h : call.jobKey? U H key store = some k) :
    call.permitValid H key = true ∧
      ((call.alreadyScheduled store = true ∧ k = stepKey call.loopId call.stepId) ∨
        (call.alreadyScheduled store = false ∧
          ∃ job, call.job? U H key = some job ∧ k = job.idempotencyKey)) := by
  unfold ScheduleCall.jobKey? at h
  cases hvalid : call.permitValid H key with
  | false => simp [hvalid] at h
  | true =>
    refine ⟨rfl, ?_⟩
    cases hscheduled : call.alreadyScheduled store with
    | true =>
      simp only [hvalid, hscheduled, Bool.not_true, if_true] at h
      exact .inl ⟨rfl, (Option.some.inj h).symm⟩
    | false =>
      simp only [hvalid, hscheduled, Bool.not_true] at h
      obtain ⟨job, hjob, hkey⟩ := Option.map_eq_some_iff.mp h
      exact .inr ⟨rfl, job, hjob, hkey.symm⟩

/-- A call comes down to a job of its own loop. -/
theorem jobKey?_text (h : call.jobKey? U H key store = some k) :
    ∃ text, k = stepKey call.loopId text := by
  rcases (jobKey?_cases h).2 with ⟨-, rfl⟩ | ⟨-, job, hjob, rfl⟩
  · exact ⟨_, rfl⟩
  · obtain ⟨stepNumber, -, hkey⟩ := job?_key hjob
    exact ⟨_, hkey⟩

/-- **Jobs of two loops are two jobs**, whatever the steps are and whatever the store holds. -/
theorem jobKey?_loopId {call' : ScheduleCall} {store' : MemoryJobStore LoopPayload}
    (h : call.jobKey? U H key store = some k) (h' : call'.jobKey? U H key store' = some k) :
    call.loopId = call'.loopId := by
  obtain ⟨text, rfl⟩ := jobKey?_text h
  obtain ⟨text', htext⟩ := jobKey?_text h'
  exact (stepKey_inj htext).1

/-! ## One call -/

/-- A call returns `True` when its permit verifies, it does not find its step, and it can read the
number of the step. -/
theorem answer_true_iff : (schedule U H key store call).map Prod.fst = .ok true ↔
    call.permitValid H key = true ∧ call.alreadyScheduled store = false ∧
      ∃ job, call.job? U H key = some job := by
  cases hvalid : call.permitValid H key with
  | false => simp [schedule, hvalid, Except.map]
  | true =>
    cases hscheduled : call.alreadyScheduled store with
    | true => simp [schedule, hvalid, hscheduled, Except.map]
    | false =>
      cases hjob : call.job? U H key with
      | none => simp [schedule, hvalid, hscheduled, hjob, orValueError, Except.map, bind,
          Except.bind]
      | some job => simp [schedule, hvalid, hscheduled, hjob, orValueError, Except.map, bind,
          Except.bind, pure, Except.pure]

theorem newJobs_ne_nil_iff :
    newJobs store (storeAfter U H key store call) ≠ [] ↔ call.Adds U H key store := by
  rcases schedule_store U H key call store with
    ⟨job, -, hnew, hadds, hafter⟩ | ⟨hadds, hafter⟩
  · rw [hafter, newJobs_set hnew]
    simp [hadds]
  · rw [hafter, newJobs_self]
    simp [hadds]

/-- The answer is right when the store has no job of the number that was read, or has it under what
was written. -/
theorem answer_right_iff :
    ((schedule U H key store call).map Prod.fst = .ok true ↔
        newJobs store (storeAfter U H key store call) ≠ []) ↔
      (call.permitValid H key = true → ∀ job, call.job? U H key = some job →
        (∃ old ∈ store.jobs.values, old.idempotencyKey = job.idempotencyKey) →
          call.alreadyScheduled store = true) := by
  rw [answer_true_iff, newJobs_ne_nil_iff]
  constructor
  · intro h hvalid job hjob hold
    by_contra hscheduled
    obtain ⟨-, -, job', hjob', hnew⟩ := h.mp ⟨hvalid, by simpa using hscheduled, job, hjob⟩
    rw [hjob] at hjob'
    cases hjob'
    obtain ⟨old, hmem, hkey⟩ := hold
    exact hnew old hmem hkey
  · intro h
    constructor
    · rintro ⟨hvalid, hscheduled, job, hjob⟩
      refine ⟨hvalid, hscheduled, job, hjob, fun old hmem hkey => ?_⟩
      -- A job with the key of the new one would have been found.
      rw [h hvalid job hjob ⟨old, hmem, hkey⟩] at hscheduled
      cases hscheduled
    · rintro ⟨hvalid, hscheduled, job, hjob, -⟩
      exact ⟨hvalid, hscheduled, job, hjob⟩

/-! ## Runs -/

/-- The jobs that calls have added, as a record of the scheduler. -/
def Answering.scheduling (w : Answering) : Scheduling :=
  ⟨w.store, w.answered.flatMap fun e => e.added.map fun job => ⟨e.call, job⟩⟩

/-- The answers and the record of the scheduler are of one run. -/
theorem scheduling_step (h : w.step U H key call = some w') :
    w.scheduling.step U H key call = some w'.scheduling := by
  obtain rfl := Option.some.inj h
  simp [Scheduling.step, Answering.scheduling]

theorem mem_scheduling {e : Enqueued} :
    e ∈ w.scheduling.enqueued ↔ ∃ d ∈ w.answered, d.call = e.call ∧ e.job ∈ d.added := by
  obtain ⟨call, job⟩ := e
  simp only [Answering.scheduling, List.mem_flatMap, List.mem_map, Enqueued.mk.injEq]
  constructor
  · rintro ⟨d, hd, job', hjob, hcall, rfl⟩
    exact ⟨d, hd, hcall, hjob⟩
  · rintro ⟨d, hd, hcall, hjob⟩
    exact ⟨d, hd, job, hjob, hcall, rfl⟩

variable (U H key) in
/-- The jobs that were added are those that the calls built, and their keys are in the store. -/
structure BuiltJobs (w : Answering) : Prop where
  stored : KeysStored w.scheduling
  built : ∀ e ∈ w.answered, ∀ job ∈ e.added, e.call.job? U H key = some job

theorem BuiltJobs.step (hw : BuiltJobs U H key w) (h : w.step U H key call = some w') :
    BuiltJobs U H key w' := by
  refine ⟨hw.stored.step (scheduling_step h), ?_⟩
  obtain rfl := Option.some.inj h
  simp only [List.forall_mem_append, List.forall_mem_singleton]
  refine ⟨hw.built, fun job hadded => ?_⟩
  rcases schedule_store U H key call w.store with ⟨job', hjob', hnew, -, hafter⟩ | ⟨-, hafter⟩
  · rw [hafter, newJobs_set hnew] at hadded
    obtain rfl := List.mem_singleton.mp hadded
    exact hjob'
  · rw [hafter, newJobs_self] at hadded
    cases hadded

/-- The key of a job that was added is in the store. -/
theorem BuiltJobs.exists_stored (hw : BuiltJobs U H key w) {e : ScheduleAnswer}
    (he : e ∈ w.answered) (hadded : job ∈ e.added) :
    ∃ old ∈ w.store.jobs.values, old.idempotencyKey = job.idempotencyKey := by
  obtain ⟨-, stored, hstored, hkey⟩ :=
    hw.stored ⟨e.call, job⟩ (mem_scheduling.mpr ⟨e, he, rfl, hadded⟩)
  exact ⟨stored, Dict.mem_values.mpr ⟨_, hstored⟩, hkey⟩

/-- A call whose answer is right keeps the steps apart exactly if it writes its step as the call did
that added the job. -/
theorem separate_iff (hw : BuiltJobs U H key w) (hvalid : call.permitValid H key = true)
    (hright : ∀ job, call.job? U H key = some job →
      (∃ old ∈ w.store.jobs.values, old.idempotencyKey = job.idempotencyKey) →
        call.alreadyScheduled w.store = true) :
    (∀ e ∈ w.answered, ∀ job ∈ e.added, call.jobKey? U H key w.store = some job.idempotencyKey →
        e.call.loopId = call.loopId ∧ e.call.stepId = call.stepId) ↔
      ∀ e ∈ w.answered, e.added ≠ [] → e.call.loopId = call.loopId →
        ∀ stepNumber, Python.int U e.call.stepId.toList = some stepNumber →
          call.stepId = String.ofList (intRepr stepNumber) → e.call.stepId = call.stepId := by
  refine forall₂_congr fun e he => ⟨fun h hadded hloop stepNumber hnumber hplain => ?_,
    fun h job hadded hkey => ?_⟩
  · -- The call finds the job that was added.
    obtain ⟨job, hjob⟩ := List.exists_mem_of_ne_nil _ hadded
    obtain ⟨stepNumber', hnumber', hjobKey⟩ := job?_key (hw.built e he job hjob)
    rw [hnumber] at hnumber'
    obtain rfl := Option.some.inj hnumber'
    rw [← hplain, hloop] at hjobKey
    have hscheduled : call.alreadyScheduled w.store = true :=
      alreadyScheduled_iff.mpr (hjobKey ▸ hw.exists_stored he hjob)
    exact (h job hjob (by simp [ScheduleCall.jobKey?, hvalid, hscheduled, hjobKey])).2
  · obtain ⟨stepNumber, hnumber, hjobKey⟩ := job?_key (hw.built e he job hadded)
    rcases (jobKey?_cases hkey).2 with ⟨-, hfound⟩ | ⟨hscheduled, job', hjob', hbuilt⟩
    · obtain ⟨hloop, hplain⟩ := stepKey_inj (hjobKey.symm.trans hfound)
      exact ⟨hloop, h (List.ne_nil_of_mem hadded) hloop stepNumber hnumber hplain.symm⟩
    · -- A job that the call builds is not in the store.
      rw [hright job' hjob' (hbuilt ▸ hw.exists_stored he hadded)] at hscheduled
      cases hscheduled

/-- One call keeps the answers right exactly if it writes its step as before. -/
theorem answers_truthful_step (hw : BuiltJobs U H key w) (h : w.step U H key call = some w') :
    (w'.Truthful ∧ w'.Separate) ↔
      (w.Truthful ∧ w.Separate) ∧ call.WrittenAsBefore U H key w := by
  obtain rfl := Option.some.inj h
  simp only [Answering.Truthful, Answering.Separate, List.forall_mem_append, answer_right_iff,
    List.pairwise_append, List.pairwise_singleton, List.mem_singleton, forall_eq, true_and]
  constructor
  · rintro ⟨⟨hold, hright⟩, hseparate, hsame⟩
    exact ⟨⟨hold, hseparate⟩, fun hvalid =>
      ⟨hright hvalid, (separate_iff hw hvalid (hright hvalid)).mp hsame⟩⟩
  · rintro ⟨⟨hold, hseparate⟩, hwritten⟩
    refine ⟨⟨hold, fun hvalid => (hwritten hvalid).1⟩, hseparate, fun e he job hadded hkey => ?_⟩
    have hvalid := (jobKey?_cases hkey).1
    obtain ⟨hright, hbefore⟩ := hwritten hvalid
    exact (separate_iff hw hvalid hright).mpr hbefore e he job hadded hkey

variable (U) in
/-- The steps of all calls that were answered are written as `str` writes them. -/
def PlainCalls (w : Answering) : Prop := ∀ e ∈ w.answered, e.call.Plain U

theorem PlainCalls.step (hw : PlainCalls U w) (hplain : call.Plain U)
    (h : w.step U H key call = some w') : PlainCalls U w' := by
  obtain rfl := Option.some.inj h
  simp only [PlainCalls, List.forall_mem_append, List.forall_mem_singleton]
  exact ⟨hw, hplain⟩

theorem PlainCalls.writtenAsBefore (hw : PlainCalls U w) (hplain : call.Plain U) :
    call.WrittenAsBefore U H key w := by
  refine fun _ => ⟨fun job hjob hold => ?_, fun e he _ _ stepNumber hnumber hwritten => ?_⟩
  · obtain ⟨stepNumber, hnumber, hkey⟩ := job?_key hjob
    rw [hkey, ← hplain stepNumber hnumber] at hold
    exact alreadyScheduled_iff.mpr hold
  · exact (hw e he stepNumber hnumber).trans hwritten.symm

/-- Steps that are written as `str` writes them are written as before, on any store. -/
theorem writtenAsBefore_of_plain {calls : List ScheduleCall} (h : ∀ call ∈ calls, call.Plain U) :
    runMeets (Answering.step U H key) (ScheduleCall.WrittenAsBefore U H key) ⟨store, []⟩ calls := by
  have hplain : runMeets (Answering.step U H key) (fun _ call => call.Plain U) ⟨store, []⟩ calls :=
    runMeets_of_forall fun call hcall _ => h call hcall
  have hboth : runMeets (Answering.step U H key)
      (fun w call => ScheduleCall.WrittenAsBefore U H key w call ∧ call.Plain U)
      ⟨store, []⟩ calls := by
    refine (runMeets_iff (PlainCalls U) (fun w call hw => ?_) (fun w call w' hw => hw.step)
      ?_).mpr hplain
    · exact ⟨fun h => h.2, fun h => ⟨hw.writtenAsBefore h, h⟩⟩
    · simp [PlainCalls]
  exact (runMeets_and.mp hboth).1

/-- **Answers are truthful, and steps have jobs of their own**, after a sequence of calls on any store
exactly if every call writes its step as before. -/
theorem answers_truthful_iff (U : Unicode) (H : Sha256) (key : PermitKey)
    (store : MemoryJobStore LoopPayload) (calls : List ScheduleCall) (w : Answering)
    (h : runLabels (Answering.step U H key) ⟨store, []⟩ calls = some w) :
    (w.Truthful ∧ w.Separate) ↔
      runMeets (Answering.step U H key) (ScheduleCall.WrittenAsBefore U H key) ⟨store, []⟩
        calls := by
  have hstart : BuiltJobs U H key ⟨store, []⟩ :=
    ⟨by simp [KeysStored, Answering.scheduling], by simp⟩
  have hexact := runMeets_exact (P := fun w : Answering => w.Truthful ∧ w.Separate)
    (fun w call w' hw => BuiltJobs.step hw) (fun w call w' hw => answers_truthful_step hw) hstart h
  rw [hexact]
  refine ⟨fun h => h.2, fun h => ⟨⟨?_, ?_⟩, h⟩⟩
  · simp [Answering.Truthful]
  · simp [Answering.Separate]

/-! ### A step in two spellings -/

/-- The calls that were answered: the step, what was returned, and the keys of the job that the call
came down to and of the jobs that it added. -/
def Answering.summary (w : Answering) :
    List (String × Option Bool × Option String × List String) :=
  w.answered.map fun e =>
    (e.call.stepId, e.answer.toOption, e.jobKey?, e.added.map fun job => job.idempotencyKey)

/-- A step that is scheduled again as it was written before is reported as scheduled. -/
theorem answers_truthful_scan :
    ∃ w, runLabels (Answering.step .ascii codeDigest stampKey) ⟨⟨.empty⟩, []⟩
        [scanCall, scanCall, otherCall] = some w ∧
      w.summary = [("1", some true, some "abcd1234:1", ["abcd1234:1"]),
        ("1", some false, some "abcd1234:1", []),
        ("2", some true, some "abcd1234:2", ["abcd1234:2"])] ∧
      w.Truthful ∧ w.Separate := by
  refine ⟨_, rfl, by decide +kernel, ?_⟩
  refine (answers_truthful_iff .ascii codeDigest stampKey ⟨.empty⟩
    [scanCall, scanCall, otherCall] _ rfl).mpr (writtenAsBefore_of_plain ?_)
  simp only [List.forall_mem_cons]
  have hscan : scanCall.Plain .ascii := fun stepNumber hnumber => by
    cases hnumber
    decide +kernel
  have hother : otherCall.Plain .ascii := fun stepNumber hnumber => by
    cases hnumber
    decide +kernel
  exact ⟨hscan, hscan, hother, by simp⟩

/-- Step `1`, written as `01`. -/
def paddedCall : ScheduleCall := { scanCall with stepId := "01" }

/-- The call for step `01` returns `True` and adds nothing: it came down to the job of step `1`. -/
theorem padded_step_reported_new :
    ∃ w, runLabels (Answering.step .ascii codeDigest stampKey) ⟨⟨.empty⟩, []⟩
        [scanCall, paddedCall] = some w ∧ ¬w.Truthful ∧ ¬w.Separate := by
  obtain ⟨w, hrun, hsummary⟩ : ∃ w, runLabels (Answering.step .ascii codeDigest stampKey)
      ⟨⟨.empty⟩, []⟩ [scanCall, paddedCall] = some w ∧
      w.summary = [("1", some true, some "abcd1234:1", ["abcd1234:1"]),
        ("01", some true, some "abcd1234:1", [])] :=
    ⟨_, rfl, by decide +kernel⟩
  obtain ⟨e, rest, hanswered, he, hrest⟩ := List.map_eq_cons_iff.mp hsummary
  obtain ⟨e', others, rfl, he', -⟩ := List.map_eq_cons_iff.mp hrest
  simp only [Prod.mk.injEq] at he he'
  obtain ⟨hstep, -, -, hadded⟩ := he
  obtain ⟨hstep', hanswer', hkey', hadded'⟩ := he'
  refine ⟨w, hrun, fun htruthful => ?_, fun hseparate => ?_⟩
  · -- It returned `True`.
    have hmem' : e' ∈ w.answered := by simp [hanswered]
    have htrue : e'.answer = .ok true := by
      cases hanswer : e'.answer with
      | error error => simp [hanswer, Except.toOption] at hanswer'
      | ok answer => simpa [hanswer, Except.toOption] using hanswer'
    exact (htruthful e' hmem').mp htrue (List.map_eq_nil_iff.mp hadded')
  · -- It came down to the job that the first call added.
    obtain ⟨job, others, hjob, hkey, -⟩ := List.map_eq_cons_iff.mp hadded
    rw [Answering.Separate, hanswered] at hseparate
    have hfirst := (List.pairwise_cons.mp hseparate).1 e' List.mem_cons_self
    have hsame := (hfirst job (by simp [hjob]) (hkey'.trans (congrArg some hkey.symm))).2
    rw [hstep, hstep'] at hsame
    exact absurd hsame (by decide)

end Answering

end SecOpent
