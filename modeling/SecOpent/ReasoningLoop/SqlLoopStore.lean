import SecOpent.Python.OrderedRows
import SecOpent.Python.Table
import SecOpent.ReasoningLoop.SqlRows
import SecOpent.ReasoningLoop.TerminalPhases
import SecOpent.Transition.Conditions

/-!
# What the SQL store keeps of a run

`SqlAlchemyLoopStateRepository` and `SqlAlchemyLoopStepRepository`, over whole runs: records of loops
are saved and steps are recorded, in any order and for any loops. Steps are listed by their number, and
the number of a step is drawn at random.

## Main definitions

* `SqlLoopStore`: the tables, with `saveState`, `getState`, `addStep` and `ListsForLoop`
* `LoopHistory`, `LoopHistory.write`: the store, with what was written to it
* `LoopHistory.Faithful`: the store gives back what was written
* `LoopWrite.Keeps`: the writes that keep it so

## Main results

* `runStep_draws`: the number and the id of a recorded step are drawn
* `sql_store_faithful_iff`: the store always gives back what was written exactly if every write keeps it
  so
-/

namespace SecOpent

open Python Transition

/-! ## The tables -/

/-- `core_reasoning_loops` and `core_loop_steps`. -/
structure SqlLoopStore where
  loops : Table CoreReasoningLoop CoreReasoningLoop.loopId
  steps : Table CoreLoopStep CoreLoopStep.stepId

namespace SqlLoopStore

/-- Tables without rows. -/
def empty : SqlLoopStore := ⟨.empty, .empty⟩

variable (store : SqlLoopStore)

/-- `SqlAlchemyLoopStateRepository.save`. -/
def saveState (zoned : ZonedLoopState) : SqlLoopStore :=
  { store with loops := store.loops.put (fromState zoned) }

/-- `SqlAlchemyLoopStateRepository.get`: `none` when a constructor raises. -/
def getState (loopId : LoopId) : Option (Option ZonedLoopState) :=
  match store.loops.get? loopId.value with
  | none => some none
  | some row => (toState row).map some

/-- `SqlAlchemyLoopStepRepository.add`. -/
def addStep (zoned : ZonedLoopStep) : SqlLoopStore :=
  { store with steps := store.steps.put (fromStep zoned) }

/-- The rows that `list_for_loop` selects. -/
def loopRows (loopId : LoopId) : List CoreLoopStep :=
  store.steps.rows.values.filter fun row => row.loopId = loopId.value

/-- `list_for_loop` may answer so; `none` when a constructor raises. -/
def ListsForLoop (loopId : LoopId) (result : Option (List ZonedLoopStep)) : Prop :=
  ∃ rows, OrderedBy CoreLoopStep.stepNumber (store.loopRows loopId) rows ∧ result = rows.mapM toStep

end SqlLoopStore

/-! ## Runs -/

/-- A write to the store: `state_repo.save` or `step_repo.add`. -/
inductive LoopWrite
  | saved (zoned : ZonedLoopState)
  | executed (zoned : ZonedLoopStep)

/-- The store, the steps in the order in which they were executed, and the record that was saved last
for each loop. -/
structure LoopHistory where
  store : SqlLoopStore
  executed : List ZonedLoopStep
  saved : Dict String ZonedLoopState

namespace LoopHistory

/-- Nothing was written. -/
def empty : LoopHistory := ⟨.empty, [], .empty⟩

/-- The steps of a loop, in the order in which they were executed. -/
def executedFor (history : LoopHistory) (loopId : LoopId) : List ZonedLoopStep :=
  history.executed.filter fun zoned => zoned.step.loopId = loopId

/-- One write. -/
def write (history : LoopHistory) : LoopWrite → Option LoopHistory
  | .saved zoned => some
    { history with
      store := history.store.saveState zoned
      saved := history.saved.set zoned.state.loopId.value zoned }
  | .executed zoned => some
    { history with
      store := history.store.addStep zoned
      executed := history.executed ++ [zoned] }

/-- **The store gives back what was written**: the steps of every loop in the order in which they were
executed, and the record of every loop as it was saved last. -/
structure Faithful (history : LoopHistory) : Prop where
  steps : ∀ loopId result, history.store.ListsForLoop loopId result →
    ∃ listed, result = some listed ∧
      listed.map ZonedLoopStep.step = (history.executedFor loopId).map ZonedLoopStep.step
  states : ∀ loopId, ∃ read, history.store.getState loopId = some read ∧
    read.map ZonedLoopState.state =
      (history.saved.get? loopId.value).map ZonedLoopState.state

end LoopHistory

/-- The writes that keep the store faithful: a record with its datetimes in UTC; a step with its
timestamp in UTC, a new id, and a number above those of the earlier steps of its loop. -/
def LoopWrite.Keeps (history : LoopHistory) : LoopWrite → Prop
  | .saved zoned => zoned.InUtc
  | .executed zoned =>
    zoned.timestamp.offset = 0 ∧ ∀ earlier ∈ history.executed,
      earlier.step.stepId ≠ zoned.step.stepId ∧
        (earlier.step.loopId = zoned.step.loopId →
          earlier.step.stepNumber < zoned.step.stepNumber)

/-! ## Recorded steps -/

section Drawn

variable {orchestrator : ReasoningLoopOrchestrator} {H : Sha256} {loopId : LoopId}
  {answers : StepAnswers} {state : LoopState}

/-- A step that is recorded has the id and the number that were drawn for it, whatever was recorded
before. -/
def Drawn (loopId : LoopId) (answers : StepAnswers) : LoopEffect → Prop
  | .addStep step =>
    step.loopId = loopId ∧ step.stepId = "step-" ++ answers.stepToken ∧
      step.stepNumber = answers.stepNumber % 2 ^ 32 ∧ step.timestamp = answers.timestamp
  | _ => True

theorem advance_draws {step : LoopStep} {policyDecisionPassed : Bool} {now : Time}
    {terminatedBy : String × Json} :
    (advance loopId state step policyDecisionPassed now terminatedBy).Only (Drawn loopId answers) := by
  refine (Acting.Only.effect trivial).bind fun _ _ => Acting.Only.bind ?_ fun _ _ =>
    Acting.Only.pure _
  exact Acting.Only.ite (fun _ => Acting.Only.effect trivial) fun _ => Acting.Only.pure _

theorem recordGateRejected_draws {context : LoopContext} {proposed : ProposeAction}
    {gateName denyCode reason : String} :
    (recordGateRejected H loopId state context proposed gateName denyCode reason answers).Only
      (Drawn loopId answers) :=
  (Acting.Only.effect trivial).bind fun _ _ =>
    Acting.Only.bind advance_draws fun _ _ => Acting.Only.pure _

theorem executeAndAdvance_draws {context : LoopContext} {proposed : ProposeAction}
    {permitId : String} :
    (orchestrator.executeAndAdvance H loopId state context proposed permitId answers).Only
      (Drawn loopId answers) := by
  refine executeStep_only.bind fun step hstep => ?_
  -- Both ways to execute a step draw its id and its number alike.
  have hdrawn : Drawn loopId answers (.addStep step) := by
    rcases executeStep_eq_ok hstep with ⟨_, rfl⟩ | rfl <;> exact ⟨rfl, rfl, rfl, rfl⟩
  refine (Acting.Only.effect hdrawn).bind fun _ _ => Acting.Only.bind ?_ fun _ _ => ?_
  · exact (Acting.Only.effect trivial).bind fun _ _ => Acting.Only.effect trivial
  · exact Acting.Only.bind advance_draws fun _ _ => Acting.Only.pure _

theorem gateAndExecute_draws {context : LoopContext} {proposed : ProposeAction} :
    (orchestrator.gateAndExecute H loopId state context proposed answers).Only
      (Drawn loopId answers) := by
  refine Acting.Only.bind (Acting.Only.ofExcept _) fun sv _ => ?_
  refine Acting.Only.ite (fun _ => recordGateRejected_draws) fun _ => ?_
  refine Acting.Only.bind (Acting.Only.ofExcept _) fun pv _ => ?_
  refine Acting.Only.ite (fun _ => recordGateRejected_draws) fun _ => ?_
  refine Acting.Only.bind (Acting.Only.ofExcept _) fun permit _ => ?_
  exact Acting.Only.ite (fun _ => recordGateRejected_draws) fun _ => executeAndAdvance_draws

/-- **The number and the id of a recorded step are drawn.** -/
theorem runStep_draws (read : Option LoopState) :
    (orchestrator.runStep H loopId answers read).Only (Drawn loopId answers) := by
  refine runStep_only fun state _ _ _ => ?_
  refine Acting.Only.bind (Acting.Only.ofExcept _) fun context _ => ?_
  refine Acting.Only.ite (fun _ => recordGateRejected_draws) fun _ => ?_
  refine Acting.Only.bind (Acting.Only.ofExcept _) fun proposed _ => ?_
  cases proposed with
  | none =>
    exact (Acting.Only.effect trivial).bind fun _ _ =>
      Acting.Only.bind advance_draws fun _ _ => Acting.Only.pure _
  | some proposed => exact gateAndExecute_draws

end Drawn

/-! ## Listed steps -/

namespace SqlLoopStore

variable {store : SqlLoopStore} {loopId : LoopId}

theorem nodup_loopRows (store : SqlLoopStore) (loopId : LoopId) :
    ((store.loopRows loopId).map CoreLoopStep.stepId).Nodup :=
  store.steps.nodup_map_key.sublist (List.filter_sublist.map _)

/-- A step that is read has the id of its row. -/
theorem stepId_of_toStep {row : CoreLoopStep} {zoned : ZonedLoopStep} (h : toStep row = some zoned) :
    zoned.step.stepId = row.stepId := by
  simp only [toStep, bind, Option.bind_eq_some_iff, pure] at h
  obtain ⟨_, -, _, -, _, -, h⟩ := h
  cases h
  rfl

theorem map_stepId_of_mapM {rows : List CoreLoopStep} {listed : List ZonedLoopStep}
    (h : rows.mapM toStep = some listed) :
    listed.map (fun zoned => zoned.step.stepId) = rows.map CoreLoopStep.stepId := by
  induction rows generalizing listed with
  | nil =>
    cases h
    rfl
  | cons row rows ih =>
    rw [List.mapM_cons] at h
    obtain ⟨zoned, hzoned, h⟩ := Option.bind_eq_some_iff.mp h
    obtain ⟨rest, hrest, h⟩ := Option.bind_eq_some_iff.mp h
    cases h
    rw [List.map_cons, List.map_cons, stepId_of_toStep hzoned, ih hrest]

/-- Rows that were written for steps are read back. -/
theorem mapM_toStep_fromStep (steps : List ZonedLoopStep) :
    (steps.map fromStep).mapM toStep = some (steps.map ZonedLoopStep.reread) :=
  mapM_map_eq_some fun zoned _ => toStep_fromStep zoned

/-- A record is read where it was saved. -/
theorem getState_saveState (zoned : ZonedLoopState) (loopId : LoopId) :
    (store.saveState zoned).getState loopId =
      if loopId = zoned.state.loopId then some (some zoned.reread) else store.getState loopId := by
  have hid : loopId = zoned.state.loopId ↔ loopId.value = (fromState zoned).loopId :=
    LoopId.value_inj.symm
  unfold getState saveState
  by_cases h : loopId = zoned.state.loopId
  · simp only [Table.get?_put, if_pos (hid.mp h), if_pos h, toState_fromState, Option.map_some]
  · simp only [Table.get?_put, if_neg (mt hid.mpr h), if_neg h]

end SqlLoopStore

/-! ## What a faithful store looks like -/

namespace LoopHistory

open SqlLoopStore

variable {history : LoopHistory} {loopId : LoopId}

/-- The rows are those of the steps in their order, with nothing lost in them. -/
structure Exact (history : LoopHistory) : Prop where
  rows : history.store.steps.rows.values = history.executed.map fromStep
  utc : ∀ zoned ∈ history.executed, zoned.timestamp.offset = 0
  increasing : history.executed.Pairwise fun a b =>
    a.step.loopId = b.step.loopId → a.step.stepNumber < b.step.stepNumber
  states : ∀ loopId, ∃ read, history.store.getState loopId = some read ∧
    read.map ZonedLoopState.state = (history.saved.get? loopId.value).map ZonedLoopState.state

theorem exact_empty : empty.Exact :=
  ⟨rfl, by simp [empty], .nil, fun _ => ⟨none, rfl, rfl⟩⟩

/-- The rows of a loop are those of its steps. -/
theorem loopRows_of_rows (h : history.store.steps.rows.values = history.executed.map fromStep)
    (loopId : LoopId) :
    history.store.loopRows loopId = (history.executedFor loopId).map fromStep := by
  have hid : ∀ zoned : ZonedLoopStep,
      decide ((fromStep zoned).loopId = loopId.value) = decide (zoned.step.loopId = loopId) := by
    intro zoned
    show decide (zoned.step.loopId.value = loopId.value) = _
    rw [decide_eq_decide, LoopId.value_inj]
  rw [loopRows, h, List.filter_map, executedFor]
  exact congrArg _ (List.filter_congr fun zoned _ => hid zoned)

/-- Steps in UTC come back as they were. -/
theorem map_step_reread {steps : List ZonedLoopStep}
    (h : ∀ zoned ∈ steps, zoned.timestamp.offset = 0) :
    (steps.map ZonedLoopStep.reread).map ZonedLoopStep.step = steps.map ZonedLoopStep.step := by
  rw [List.map_map]
  exact List.map_congr_left fun zoned hzoned => reread_step_iff.mpr (h zoned hzoned)

theorem Exact.faithful (h : history.Exact) : history.Faithful := by
  refine ⟨?_, h.states⟩
  rintro loopId result ⟨rows, hrows, rfl⟩
  rw [loopRows_of_rows h.rows] at hrows
  -- The steps of one loop have increasing numbers.
  have hincreasing : ((history.executedFor loopId).map fromStep).Pairwise
      fun a b => a.stepNumber < b.stepNumber := by
    rw [List.pairwise_map]
    refine (h.increasing.filter _).imp_of_mem fun ha hb hlt => hlt ?_
    rw [of_decide_eq_true (List.mem_filter.mp ha).2, of_decide_eq_true (List.mem_filter.mp hb).2]
  rw [hrows.eq_of_increasing hincreasing, mapM_toStep_fromStep]
  exact ⟨_, rfl, map_step_reread fun zoned hzoned => h.utc zoned (List.mem_filter.mp hzoned).1⟩

/-- In a faithful store every answer lists the ids of the steps in their order. -/
theorem Faithful.map_stepId (h : history.Faithful) {rows : List CoreLoopStep}
    (hrows : OrderedBy CoreLoopStep.stepNumber (history.store.loopRows loopId) rows) :
    rows.map CoreLoopStep.stepId =
      (history.executedFor loopId).map fun zoned => zoned.step.stepId := by
  obtain ⟨listed, hlisted, hsteps⟩ := h.steps loopId _ ⟨rows, hrows, rfl⟩
  have hids := congrArg (List.map LoopStep.stepId) hsteps
  rw [List.map_map, List.map_map] at hids
  exact (map_stepId_of_mapM hlisted).symm.trans hids

/-- So a loop has no step twice, and each step has its row there. -/
theorem Faithful.stepId_nodup (h : history.Faithful) (loopId : LoopId) :
    ((history.executedFor loopId).map fun zoned => zoned.step.stepId).Nodup := by
  obtain ⟨rows, hrows⟩ := exists_orderedBy CoreLoopStep.stepNumber (history.store.loopRows loopId)
  rw [← h.map_stepId hrows]
  exact ((hrows.perm.map _).nodup_iff).mpr (nodup_loopRows _ _)

theorem Faithful.exists_row (h : history.Faithful) {zoned : ZonedLoopStep}
    (hzoned : zoned ∈ history.executed) :
    ∃ row ∈ history.store.steps.rows.values, row.stepId = zoned.step.stepId ∧
      row.loopId = zoned.step.loopId.value := by
  obtain ⟨rows, hrows⟩ :=
    exists_orderedBy CoreLoopStep.stepNumber (history.store.loopRows zoned.step.loopId)
  have hmem : zoned.step.stepId ∈ rows.map CoreLoopStep.stepId := by
    rw [h.map_stepId hrows]
    exact List.mem_map.mpr ⟨zoned, List.mem_filter.mpr ⟨hzoned, by simp⟩, rfl⟩
  obtain ⟨row, hrow, hid⟩ := List.mem_map.mp hmem
  obtain ⟨hvalue, hloop⟩ := List.mem_filter.mp (hrows.perm.mem_iff.mp hrow)
  exact ⟨row, hvalue, hid, of_decide_eq_true hloop⟩

/-- In a faithful store the ids of the steps are distinct, over all loops. -/
theorem Faithful.stepId_inj (h : history.Faithful) {a b : ZonedLoopStep}
    (ha : a ∈ history.executed) (hb : b ∈ history.executed)
    (hid : a.step.stepId = b.step.stepId) : a.step.loopId = b.step.loopId := by
  obtain ⟨row, hrow, hrowid, hrowloop⟩ := h.exists_row ha
  obtain ⟨row', hrow', hrowid', hrowloop'⟩ := h.exists_row hb
  -- One id has one row, and the row one loop.
  have hsame : row = row' := List.inj_on_of_nodup_map history.store.steps.nodup_map_key hrow hrow'
    (by rw [hrowid, hrowid', hid])
  rw [← LoopId.value_inj, ← hrowloop, ← hrowloop', hsame]

/-! ## One write -/

/-- The history after a step. -/
def afterStepWrite (history : LoopHistory) (zoned : ZonedLoopStep) : LoopHistory :=
  { history with
    store := history.store.addStep zoned
    executed := history.executed ++ [zoned] }

/-- The history after a record was saved. -/
def afterSave (history : LoopHistory) (zoned : ZonedLoopState) : LoopHistory :=
  { history with
    store := history.store.saveState zoned
    saved := history.saved.set zoned.state.loopId.value zoned }

/-- A step is the last one of its loop. -/
theorem executedFor_afterStepWrite (zoned : ZonedLoopStep) :
    (history.afterStepWrite zoned).executedFor zoned.step.loopId =
      history.executedFor zoned.step.loopId ++ [zoned] := by
  simp [afterStepWrite, executedFor, List.filter_append]

/-- A step with a new id gets a row of its own. -/
theorem rows_afterStepWrite {zoned : ZonedLoopStep}
    (hrows : history.store.steps.rows.values = history.executed.map fromStep)
    (hnew : ∀ earlier ∈ history.executed, earlier.step.stepId ≠ zoned.step.stepId) :
    (history.afterStepWrite zoned).store.steps.rows.values =
      (history.afterStepWrite zoned).executed.map fromStep := by
  have hkey : (fromStep zoned).stepId ∉ history.store.steps.rows.values.map CoreLoopStep.stepId := by
    rw [hrows, List.map_map]
    intro hmem
    obtain ⟨earlier, hearlier, hid⟩ := List.mem_map.mp hmem
    exact hnew earlier hearlier hid
  show (history.store.steps.put (fromStep zoned)).rows.values = _
  rw [Table.values_put _ hkey, hrows, ← List.map_singleton, ← List.map_append]
  rfl

/-- A step that leaves the store faithful has a new id. -/
theorem Faithful.new_stepId {zoned : ZonedLoopStep} (h : (history.afterStepWrite zoned).Faithful)
    {earlier : ZonedLoopStep} (hearlier : earlier ∈ history.executed) :
    earlier.step.stepId ≠ zoned.step.stepId := by
  intro hid
  have hloop := h.stepId_inj (List.mem_append_left _ hearlier)
    (List.mem_append_right _ (List.mem_singleton.mpr rfl)) hid
  -- Both steps would be listed for their loop, with one id.
  have hnodup := h.stepId_nodup zoned.step.loopId
  rw [executedFor_afterStepWrite, List.map_append] at hnodup
  have hmem : earlier ∈ history.executedFor zoned.step.loopId :=
    List.mem_filter.mpr ⟨hearlier, by simp [hloop]⟩
  exact List.disjoint_of_nodup_append hnodup (List.mem_map.mpr ⟨earlier, hmem, rfl⟩)
    (by simp [hid])

/-- **A step that leaves the store faithful** has its timestamp in UTC, a new id and a number above
those of its loop. -/
theorem Exact.keeps_of_faithful {zoned : ZonedLoopStep} (hexact : history.Exact)
    (h : (history.afterStepWrite zoned).Faithful) : LoopWrite.Keeps history (.executed zoned) := by
  have hnew : ∀ earlier ∈ history.executed, earlier.step.stepId ≠ zoned.step.stepId :=
    fun earlier => h.new_stepId
  have hselected := loopRows_of_rows (rows_afterStepWrite hexact.rows hnew) zoned.step.loopId
  generalize hrows : (history.afterStepWrite zoned).store.loopRows zoned.step.loopId = rows
    at hselected
  have hids : (rows.map CoreLoopStep.stepId).Nodup := hrows ▸ nodup_loopRows _ _
  -- Every answer is the rows in their order, so the numbers increase.
  have hunique : ∀ answer, OrderedBy CoreLoopStep.stepNumber rows answer → answer = rows := by
    intro answer hanswer
    refine eq_of_map_eq (f := CoreLoopStep.stepId) (fun a ha b hb hid => ?_) ?_
    · exact List.inj_on_of_nodup_map hids (hanswer.perm.mem_iff.mp ha) hb hid
    · rw [h.map_stepId (hrows.symm ▸ hanswer), hselected, List.map_map]
      rfl
  have hincreasing := (orderedBy_unique_iff (List.Nodup.of_map _ hids)).mp hunique
  rw [hselected, executedFor_afterStepWrite, List.map_append, List.pairwise_append] at hincreasing
  obtain ⟨-, -, hbelow⟩ := hincreasing
  refine ⟨?_, fun earlier hearlier => ⟨hnew earlier hearlier, fun hloop => ?_⟩⟩
  · -- The step that is listed last is the one that was recorded.
    obtain ⟨answer, hanswer⟩ := exists_orderedBy CoreLoopStep.stepNumber rows
    obtain ⟨listed, hlisted, hsteps⟩ := h.steps zoned.step.loopId _ ⟨answer, hrows.symm ▸ hanswer, rfl⟩
    rw [hunique answer hanswer, hselected, mapM_toStep_fromStep, Option.some.injEq] at hlisted
    rw [← hlisted, executedFor_afterStepWrite, List.map_append, List.map_append,
      List.map_append] at hsteps
    have hlast := (List.append_inj' hsteps rfl).2
    exact reread_step_iff.mp (List.cons.inj hlast).1
  · have hmem : earlier ∈ history.executedFor zoned.step.loopId :=
      List.mem_filter.mpr ⟨hearlier, by simp [hloop]⟩
    exact hbelow (fromStep earlier) (List.mem_map_of_mem hmem) (fromStep zoned) (by simp)

/-- The records that are read after one was saved. -/
theorem states_afterSave {zoned : ZonedLoopState} (hutc : zoned.InUtc)
    (hstates : ∀ loopId, ∃ read, history.store.getState loopId = some read ∧
      read.map ZonedLoopState.state =
        (history.saved.get? loopId.value).map ZonedLoopState.state) (loopId : LoopId) :
    ∃ read, (history.afterSave zoned).store.getState loopId = some read ∧
      read.map ZonedLoopState.state =
        ((history.afterSave zoned).saved.get? loopId.value).map ZonedLoopState.state := by
  show ∃ read, (history.store.saveState zoned).getState loopId = some read ∧ read.map _ =
    ((history.saved.set zoned.state.loopId.value zoned).get? loopId.value).map _
  rw [getState_saveState, Dict.get?_set]
  by_cases hid : loopId = zoned.state.loopId
  · rw [if_pos hid, if_pos (by rw [hid])]
    exact ⟨_, rfl, congrArg some (reread_state_iff.mpr hutc)⟩
  · rw [if_neg hid, if_neg (mt LoopId.value_inj.mp hid)]
    exact hstates loopId

/-- A record that leaves the store faithful has its datetimes in UTC. -/
theorem Faithful.inUtc {zoned : ZonedLoopState} (h : (history.afterSave zoned).Faithful) :
    zoned.InUtc := by
  obtain ⟨read, hread, hsame⟩ := h.states zoned.state.loopId
  -- The record that was saved last is the one that is read.
  have hsaved : (history.afterSave zoned).store.getState zoned.state.loopId =
      some (some zoned.reread) := by
    show (history.store.saveState zoned).getState zoned.state.loopId = _
    rw [getState_saveState, if_pos rfl]
  have hlast : (history.afterSave zoned).saved.get? zoned.state.loopId.value = some zoned := by
    show (history.saved.set zoned.state.loopId.value zoned).get? zoned.state.loopId.value = _
    rw [Dict.get?_set, if_pos rfl]
  rw [hsaved, Option.some.injEq] at hread
  rw [hlast, ← hread] at hsame
  exact reread_state_iff.mp (Option.some.inj hsame)

/-- A write that keeps the store faithful keeps it exact. -/
theorem Exact.write {write : LoopWrite} {history' : LoopHistory} (hexact : history.Exact)
    (hkeeps : write.Keeps history) (h : history.write write = some history') : history'.Exact := by
  cases write with
  | saved zoned =>
    cases h
    exact ⟨hexact.rows, hexact.utc, hexact.increasing, states_afterSave hkeeps hexact.states⟩
  | executed zoned =>
    cases h
    -- The condition says of the new step what `Exact` says of the others.
    obtain ⟨hutc, hearlier⟩ := hkeeps
    refine ⟨rows_afterStepWrite hexact.rows fun earlier hmem => (hearlier earlier hmem).1, ?_, ?_,
      hexact.states⟩
    · exact List.forall_mem_append.mpr ⟨hexact.utc, List.forall_mem_singleton.mpr hutc⟩
    · -- The new step is above those of its loop, which were increasing already.
      refine List.pairwise_append.mpr ⟨hexact.increasing, List.pairwise_singleton _ _, ?_⟩
      intro earlier hmem last hlast
      rw [List.mem_singleton.mp hlast]
      exact (hearlier earlier hmem).2

end LoopHistory

/-- **The store always gives back what was written** exactly if every record has its datetimes in UTC,
and every step a new id and a number above those of the earlier steps of its loop. -/
theorem sql_store_faithful_iff (writes : List LoopWrite) :
    Always LoopHistory.write LoopHistory.Faithful .empty writes ↔
      runMeets LoopHistory.write (fun history write => write.Keeps history) .empty writes := by
  refine always_iff_of_stronger (R := LoopHistory.Exact) (fun _ h => h.faithful) ?_ ?_
    LoopHistory.exact_empty
  · intro history write hexact hnext
    cases write with
    | saved zoned => exact (hnext _ rfl).inUtc
    | executed zoned => exact hexact.keeps_of_faithful (hnext _ rfl)
  · exact fun history write history' hexact hkeeps h => hexact.write hkeeps h

/-- A step of a loop, with the token and the number that were drawn for it. -/
def drawnStep (token : String) (draw : ℕ) : ZonedLoopStep where
  step := mockExecute firstLoopId codeDigest .blank noProposalAction "permit"
    { unavailableAnswers with stepToken := token, stepNumber := draw }
  timestamp := .utc unavailableAnswers.timestamp
  timestamp_instant := ZonedTime.instant_utc _

/-- A new loop, with a clock eight hours east of UTC. -/
def eastLoop : ZonedLoopState where
  state := newLoop
  startedAt := ⟨28800000000, 28800000000, by norm_num⟩
  lastStepAt := none
  pausedAt := none
  resumedAt := none
  startedAt_instant := rfl
  lastStepAt_instant := rfl
  pausedAt_instant := rfl
  resumedAt_instant := rfl

/-- Two steps are listed in the order of their numbers and not in their own, and a loop that started
now is read as one that started eight hours later. -/
theorem sql_store_not_faithful :
    (∃ history, runLabels LoopHistory.write .empty
        [.executed (drawnStep "0000aaaa" 7), .executed (drawnStep "0000bbbb" 3)] = some history ∧
      ¬history.Faithful) ∧
    ∃ history, runLabels LoopHistory.write .empty [.saved eastLoop] = some history ∧
      ¬history.Faithful := by
  refine ⟨⟨_, rfl, fun h => ?_⟩, ⟨_, rfl, fun h => ?_⟩⟩
  · have hlists : SqlLoopStore.ListsForLoop
        ((SqlLoopStore.empty.addStep (drawnStep "0000aaaa" 7)).addStep (drawnStep "0000bbbb" 3))
        firstLoopId (List.mapM toStep
          ([drawnStep "0000bbbb" 3, drawnStep "0000aaaa" 7].map fromStep)) := by
      refine ⟨_, ⟨?_, ?_⟩, rfl⟩
      · exact List.Perm.swap _ _ _
      · simp [drawnStep, fromStep, mockExecute, bareStep]
    obtain ⟨listed, hlisted, hsteps⟩ := h.steps firstLoopId _ hlists
    rw [SqlLoopStore.mapM_toStep_fromStep, Option.some.injEq] at hlisted
    have hnumbers := congrArg (List.map LoopStep.stepNumber) hsteps
    -- The numbers come as 3 and 7, and were drawn as 7 and 3.
    rw [← hlisted] at hnumbers
    exact absurd hnumbers (by decide +kernel)
  · obtain ⟨read, hread, hsame⟩ := h.states firstLoopId
    have hsaved : (SqlLoopStore.empty.saveState eastLoop).getState firstLoopId =
        some (some eastLoop.reread) := by
      rw [SqlLoopStore.getState_saveState]
      exact if_pos rfl
    have hloop : some eastLoop.reread = read := Option.some.inj (hsaved.symm.trans hread)
    rw [← hloop] at hsame
    have hstarted := congrArg LoopState.startedAt (Option.some.inj hsame)
    exact absurd hstarted (by decide +kernel)

end SecOpent
