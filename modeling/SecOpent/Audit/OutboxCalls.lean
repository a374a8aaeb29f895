import SecOpent.Audit.OutboxWorker
import SecOpent.Transition.Runs

/-!
# How long a call of `drain_pending` goes on

A call lists batches until one is empty. A row that it finishes is not pending any more, whether it was
delivered or marked as failed, and a row that is no longer pending is passed over. So each batch but the
last leaves a row less that is pending, whoever has finished it, and this bounds the steps of the call.

## Main definitions

* `pendingCount`: the number of pending rows
* `DrainState.spare`: whether a drain has a row before it that is not pending, or none
* `DrainState.stepsLeft`: how many steps a call can take yet

## Main results

* `stepsLeft_step`: a step of the call uses up one of them, and no other step adds to them
* `countP_byCall_le`: the steps of a call in a whole run
* `exists_byCall`: a call that is running can take a step
-/

namespace SecOpent

open Python Transition

/-- The row is there and pending. -/
def isPending (rows : Dict ℕ OutboxRow) (id : ℕ) : Bool :=
  (rows.get? id).any fun row => row.status = .pending

/-- The number of pending rows. -/
def pendingCount (rows : Dict ℕ OutboxRow) : ℕ :=
  rows.values.countP fun row => row.status = .pending

/-- The rows of its batch that a drain has not finished. -/
def DrainState.unfinished (drain : DrainState) : List ℕ :=
  (drain.held.map Prod.fst).toList ++ drain.queue

/-- A drain that has all of its batch before it, and all of it pending, has no row to spare. -/
def DrainState.spare (rows : Dict ℕ OutboxRow) (drain : DrainState) : ℕ :=
  if drain.unfinished ≠ [] ∧ drain.unfinished.all (isPending rows) then 0 else 1

/-- How many steps the call can take yet: each batch but the last leaves a row less that is pending. -/
def DrainState.stepsLeft (rows : Dict ℕ OutboxRow) (drain : DrainState) : ℕ :=
  if drain.running then
    (2 * batchSize + 2) * (pendingCount rows + drain.spare rows) + 2 * drain.queue.length +
      (if drain.held.isSome then 1 else 0) + 1
  else 0

/-- A step of a call of the drain. -/
def OutboxLabel.byCall (drain : ℕ) : OutboxLabel → Bool
  | .list other | .read other | .finish other _ => other = drain
  | _ => false

/-- What gives a drain more to do: another row, or another call. -/
def OutboxLabel.renews (drain : ℕ) : OutboxLabel → Bool
  | .record _ _ => true
  | .call other => other = drain
  | _ => false

section Ending

variable {H : Sha256} {U : Unicode} {signer : AuditSigner} {order : RowOrder}
  {s t : OutboxState} {label : OutboxLabel} {labels : List OutboxLabel} {db : AuditDb}
  {id drain : ℕ} {rows : Dict ℕ OutboxRow} {change : OutboxRow → OutboxRow} {attempt : RowAttempt}

theorem DrainState.spare_le (rows : Dict ℕ OutboxRow) (drain : DrainState) : drain.spare rows ≤ 1 := by
  unfold DrainState.spare
  split
  · omega
  · omega

/-- A drain with a row before it that is not pending has one to spare. -/
theorem DrainState.spare_eq_one {drain : DrainState} (hid : id ∈ drain.unfinished)
    (hpending : isPending rows id = false) : drain.spare rows = 1 := by
  unfold DrainState.spare
  refine if_neg fun hall => ?_
  have htrue := List.all_eq_true.mp hall.2 id hid
  rw [hpending] at htrue
  cases htrue

theorem isPending_eq_true_iff :
    isPending rows id = true ↔ ∃ row, rows.get? id = some row ∧ row.status = .pending := by
  unfold isPending
  cases rows.get? id with
  | none => simp
  | some row => simp

/-- A pending row that is changed is one pending row less. -/
theorem pendingCount_updated (hchange : ∀ row, (change row).status ≠ .pending)
    (hpending : isPending db.rows id = true) :
    pendingCount (db.updated id change) + 1 = pendingCount db.rows := by
  obtain ⟨row, hrow, hstatus⟩ := isPending_eq_true_iff.mp hpending
  have hcount := Dict.countP_set (change row) (fun row => decide (row.status = .pending)) hrow
  simp only [hstatus, hchange row, decide_true, decide_false, if_true, Bool.false_eq_true, if_false]
    at hcount
  unfold AuditDb.updated pendingCount
  rw [hrow]
  exact hcount

/-- A row that is not pending may be changed. -/
theorem pendingCount_updated_of_not (hchange : ∀ row, (change row).status ≠ .pending)
    (hpending : isPending db.rows id = false) :
    pendingCount (db.updated id change) = pendingCount db.rows := by
  unfold AuditDb.updated pendingCount
  split
  next row hrow =>
    have hstatus : row.status ≠ .pending := by
      intro hstatus
      rw [isPending_eq_true_iff.mpr ⟨row, hrow, hstatus⟩] at hpending
      cases hpending
    have hcount := Dict.countP_set (change row) (fun row => decide (row.status = .pending)) hrow
    simpa [hstatus, hchange row] using hcount
  next => rfl

theorem isPending_updated_of_not (hchange : ∀ row, (change row).status ≠ .pending)
    (hpending : isPending db.rows id = false) (other : ℕ) :
    isPending (db.updated id change) other = isPending db.rows other := by
  unfold isPending at hpending ⊢
  rw [AuditDb.get?_updated]
  split
  next heq =>
    subst heq
    rw [hpending]
    cases db.rows.get? other with
    | none => rfl
    | some row => simp [hchange row]
  next => rfl

/-- Another drain's changes take away no more than they leave to spare. -/
theorem pendingCount_add_spare_le (hchange : ∀ row, (change row).status ≠ .pending)
    (state : DrainState) :
    pendingCount (db.updated id change) + state.spare (db.updated id change) ≤
      pendingCount db.rows + state.spare db.rows := by
  cases hpending : isPending db.rows id with
  | true =>
    have hless := pendingCount_updated hchange hpending
    have hspare := state.spare_le (db.updated id change)
    omega
  | false =>
    have hsame : isPending (db.updated id change) = isPending db.rows :=
      funext (isPending_updated_of_not hchange hpending)
    rw [pendingCount_updated_of_not hchange hpending]
    unfold DrainState.spare
    rw [hsame]

/-- Its own as well: the row that it finishes was pending, or was one to spare. -/
theorem pendingCount_add_spare_le_of_finished (hchange : ∀ row, (change row).status ≠ .pending)
    {state : DrainState} (hid : id ∈ state.unfinished) (next : DrainState) :
    pendingCount (db.updated id change) + next.spare (db.updated id change) ≤
      pendingCount db.rows + state.spare db.rows := by
  have hspare := next.spare_le (db.updated id change)
  cases hpending : isPending db.rows id with
  | true =>
    have hless := pendingCount_updated hchange hpending
    omega
  | false =>
    rw [pendingCount_updated_of_not hchange hpending, DrainState.spare_eq_one hid hpending]
    omega

/-- The rows that a batch lists are pending, and no more than a hundred. -/
theorem isPending_of_mem_pendingIds (h : id ∈ db.pendingIds) : isPending db.rows id = true := by
  have hmem := (List.perm_insertionSort _ _).mem_iff.mp (List.mem_of_mem_take h)
  obtain ⟨⟨key, row⟩, hitem, rfl⟩ := List.mem_map.mp hmem
  obtain ⟨hitem, hstatus⟩ := List.mem_filter.mp hitem
  exact isPending_eq_true_iff.mpr ⟨row, Dict.mem_items_iff.mp hitem, of_decide_eq_true hstatus⟩

theorem length_pendingIds_le : db.pendingIds.length ≤ batchSize := List.length_take_le _ _

theorem spare_pendingIds {state : DrainState} (hheld : state.held = none)
    (hqueue : state.queue = db.pendingIds) (hne : db.pendingIds ≠ []) :
    state.spare db.rows = 0 := by
  unfold DrainState.spare DrainState.unfinished
  rw [hheld, hqueue]
  refine if_pos ⟨hne, List.all_eq_true.mpr fun id hid => ?_⟩
  exact isPending_of_mem_pendingIds hid

theorem spare_of_finished {state : DrainState} (hheld : state.held = none) (hqueue : state.queue = []) :
    state.spare rows = 1 := by
  unfold DrainState.spare DrainState.unfinished
  rw [hheld, hqueue]
  exact if_neg fun h => h.1 rfl

/-- The rows after a row transaction: as they were, or with its row changed. -/
theorem rows_of_rowLeft {call : OutboxCall} {db' : AuditDb}
    (h : AuditDb.RowLeft db id call attempt db') :
    db'.rows = db.rows ∧ attempt.commits = false ∨ attempt.commits = true ∧
      ∃ change, (∀ row : OutboxRow, (change row).status ≠ .pending) ∧
        db'.rows = db.updated id change := by
  cases h with
  | lost chain hcommits => exact .inl ⟨rfl, hcommits⟩
  | delivered chain event signed hcommits _ _ =>
    exact .inr ⟨hcommits, AuditDb.markDone attempt.processedAt, fun _ => nofun, rfl⟩
  | failed chain text hcommits =>
    exact .inr ⟨hcommits, AuditDb.markFailed text, fun _ => nofun, rfl⟩

/-- A batch that is listed costs what the one before has left to spare. -/
theorem stepsLeft_list (h : OutboxState.step H U signer order s (.list drain) = some t) :
    (t.drains drain).stepsLeft t.db.rows + 1 ≤ (s.drains drain).stepsLeft s.db.rows := by
  obtain ⟨hrunning, hqueue, hheld, rfl⟩ := OutboxState.step_list_eq_some h
  rw [OutboxState.drains_setDrain, if_pos rfl, OutboxState.db_setDrain]
  have hlength : s.db.pendingIds.length ≤ batchSize := length_pendingIds_le
  rw [DrainState.stepsLeft, DrainState.stepsLeft, if_pos hrunning, hqueue, hheld,
    spare_of_finished hheld hqueue]
  by_cases hempty : s.db.pendingIds = []
  · rw [hempty]
    simp
  · -- The batch is pending as a whole: what was to spare pays for it.
    rw [if_pos (by simp [hempty]), spare_pendingIds rfl rfl hempty]
    simp only [Option.isSome_none, Bool.false_eq_true, if_false, List.length_nil]
    unfold batchSize at hlength ⊢
    omega

theorem stepsLeft_read (h : OutboxState.step H U signer order s (.read drain) = some t) :
    (t.drains drain).stepsLeft t.db.rows + 1 ≤ (s.drains drain).stepsLeft s.db.rows := by
  obtain ⟨id, queue, hrunning, hqueue, hheld, rfl⟩ := OutboxState.step_read_eq_some h
  rw [OutboxState.drains_setDrain, if_pos rfl, OutboxState.db_setDrain]
  have hunfinished : (s.drains drain).unfinished = id :: queue := by
    unfold DrainState.unfinished
    rw [hheld, hqueue]
    rfl
  -- The row is held, or it was one to spare.
  cases hread : (s.db.rows.get? id).filter fun row => decide (row.status = .pending) with
  | some row =>
    have hspare : DrainState.spare s.db.rows { s.drains drain with queue, held := some (id, row) } =
        (s.drains drain).spare s.db.rows := by
      unfold DrainState.spare
      rw [hunfinished]
      rfl
    rw [DrainState.stepsLeft, DrainState.stepsLeft, if_pos hrunning, if_pos hrunning, Option.map_some,
      hspare, hqueue, hheld]
    simp only [Option.isSome_some, if_true, Option.isSome_none, Bool.false_eq_true, if_false,
      List.length_cons]
    omega
  | none =>
    have hpending : isPending s.db.rows id = false := by
      cases hrow : s.db.rows.get? id with
      | none => simp [isPending, hrow]
      | some row =>
        rw [hrow] at hread
        simpa [isPending, hrow, Option.filter] using hread
    have hspare := DrainState.spare_eq_one (by rw [hunfinished]; exact List.mem_cons_self) hpending
    have hle := DrainState.spare_le s.db.rows
      ⟨(s.drains drain).running, queue, none, (s.drains drain).listed, (s.drains drain).total⟩
    rw [DrainState.stepsLeft, DrainState.stepsLeft, if_pos hrunning, if_pos hrunning, Option.map_none,
      hspare, hqueue, hheld]
    simp only [Option.isSome_none, Bool.false_eq_true, if_false, List.length_cons]
    unfold batchSize
    omega

theorem stepsLeft_finish (h : OutboxState.step H U signer order s (.finish drain attempt) = some t) :
    (t.drains drain).stepsLeft t.db.rows + 1 ≤ (s.drains drain).stepsLeft s.db.rows := by
  obtain ⟨id, row, db, hrunning, hheld, hleft, rfl⟩ := OutboxState.step_finish_eq_some h
  rw [OutboxState.drains_setDrain, if_pos rfl, OutboxState.db_setDrain]
  have hid : id ∈ (s.drains drain).unfinished := by
    unfold DrainState.unfinished
    rw [hheld]
    exact List.mem_cons_self
  rcases rows_of_rowLeft hleft with ⟨-, hcommits⟩ | ⟨hcommits, change, hchange, hrows⟩
  · -- A commit that fails ends the call.
    rw [hcommits, DrainState.stepsLeft, DrainState.stepsLeft, if_pos hrunning]
    simp
  · have hspare : pendingCount (s.db.updated id change) +
        DrainState.spare (s.db.updated id change) ⟨(s.drains drain).running, (s.drains drain).queue,
          none, (s.drains drain).listed, (s.drains drain).total⟩ ≤
          pendingCount s.db.rows + (s.drains drain).spare s.db.rows :=
      pendingCount_add_spare_le_of_finished hchange hid _
    rw [hcommits, if_pos rfl, DrainState.stepsLeft, DrainState.stepsLeft, if_pos hrunning,
      if_pos hrunning, hheld]
    show (2 * batchSize + 2) * (pendingCount db.rows + DrainState.spare db.rows _) + _ + _ + _ + _ ≤ _
    rw [hrows]
    simp only [Option.isSome_some, if_true, Option.isSome_none, Bool.false_eq_true, if_false]
    unfold batchSize
    omega

/-- Where the rows are as they were, or one of them is changed, the drain has no more steps left. -/
theorem stepsLeft_of_rowLeft {call : OutboxCall} {db' : AuditDb} (state : DrainState)
    (h : AuditDb.RowLeft db id call attempt db') :
    state.stepsLeft db'.rows ≤ state.stepsLeft db.rows := by
  rcases rows_of_rowLeft h with ⟨hrows, -⟩ | ⟨-, change, hchange, hrows⟩
  · rw [hrows]
  · have hspare : pendingCount (db.updated id change) + state.spare (db.updated id change) ≤
        pendingCount db.rows + state.spare db.rows := pendingCount_add_spare_le hchange state
    rw [hrows]
    unfold DrainState.stepsLeft batchSize
    split
    · omega
    · omega

/-- **A step of the call uses up one of the steps that it has left**, and no other step adds to them. -/
theorem stepsLeft_step (hrenews : label.renews drain = false)
    (hstep : OutboxState.step H U signer order s label = some t) :
    (t.drains drain).stepsLeft t.db.rows + (if label.byCall drain then 1 else 0) ≤
      (s.drains drain).stepsLeft s.db.rows := by
  cases label with
  | record skipped call => cases hrenews
  | audit event =>
    cases hstep
    exact Nat.le_refl _
  | sign signed chain =>
    cases hstep
    exact Nat.le_refl _
  | call other =>
    have hne : other ≠ drain := of_decide_eq_false hrenews
    obtain ⟨-, rfl⟩ := OutboxState.step_call_eq_some hstep
    rw [OutboxState.drains_setDrain, if_neg (Ne.symm hne)]
    exact Nat.le_refl _
  | list other =>
    by_cases heq : other = drain
    · subst heq
      simpa [OutboxLabel.byCall] using stepsLeft_list hstep
    · obtain ⟨-, -, -, rfl⟩ := OutboxState.step_list_eq_some hstep
      rw [OutboxState.drains_setDrain, if_neg (Ne.symm heq)]
      simp [OutboxLabel.byCall, heq]
  | read other =>
    by_cases heq : other = drain
    · subst heq
      simpa [OutboxLabel.byCall] using stepsLeft_read hstep
    · obtain ⟨_, _, -, -, -, rfl⟩ := OutboxState.step_read_eq_some hstep
      rw [OutboxState.drains_setDrain, if_neg (Ne.symm heq)]
      simp [OutboxLabel.byCall, heq]
  | finish other attempt =>
    by_cases heq : other = drain
    · subst heq
      simpa [OutboxLabel.byCall] using stepsLeft_finish hstep
    · obtain ⟨id, row, db, -, -, hleft, rfl⟩ := OutboxState.step_finish_eq_some hstep
      rw [OutboxState.drains_setDrain, if_neg (Ne.symm heq)]
      simpa [OutboxLabel.byCall, heq] using stepsLeft_of_rowLeft (s.drains drain) hleft
  | leave other =>
    cases hstep
    by_cases heq : other = drain
    · subst heq
      rw [OutboxState.drains_setDrain, if_pos rfl]
      exact Nat.zero_le _
    · rw [OutboxState.drains_setDrain, if_neg (Ne.symm heq)]
      exact Nat.le_refl _
  | crash =>
    cases hstep
    exact Nat.zero_le _

/-- The steps of a call are no more than it had left, in every run in which it gets nothing more to
do. -/
theorem countP_byCall_le (hrenews : ∀ label ∈ labels, label.renews drain = false)
    (h : runLabels (OutboxState.step H U signer order) s labels = some t) :
    labels.countP (OutboxLabel.byCall drain) ≤ (s.drains drain).stepsLeft s.db.rows := by
  -- By induction on the run: each step pays for itself.
  induction labels generalizing s with
  | nil => exact Nat.zero_le _
  | cons label labels ih =>
    obtain ⟨u, hu, hrest⟩ := Option.bind_eq_some_iff.mp h
    obtain ⟨hlabel, hlabels⟩ := List.forall_mem_cons.mp hrenews
    have hstep := stepsLeft_step hlabel hu
    have hlater := ih hlabels hrest
    rw [List.countP_cons]
    omega

/-- A call that is running can take a step. -/
theorem exists_byCall (h : (s.drains drain).running = true) :
    ∃ label, label.byCall drain = true ∧
      (OutboxState.step H U signer order s label).isSome = true := by
  let attempt : RowAttempt := ⟨halfPastNine 0, halfPastNine 0, halfPastNine 0, none, none, true⟩
  cases hheld : (s.drains drain).held with
  | some held =>
    refine ⟨.finish drain attempt, decide_eq_true rfl, ?_⟩
    obtain ⟨db, -, hstep⟩ := OutboxState.exists_step_finish H U signer order attempt h hheld
    rw [hstep]
    rfl
  | none =>
    cases hqueue : (s.drains drain).queue with
    | nil =>
      refine ⟨.list drain, decide_eq_true rfl, ?_⟩
      simp only [OutboxState.step]
      rw [h, hqueue, hheld]
      rfl
    | cons id queue =>
      refine ⟨.read drain, decide_eq_true rfl, ?_⟩
      simp only [OutboxState.step]
      rw [h, hqueue, hheld]
      rfl

end Ending

end SecOpent
