import SecOpent.Audit.Chain
import SecOpent.Audit.Service

/-!
# The audit outbox

`OutboxRecorder` and `OutboxWorker`. A row of the outbox is written in the state pending; a drain lists
the pending rows, a hundred at a time, and takes one transaction for each: the row is read, and if it is
still pending both audit tables get an event and the row is done. What a writer raises rolls the
transaction back, and the row is read again and marked as failed. The database does not hold a row for
the drain that has read it, so other drains may come between the two; what a transaction writes is
written at once or not at all.

## Main definitions

* `OutboxRow`, `AuditDb`: a row, and the tables with the chain in memory
* `AuditDb.drainRow`: what a drain does with a row that it has read
* `OutboxState`, `OutboxLabel`, `OutboxState.step`: the drains of the outbox, one transaction at a time

## Main results

* `AuditDb.drainRow_left`: what a row transaction leaves
* `AuditDb.get?_updated`: the other rows are left as they are
* `OutboxState.step_finish_eq_some`: what a drain does with the row that it holds
-/

namespace SecOpent

open Python

/-! ## The tables -/

/-- `CoreAuditOutbox.status`. -/
inductive OutboxStatus
  | pending | done | failed
  deriving DecidableEq

/-- What `OutboxRecorder.record` is called with, and the reading of the clock. -/
structure OutboxCall where
  actor : String
  action : String
  resourceType : String
  resourceId : String
  payload : List (String × Json)
  createdAt : DateTime

/-- `CoreAuditOutbox`, without the id, which is its key. -/
structure OutboxRow extends OutboxCall where
  status : OutboxStatus := .pending
  error : Option String := none
  processedAt : Option DateTime := none

/-- The tables, and the chain in memory. An event comes with the id of the outbox row that it was made
of, if it was made of one. -/
structure AuditDb where
  rows : Dict ℕ OutboxRow := .empty
  nextId : ℕ := 1
  events : List (Option ℕ × AuditEvent) := []
  signed : List (Option ℕ × SignedAuditEvent) := []
  chain : AuditChain := {}

/-- What happens to one row transaction: the readings of the clock, what the writers raise beside their
own errors, and whether the commit succeeds. -/
structure RowAttempt where
  eventAt : DateTime
  signedAt : DateTime
  processedAt : DateTime
  eventFault : Option String := none
  signedFault : Option String := none
  commits : Bool := true

/-- `_BATCH_SIZE`. -/
def batchSize : ℕ := 100

/-- `_ERROR_TEXT_LIMIT`. -/
def errorTextLimit : ℕ := 1024

/-- `str(exc)`. -/
def AuditError.text : AuditError → String
  | .validation message => message

/-- An exception of one writer, or else what it answers. -/
def faultOr {α : Type} (fault : Option String) (answer : Except AuditError α) : Except String α :=
  match fault, answer with
  | some text, _ => .error text
  | none, .error error => .error error.text
  | none, .ok a => .ok a

namespace OutboxCall

/-- The call of `AuditService.record`. -/
def auditCall (call : OutboxCall) (now : DateTime) : AuditCall :=
  ⟨call.actor, call.action, call.resourceType, call.resourceId, call.payload, now⟩

/-- The call of `AuditChain.record`. -/
def chainCall (call : OutboxCall) (now : DateTime) : ChainCall where
  actor := call.actor
  action := call.action
  resourceType := call.resourceType
  resourceId := call.resourceId
  payload := call.payload
  permitNonce := none
  now := now

/-- The event says what the call says. -/
def Tells (call : OutboxCall) (event : AuditEvent) : Prop :=
  event.actor = call.actor ∧ event.action = call.action ∧ event.resourceType = call.resourceType ∧
    event.resourceId = call.resourceId ∧ event.payload = call.payload

end OutboxCall

/-- The entries of a log that were made of a row. -/
def madeOf {α : Type} (id : ℕ) (log : List (Option ℕ × α)) : List α :=
  (log.filter fun entry => entry.1 = some id).map Prod.snd

/-- A log with one more entry. -/
theorem madeOf_append {α : Type} (id : ℕ) (log : List (Option ℕ × α)) (tag : Option ℕ) (a : α) :
    madeOf id (log ++ [(tag, a)]) = madeOf id log ++ if tag = some id then [a] else [] := by
  unfold madeOf
  rw [List.filter_append, List.map_append]
  by_cases h : tag = some id
  · simp [h]
  · simp [h]

namespace AuditDb

variable (H : Sha256) (U : Unicode) (signer : AuditSigner) (order : RowOrder) (db : AuditDb)

/-- `record`, committed: a pending row. Transactions that were rolled back may have skipped some ids. -/
def record (skipped : ℕ) (call : OutboxCall) : AuditDb :=
  { db with
    rows := db.rows.set (db.nextId + skipped) { toOutboxCall := call }
    nextId := db.nextId + skipped + 1 }

/-- The ids of the pending rows in their order, so many at most. -/
def pendingIds : List ℕ :=
  (((db.rows.items.filter fun item => item.2.status = .pending).map Prod.fst).insertionSort
    (· ≤ ·)).take batchSize

/-- The two writers: the chain in memory afterwards, and the events or what is raised. -/
def writeEvents (row : OutboxCall) (attempt : RowAttempt) :
    AuditChain × Except String (AuditEvent × SignedAuditEvent) :=
  match faultOr attempt.eventFault
      (AuditService.record H U order (db.events.map Prod.snd) (row.auditCall attempt.eventAt)) with
  | .error text => (db.chain, .error text)
  | .ok event =>
    -- The chain has the event in memory whether or not it can be stored.
    let (chain, signed) := db.chain.record H U signer (row.chainCall attempt.signedAt)
    match faultOr attempt.signedFault signed with
    | .error text => (chain, .error text)
    | .ok signed => (chain, .ok (event, signed))

/-- The rows after an update of one of them. -/
def updated (id : ℕ) (change : OutboxRow → OutboxRow) : Dict ℕ OutboxRow :=
  match db.rows.get? id with
  | some row => db.rows.set id (change row)
  | none => db.rows

/-- The row is marked as done. -/
def markDone (processedAt : DateTime) (row : OutboxRow) : OutboxRow :=
  { row with status := .done, processedAt := some processedAt }

/-- The row is marked as failed. -/
def markFailed (text : String) (row : OutboxRow) : OutboxRow :=
  { row with status := .failed, error := some (String.ofList (text.toList.take errorTextLimit)) }

/-- `_drain_row` and the commit of its transaction, for a row that was read as pending. -/
def drainRow (id : ℕ) (row : OutboxCall) (attempt : RowAttempt) : AuditDb :=
  let (chain, result) := db.writeEvents H U signer order row attempt
  if attempt.commits then
    match result with
    | .ok (event, signed) =>
      { db with
        rows := db.updated id (markDone attempt.processedAt)
        events := db.events ++ [(some id, event)]
        signed := db.signed ++ [(some id, signed)]
        chain }
    | .error text => { db with rows := db.updated id (markFailed text), chain }
  else { db with chain }

end AuditDb

/-! ## What a row transaction leaves -/

section Leaves

variable {H : Sha256} {U : Unicode} {signer : AuditSigner} {order : RowOrder} {db db' : AuditDb}
  {id other : ℕ} {row : OutboxRow} {call : OutboxCall} {attempt : RowAttempt}

theorem OutboxCall.tells_of_create {eventId : String} {previousHash : Str} {now : DateTime}
    {event : AuditEvent}
    (h : AuditEvent.create H U eventId call.actor call.action call.resourceType call.resourceId
      call.payload previousHash now = .ok event) : call.Tells event := by
  obtain ⟨-, _, rfl⟩ := AuditEvent.create_ok h
  exact ⟨rfl, rfl, rfl, rfl, rfl⟩

theorem faultOr_eq_ok {α : Type} {fault : Option String} {answer : Except AuditError α} {a : α}
    (h : faultOr fault answer = .ok a) : answer = .ok a := by
  unfold faultOr at h
  split at h
  · cases h
  · cases h
  · cases h
    rfl

namespace AuditDb

/-- Both events say what the row says. -/
theorem tells_of_writeEvents {chain : AuditChain} {event : AuditEvent} {signed : SignedAuditEvent}
    (h : db.writeEvents H U signer order call attempt = (chain, .ok (event, signed))) :
    call.Tells event ∧ call.Tells signed.event := by
  unfold writeEvents at h
  split at h
  · cases h
  next event' hevent =>
    dsimp only at h
    split at h
    · cases h
    next signed' hsigned =>
      cases h
      refine ⟨OutboxCall.tells_of_create (faultOr_eq_ok hevent), ?_⟩
      have hrecord := AuditChain.record_ok (Prod.ext rfl (faultOr_eq_ok hsigned))
      exact OutboxCall.tells_of_create hrecord.1

/-- What a row transaction leaves: nothing but the chain in memory where its commit fails, the row as
done with an event in each table, or the row as failed. -/
inductive RowLeft (db : AuditDb) (id : ℕ) (call : OutboxCall) (attempt : RowAttempt) : AuditDb → Prop
  | lost (chain : AuditChain) : attempt.commits = false → RowLeft db id call attempt { db with chain }
  | delivered (chain : AuditChain) (event : AuditEvent) (signed : SignedAuditEvent) :
      attempt.commits = true → call.Tells event → call.Tells signed.event →
      RowLeft db id call attempt
        { db with
          rows := db.updated id (markDone attempt.processedAt)
          events := db.events ++ [(some id, event)]
          signed := db.signed ++ [(some id, signed)]
          chain }
  | failed (chain : AuditChain) (text : String) : attempt.commits = true →
      RowLeft db id call attempt { db with rows := db.updated id (markFailed text), chain }

/-- **What a row transaction leaves**, whatever its writers raise. -/
theorem drainRow_left : RowLeft db id call attempt (db.drainRow H U signer order id call attempt) := by
  unfold drainRow
  rcases hwrite : db.writeEvents H U signer order call attempt with ⟨chain, text | ⟨event, signed⟩⟩
  · cases hcommits : attempt.commits with
    | false => exact .lost chain hcommits
    | true => exact .failed chain text hcommits
  · cases hcommits : attempt.commits with
    | false => exact .lost chain hcommits
    | true =>
      obtain ⟨hevent, hsigned⟩ := tells_of_writeEvents hwrite
      exact .delivered chain event signed hcommits hevent hsigned

theorem get?_updated {change : OutboxRow → OutboxRow} :
    (db.updated id change).get? other =
      if other = id then (db.rows.get? id).map change else db.rows.get? other := by
  unfold updated
  split
  next row hrow => rw [Dict.get?_set, hrow, Option.map_some]
  next hrow =>
    split
    next h => rw [h, hrow, Option.map_none]
    next => rfl

/-- A row after an update was there before it. -/
theorem exists_of_get?_updated {change : OutboxRow → OutboxRow}
    (h : (db.updated id change).get? other = some row) :
    ∃ old, db.rows.get? other = some old ∧ row = if other = id then change old else old := by
  rw [get?_updated] at h
  split at h
  next heq =>
    subst heq
    obtain ⟨old, hold, rfl⟩ := Option.map_eq_some_iff.mp h
    exact ⟨old, hold, (if_pos rfl).symm⟩
  next hne => exact ⟨row, h, (if_neg hne).symm⟩

theorem get?_updated_of_some {change : OutboxRow → OutboxRow} (h : db.rows.get? other = some row) :
    (db.updated id change).get? other = some (if other = id then change row else row) := by
  rw [get?_updated]
  split
  next heq => rw [← heq, h, Option.map_some]
  next => exact h

end AuditDb

end Leaves

/-! ## The drains -/

/-- A drain: the rows of its batch that are left, the row that its transaction has read, the length of
its batch, and that of all batches before. A drain that is not running has returned its total. -/
structure DrainState where
  running : Bool := false
  queue : List ℕ := []
  held : Option (ℕ × OutboxRow) := none
  listed : ℕ := 0
  total : ℕ := 0

/-- The tables, and the drains. -/
structure OutboxState where
  db : AuditDb
  drains : ℕ → DrainState := fun _ => {}

/-- The steps. A drain is called, lists a batch, and reads and finishes its rows; it leaves when
anything else raises, and when `run_forever` has done one batch. `audit` and `sign` are other writers of
the two tables. -/
inductive OutboxLabel
  | record (skipped : ℕ) (call : OutboxCall)
  | audit (event : AuditEvent)
  | sign (signed : SignedAuditEvent) (chain : AuditChain)
  | call (drain : ℕ)
  | list (drain : ℕ)
  | read (drain : ℕ)
  | finish (drain : ℕ) (attempt : RowAttempt)
  | leave (drain : ℕ)
  | crash

namespace OutboxState

variable (H : Sha256) (U : Unicode) (signer : AuditSigner) (order : RowOrder)

/-- The state with one drain changed. -/
def setDrain (s : OutboxState) (drain : ℕ) (new : DrainState) : OutboxState :=
  { s with drains := Function.update s.drains drain new }

@[simp] theorem db_setDrain (s : OutboxState) (drain : ℕ) (new : DrainState) :
    (s.setDrain drain new).db = s.db := rfl

theorem drains_setDrain (s : OutboxState) (drain other : ℕ) (new : DrainState) :
    (s.setDrain drain new).drains other = if other = drain then new else s.drains other :=
  Function.update_apply s.drains drain new other

/-- One step. -/
def step (s : OutboxState) : OutboxLabel → Option OutboxState
  | .record skipped call => some { s with db := s.db.record skipped call }
  | .audit event => some { s with db := { s.db with events := s.db.events ++ [(none, event)] } }
  | .sign signed chain =>
    some { s with db := { s.db with signed := s.db.signed ++ [(none, signed)], chain } }
  | .call drain =>
    if (s.drains drain).running then none else some (s.setDrain drain { running := true })
  | .list drain =>
    let old := s.drains drain
    match old.running, old.queue, old.held with
    -- An empty batch is the last one.
    | true, [], none =>
      some (s.setDrain drain
        { running := !s.db.pendingIds.isEmpty, queue := s.db.pendingIds,
          listed := s.db.pendingIds.length, total := old.total + old.listed })
    | _, _, _ => none
  | .read drain =>
    let old := s.drains drain
    match old.running, old.queue, old.held with
    | true, id :: queue, none =>
      let pending := (s.db.rows.get? id).filter fun row => row.status = .pending
      some (s.setDrain drain { old with queue, held := pending.map fun row => (id, row) })
    | _, _, _ => none
  | .finish drain attempt =>
    let old := s.drains drain
    match old.running, old.held with
    | true, some (id, row) =>
      let db := s.db.drainRow H U signer order id row.toOutboxCall attempt
      -- What a failed commit raises ends the batch and the call.
      let new := if attempt.commits then { old with held := none } else { total := old.total }
      some (setDrain { s with db } drain new)
    | _, _ => none
  | .leave drain => some (s.setDrain drain {})
  | .crash =>
    some { db := { s.db with chain := .load (s.db.signed.map Prod.snd) }, drains := fun _ => {} }

/-! ## When a drain takes a step -/

variable {H U signer order} {s t : OutboxState} {drain : ℕ} {attempt : RowAttempt}

theorem step_call_eq_some (h : step H U signer order s (.call drain) = some t) :
    (s.drains drain).running = false ∧ t = s.setDrain drain { running := true } := by
  simp only [step] at h
  split at h
  · cases h
  next hrunning =>
    cases h
    exact ⟨Bool.eq_false_of_not_eq_true hrunning, rfl⟩

/-- A running drain lists when its batch is done. -/
theorem step_list_eq_some (h : step H U signer order s (.list drain) = some t) :
    (s.drains drain).running = true ∧ (s.drains drain).queue = [] ∧ (s.drains drain).held = none ∧
      t = s.setDrain drain
        { running := !s.db.pendingIds.isEmpty, queue := s.db.pendingIds,
          listed := s.db.pendingIds.length,
          total := (s.drains drain).total + (s.drains drain).listed } := by
  simp only [step] at h
  split at h
  next hrunning hqueue hheld =>
    cases h
    exact ⟨hrunning, hqueue, hheld, rfl⟩
  next => cases h

/-- It reads the next row of its batch, and holds it if it is still pending. -/
theorem step_read_eq_some (h : step H U signer order s (.read drain) = some t) :
    ∃ id queue, (s.drains drain).running = true ∧ (s.drains drain).queue = id :: queue ∧
      (s.drains drain).held = none ∧
      t = s.setDrain drain
        { s.drains drain with
          queue
          held := ((s.db.rows.get? id).filter fun row => row.status = .pending).map
            fun row => (id, row) } := by
  simp only [step] at h
  split at h
  next id queue hrunning hqueue hheld =>
    cases h
    exact ⟨id, queue, hrunning, hqueue, hheld, rfl⟩
  next => cases h

/-- It finishes the row that it holds, and leaves what a row transaction does. -/
theorem step_finish_eq_some (h : step H U signer order s (.finish drain attempt) = some t) :
    ∃ id row db, (s.drains drain).running = true ∧ (s.drains drain).held = some (id, row) ∧
      AuditDb.RowLeft s.db id row.toOutboxCall attempt db ∧
      t = setDrain { s with db } drain
        (if attempt.commits then { s.drains drain with held := none }
          else { total := (s.drains drain).total }) := by
  simp only [step] at h
  split at h
  next id row hrunning hheld =>
    cases h
    exact ⟨id, row, _, hrunning, hheld, AuditDb.drainRow_left, rfl⟩
  next => cases h

variable (H U signer order attempt) in
/-- A drain that holds a row can finish it. -/
theorem exists_step_finish {id : ℕ} {row : OutboxRow} (hrunning : (s.drains drain).running = true)
    (hheld : (s.drains drain).held = some (id, row)) :
    ∃ db, AuditDb.RowLeft s.db id row.toOutboxCall attempt db ∧
      step H U signer order s (.finish drain attempt) = some
        (setDrain { s with db } drain
          (if attempt.commits then { s.drains drain with held := none }
            else { total := (s.drains drain).total })) := by
  refine ⟨s.db.drainRow H U signer order id row.toOutboxCall attempt, AuditDb.drainRow_left, ?_⟩
  simp only [step]
  rw [hrunning, hheld]

end OutboxState

end SecOpent
