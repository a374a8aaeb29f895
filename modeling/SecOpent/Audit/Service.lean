import Mathlib.Data.List.MinMax
import SecOpent.Audit.Events
import SecOpent.Transition.Runs

/-!
# The audit log

`application/audit.py` over `SqlAlchemyAuditRepository`: a new event is linked to the row with the
latest time stamp, and the rows are read back in the order of their time stamps. The database is
free to choose among rows with equal time stamps. Rows are read back as they were linked in the runs
in which every reading of the clock is later than all time stamps in the table.

## Main definitions

* `RowOrder`: what a database promises of `ORDER BY occurred_at`
* `AuditService.record`: one call
* `ClockAdvances`: the condition on one call, read in the state before it

## Main results

* `ascending_eq_self`, `latest_eq_getLast?`: what is read from rows with increasing time stamps
* `InOrder.step`: the rows stay linked in the order of their time stamps
* `readBack_verifies`: what is read back passes `verify_chain`
-/

namespace SecOpent

open Python HashChain Transition

/-! ## Reading the table -/

/-- The place of an event's time stamp. -/
def AuditEvent.ticks (event : AuditEvent) : ℕ := event.occurredAt.ticks

/-- `ORDER BY occurred_at` and `ORDER BY occurred_at DESC LIMIT 1`: sorted by time stamp, in any
order among equal ones. -/
structure RowOrder where
  ascending : List AuditEvent → List AuditEvent
  latest : List AuditEvent → Option AuditEvent
  perm : ∀ rows, (ascending rows).Perm rows
  sorted : ∀ rows, (ascending rows).Pairwise fun a b => a.ticks ≤ b.ticks
  latest_isSome : ∀ rows, rows ≠ [] → (latest rows).isSome = true
  latest_max : ∀ rows row, latest rows = some row → row ∈ rows ∧ ∀ other ∈ rows, other.ticks ≤ row.ticks

namespace RowOrder

variable (order : RowOrder) {rows : List AuditEvent}

/-- Rows in the order of their time stamps are read as they stand. -/
theorem ascending_eq_self (h : rows.Pairwise fun a b => a.ticks < b.ticks) :
    order.ascending rows = rows := by
  refine List.Perm.eq_of_pairwise ?_ (order.sorted rows) (h.imp le_of_lt) (order.perm rows)
  intro a b ha hb hab hba
  have ha := (order.perm rows).mem_iff.mp ha
  -- Two rows of a strictly sorted list that are not apart are the same.
  by_contra hne
  obtain ⟨i, hi, rfl⟩ := List.mem_iff_getElem.mp ha
  obtain ⟨j, hj, rfl⟩ := List.mem_iff_getElem.mp hb
  have hpair := List.pairwise_iff_getElem.mp h
  rcases Nat.lt_trichotomy i j with hij | rfl | hij
  · have := hpair i j hi hj hij
    omega
  · exact hne rfl
  · have := hpair j i hj hi hij
    omega

/-- The latest of rows in the order of their time stamps is the last. -/
theorem latest_eq_getLast? (h : rows.Pairwise fun a b => a.ticks < b.ticks) :
    order.latest rows = rows.getLast? := by
  induction rows using List.reverseRecOn with
  | nil =>
    cases hlatest : order.latest [] with
    | none => rfl
    | some row => exact absurd (order.latest_max [] row hlatest).1 (by simp)
  | append_singleton rows last _ =>
    obtain ⟨row, hrow⟩ := Option.isSome_iff_exists.mp (order.latest_isSome (rows ++ [last]) (by simp))
    obtain ⟨hmem, hmax⟩ := order.latest_max _ _ hrow
    rw [hrow, List.getLast?_concat]
    rcases List.mem_append.mp hmem with hmem | hmem
    · have hlt := (List.pairwise_append.mp h).2.2 row hmem last (by simp)
      have hle := hmax last (by simp)
      omega
    · rw [List.mem_singleton.mp hmem]

end RowOrder

/-! ## The service -/

/-- The arguments of one `record`, and the reading of the clock. -/
structure AuditCall where
  actor : String
  action : String
  resourceType : String
  resourceId : String
  payload : List (String × Json)
  now : DateTime

/-- `last_hash`, and the genesis value for an empty text. -/
def lastHash (order : RowOrder) (rows : List AuditEvent) : Str :=
  match order.latest rows with
  | none => genesisHash
  | some row =>
    if (removePrefix row.eventHash sha256Tag).isEmpty then genesisHash
    else removePrefix row.eventHash sha256Tag

/-- `AuditService.record`: the event that is added. -/
def AuditService.record (H : Sha256) (U : Unicode) (order : RowOrder) (rows : List AuditEvent)
    (call : AuditCall) : Except AuditError AuditEvent :=
  AuditEvent.create H U ("evt-" ++ toString ((order.ascending rows).length + 1)) call.actor
    call.action call.resourceType call.resourceId call.payload (lastHash order rows) call.now

/-- One call on the table; a call that raises adds nothing and is no step. -/
def AuditService.step (H : Sha256) (U : Unicode) (order : RowOrder) (rows : List AuditEvent)
    (call : AuditCall) : Option (List AuditEvent) :=
  match AuditService.record H U order rows call with
  | .ok event => some (rows ++ [event])
  | .error _ => none

/-- The condition on a call: the clock is past every time stamp of the table. -/
def ClockAdvances (rows : List AuditEvent) (call : AuditCall) : Prop :=
  ∀ row ∈ rows, row.ticks < call.now.ticks

/-! ## Runs -/

/-- The rows are linked in the order in which they were added, which is that of their time stamps. -/
structure InOrder (H : Sha256) (rows : List AuditEvent) : Prop where
  chained : AuditEvent.Chained H rows
  increasing : rows.Pairwise fun a b => a.ticks < b.ticks

section Step

variable {H : Sha256} {U : Unicode} {order : RowOrder} {rows rows' : List AuditEvent}
  {call : AuditCall}

/-- The latest row is the last one that was linked. -/
theorem InOrder.lastHash_eq (h : InOrder H rows) :
    lastHash order rows = tail (AuditEvent.digest H) genesisHash rows := by
  rw [lastHash, order.latest_eq_getLast? h.increasing, tail]
  cases hlast : rows.getLast? with
  | none => rfl
  | some row =>
    have hsealed : row.eventHash = sha256Tag ++ row.digest H :=
      h.chained.2 row (List.mem_of_getLast? hlast)
    simp [hsealed, AuditEvent.digest, H.ne_nil]

/-- **Rows stay linked in the order of their time stamps.** -/
theorem InOrder.step (h : InOrder H rows) (hcond : ClockAdvances rows call)
    (hstep : AuditService.step H U order rows call = some rows') : InOrder H rows' := by
  unfold AuditService.step at hstep
  split at hstep
  next event hrecord =>
    cases hstep
    obtain ⟨hsealed, _, hevent⟩ := AuditEvent.create_ok hrecord
    refine ⟨⟨?_, ?_⟩, ?_⟩
    · refine linked_concat.mpr ⟨h.chained.1, ?_⟩
      rw [hevent, h.lastHash_eq]
    · intro row hrow
      rcases List.mem_append.mp hrow with hrow | hrow
      · exact h.chained.2 row hrow
      · rw [List.mem_singleton.mp hrow]
        exact hsealed
    · rw [List.pairwise_append]
      refine ⟨h.increasing, List.pairwise_singleton _ _, ?_⟩
      intro row hrow last hlast
      have hticks : event.ticks = call.now.ticks := by rw [AuditEvent.ticks, hevent]
      rw [List.mem_singleton.mp hlast, hticks]
      exact hcond row hrow
  next => cases hstep

end Step

/-- **What is read back passes `verify_chain`**, in every run whose clock advances and on every
database: the rows are read in the order in which they were linked, and the latest row is the last
one linked. -/
theorem readBack_verifies {H : Sha256} {U : Unicode} {order : RowOrder} {rows : List AuditEvent}
    (h : Reaches (AuditService.step H U order) ClockAdvances [] rows) :
    AuditEvent.verifyChain H (order.ascending rows) = true ∧ order.ascending rows = rows ∧
      order.latest rows = rows.getLast? := by
  have hinv : InOrder H rows :=
    h.invariant ⟨⟨trivial, by simp⟩, .nil⟩ fun _ _ _ hinv hcond hstep => hinv.step hcond hstep
  have hself := order.ascending_eq_self hinv.increasing
  refine ⟨?_, hself, order.latest_eq_getLast? hinv.increasing⟩
  rw [hself]
  exact AuditEvent.verifyChain_iff.mpr hinv.chained

/-! ## A clock that steps back -/

/-- The order of time stamps. -/
def NotLater (a b : AuditEvent) : Prop := a.ticks ≤ b.ticks

instance : DecidableRel NotLater := fun a b => inferInstanceAs (Decidable (a.ticks ≤ b.ticks))

instance : Std.Total NotLater := ⟨fun a b => Nat.le_total a.ticks b.ticks⟩

instance : IsTrans AuditEvent NotLater := ⟨fun _ _ _ => Nat.le_trans⟩

/-- A database that keeps rows with equal time stamps in the order in which they were added. -/
def stableOrder : RowOrder where
  ascending rows := rows.insertionSort NotLater
  latest rows := rows.argmax AuditEvent.ticks
  perm := List.perm_insertionSort NotLater
  sorted := List.pairwise_insertionSort NotLater
  latest_isSome rows h := by
    rw [Option.isSome_iff_ne_none, ne_eq, List.argmax_eq_none]
    exact h
  latest_max rows row h := ⟨List.argmax_mem h, fun other hother => List.le_of_mem_argmax hother h⟩

/-- A call at the given second. -/
def auditCallAt (second : Fin 60) : AuditCall :=
  ⟨"system", "assessment.started", "assessment", "asm-a", [], halfPastNine second⟩

/-- The clock steps back between two calls: the second event is read first, and refers to the first
one. -/
theorem readBack_fails :
    ∃ rows, runLabels (AuditService.step codeDigest .ascii stableOrder) []
        [auditCallAt 2, auditCallAt 1] = some rows ∧
      AuditEvent.verifyChain codeDigest (stableOrder.ascending rows) = false := by
  refine ⟨_, rfl, ?_⟩
  decide +kernel

/-- Two calls, one second apart. -/
theorem readBack_verifies_advancing :
    ∃ rows, Reaches (AuditService.step codeDigest .ascii stableOrder) ClockAdvances [] rows ∧
      rows.length = 2 ∧ AuditEvent.verifyChain codeDigest (stableOrder.ascending rows) = true ∧
      stableOrder.ascending rows = rows ∧ stableOrder.latest rows = rows.getLast? := by
  have hfirst : Reaches (AuditService.step codeDigest .ascii stableOrder) ClockAdvances [] _ :=
    .tail .refl (l := auditCallAt 1) (fun row hrow => by cases hrow) rfl
  have hsecond : Reaches (AuditService.step codeDigest .ascii stableOrder) ClockAdvances [] _ :=
    .tail hfirst (l := auditCallAt 2) (fun row hrow => by rw [List.mem_singleton.mp hrow]; decide) rfl
  exact ⟨_, hsecond, rfl, readBack_verifies hsecond⟩

end SecOpent
