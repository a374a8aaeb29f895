import SecOpent.Audit.OutboxCalls
import SecOpent.Transition.Conditions

/-!
# What becomes of the rows of the outbox

A row that is done has one event in each audit table, and every other row has none. A row transaction
keeps this, whatever its writers raise and wherever the process ends, unless the row was done by another
drain after it had been read: then it gets its events a second time, or is marked as failed although it
was delivered. A drain that is alone does not meet this.

## Main definitions

* `ExactlyOnce`: a row is done with one event in each table, or is not done and has none
* `NotOvertaken`: a transaction that commits does not find its row done
* `Consistent`: what holds besides
* `Alone`: a row is read while no other drain holds one

## Main results

* `Consistent.step`: what a step keeps
* `always_exactlyOnce_iff`: the rows are delivered exactly once exactly if no transaction is overtaken
* `outbox_delivery`: when rows are delivered exactly once, what is enough for it, and how calls go on
-/

namespace SecOpent

open Python Transition

/-! ## Delivery -/

/-- The row is done, and has one event in each table, which says what the row says. -/
def DeliveredOnce (db : AuditDb) (id : ℕ) (row : OutboxRow) : Prop :=
  row.status = .done ∧ ∃ event signed, madeOf id db.events = [event] ∧ madeOf id db.signed = [signed] ∧
    row.Tells event ∧ row.Tells signed.event

/-- The row is not done, and has no event. -/
def NotDelivered (db : AuditDb) (id : ℕ) (row : OutboxRow) : Prop :=
  row.status ≠ .done ∧ madeOf id db.events = [] ∧ madeOf id db.signed = []

/-- Each row is done with one event in each table, or is not done and has none. -/
def ExactlyOnce (s : OutboxState) : Prop :=
  ∀ id row, s.db.rows.get? id = some row → DeliveredOnce s.db id row ∨ NotDelivered s.db id row

/-- A row transaction that commits does not find its row done. -/
def NotOvertaken (s : OutboxState) : OutboxLabel → Prop
  | .finish drain attempt => attempt.commits = true → ∀ id row current,
      (s.drains drain).held = some (id, row) → s.db.rows.get? id = some current →
      current.status ≠ .done
  | _ => True

/-- What holds besides: ids are given once, events were made of rows that are there, and a drain that
holds a row is running and has read one that is there. -/
structure Consistent (s : OutboxState) : Prop where
  once : ExactlyOnce s
  bounded : ∀ id row, s.db.rows.get? id = some row → id < s.db.nextId
  absent : ∀ id, s.db.rows.get? id = none →
    madeOf id s.db.events = [] ∧ madeOf id s.db.signed = []
  held : ∀ drain id row, (s.drains drain).held = some (id, row) → (s.drains drain).running = true ∧
    ∃ current, s.db.rows.get? id = some current ∧ current.toOutboxCall = row.toOutboxCall

section Delivery

variable {H : Sha256} {U : Unicode} {signer : AuditSigner} {order : RowOrder}
  {s t : OutboxState} {label : OutboxLabel} {labels : List OutboxLabel} {db db' : AuditDb}
  {id drain : ℕ} {row current : OutboxRow} {attempt : RowAttempt}

/-- The tables are the same, as far as rows and their events go. -/
structure SameTables (db db' : AuditDb) : Prop where
  rows : db'.rows = db.rows
  nextId : db'.nextId = db.nextId
  events : ∀ id, madeOf id db'.events = madeOf id db.events
  signed : ∀ id, madeOf id db'.signed = madeOf id db.signed

theorem SameTables.refl : SameTables db db := ⟨rfl, rfl, fun _ => rfl, fun _ => rfl⟩

theorem SameTables.settled (h : SameTables db db') :
    DeliveredOnce db' id row ∨ NotDelivered db' id row ↔
      DeliveredOnce db id row ∨ NotDelivered db id row := by
  unfold DeliveredOnce NotDelivered
  rw [h.events, h.signed]

/-- A step that leaves the tables, and holds what is there. -/
theorem Consistent.of_same (h : Consistent s) (htables : SameTables s.db t.db)
    (hheld : ∀ drain id row, (t.drains drain).held = some (id, row) → (t.drains drain).running = true ∧
      ∃ current, s.db.rows.get? id = some current ∧ current.toOutboxCall = row.toOutboxCall) :
    Consistent t where
  once id row hrow := by
    rw [htables.rows] at hrow
    exact htables.settled.mpr (h.once id row hrow)
  bounded id row hrow := by
    rw [htables.rows] at hrow
    rw [htables.nextId]
    exact h.bounded id row hrow
  absent id hrow := by
    rw [htables.rows] at hrow
    rw [htables.events, htables.signed]
    exact h.absent id hrow
  held drain id row hrow := by
    rw [htables.rows]
    exact hheld drain id row hrow

/-- One drain changed: what it holds is there. -/
theorem Consistent.setDrain (h : Consistent s) {new : DrainState}
    (hnew : ∀ id row, new.held = some (id, row) → new.running = true ∧
      ∃ current, s.db.rows.get? id = some current ∧ current.toOutboxCall = row.toOutboxCall) :
    Consistent (s.setDrain drain new) := by
  refine h.of_same .refl fun other id row hrow => ?_
  rw [OutboxState.drains_setDrain] at hrow ⊢
  split at hrow
  next heq =>
    rw [if_pos heq]
    exact hnew id row hrow
  next hne =>
    rw [if_neg hne]
    exact h.held other id row hrow

/-- A new row has a new id. -/
theorem Consistent.record (h : Consistent s) (skipped : ℕ) (call : OutboxCall) :
    Consistent { s with db := s.db.record skipped call } := by
  -- The ids that were given are below the counter, whatever was rolled back since.
  have hfresh : s.db.rows.get? (s.db.nextId + skipped) = none := by
    cases hrow : s.db.rows.get? (s.db.nextId + skipped) with
    | none => rfl
    | some row =>
      have := h.bounded _ row hrow
      omega
  constructor
  · intro id row hrow
    rw [AuditDb.record, Dict.get?_set] at hrow
    split at hrow
    next hid =>
      cases hrow
      subst hid
      exact .inr ⟨nofun, h.absent _ hfresh⟩
    next => exact h.once id row hrow
  · intro id row hrow
    rw [AuditDb.record, Dict.get?_set] at hrow
    show id < s.db.nextId + skipped + 1
    split at hrow
    next hid => omega
    next =>
      have := h.bounded id row hrow
      omega
  · intro id hrow
    rw [AuditDb.record, Dict.get?_set] at hrow
    split at hrow
    next => cases hrow
    next => exact h.absent id hrow
  · intro drain id row hrow
    obtain ⟨hrunning, current, hcurrent, hsame⟩ := h.held drain id row hrow
    refine ⟨hrunning, current, ?_, hsame⟩
    show (s.db.rows.set (s.db.nextId + skipped) { toOutboxCall := call }).get? id = _
    rw [Dict.get?_set]
    split
    next hid =>
      rw [hid, hfresh] at hcurrent
      cases hcurrent
    next => exact hcurrent

/-- One row changed, and not its call: the other rows, and the ids, are as they were. -/
theorem Consistent.of_updated (h : Consistent s) (change : OutboxRow → OutboxRow)
    (hchange : ∀ row, (change row).toOutboxCall = row.toOutboxCall)
    (hrows : db.rows = s.db.updated id change) (hnext : db.nextId = s.db.nextId)
    (hmade : ∀ other, other ≠ id → madeOf other db.events = madeOf other s.db.events ∧
      madeOf other db.signed = madeOf other s.db.signed)
    (hcurrent : s.db.rows.get? id = some current)
    (hsettled : DeliveredOnce db id (change current) ∨ NotDelivered db id (change current)) :
    Consistent { s with db } where
  once other found hfound := by
    have hfound : db.rows.get? other = some found := hfound
    rw [hrows] at hfound
    obtain ⟨old, hold, rfl⟩ := AuditDb.exists_of_get?_updated hfound
    split
    next heq =>
      subst heq
      rw [hcurrent] at hold
      cases hold
      exact hsettled
    next hne =>
      have hother := h.once other old hold
      unfold DeliveredOnce NotDelivered at hother ⊢
      rw [(hmade other hne).1, (hmade other hne).2]
      exact hother
  bounded other found hfound := by
    have hfound : db.rows.get? other = some found := hfound
    rw [hrows] at hfound
    obtain ⟨old, hold, -⟩ := AuditDb.exists_of_get?_updated hfound
    show other < db.nextId
    rw [hnext]
    exact h.bounded other old hold
  absent other hfound := by
    have hfound : db.rows.get? other = none := hfound
    cases hold : s.db.rows.get? other with
    | some old =>
      rw [hrows, AuditDb.get?_updated_of_some hold] at hfound
      cases hfound
    | none =>
      have hne : other ≠ id := by
        rintro rfl
        rw [hcurrent] at hold
        cases hold
      rw [(hmade other hne).1, (hmade other hne).2]
      exact h.absent other hold
  held drain other row hrow := by
    obtain ⟨hrunning, found, hfound, hsame⟩ := h.held drain other row hrow
    refine ⟨hrunning, ?_⟩
    show ∃ current, db.rows.get? other = some current ∧ _
    rw [hrows, AuditDb.get?_updated_of_some hfound]
    refine ⟨_, rfl, ?_⟩
    split
    · exact (hchange found).trans hsame
    · exact hsame

/-- **A row transaction that is not overtaken** leaves its row done with its events, or not done. -/
theorem Consistent.drainRow (h : Consistent s) (hheld : (s.drains drain).held = some (id, row))
    (hfresh : attempt.commits = true → ∀ current, s.db.rows.get? id = some current →
      current.status ≠ .done)
    (hleft : AuditDb.RowLeft s.db id row.toOutboxCall attempt db) :
    Consistent { s with db } := by
  obtain ⟨-, current, hcurrent, hsame⟩ := h.held drain id row hheld
  -- The row may have been marked as failed since it was read, but it has no event yet.
  have hnone : attempt.commits = true → NotDelivered s.db id current := fun hcommits =>
    (h.once id current hcurrent).resolve_left fun hdone => hfresh hcommits current hcurrent hdone.1
  cases hleft with
  | lost chain _ => exact h.of_same ⟨rfl, rfl, fun _ => rfl, fun _ => rfl⟩ h.held
  | failed chain text hcommits =>
    exact h.of_updated (AuditDb.markFailed text) (fun _ => rfl) rfl rfl
      (fun _ _ => ⟨rfl, rfl⟩) hcurrent (.inr ⟨nofun, (hnone hcommits).2⟩)
  | delivered chain event signed hcommits hevent hsigned =>
    refine h.of_updated (AuditDb.markDone attempt.processedAt) (fun _ => rfl) rfl rfl ?_
      hcurrent (.inl ⟨rfl, event, signed, ?_, ?_, ?_, ?_⟩)
    · intro other hne
      have htag : ¬some id = some other := fun heq => hne (Option.some.inj heq).symm
      rw [madeOf_append, madeOf_append, if_neg htag, if_neg htag, List.append_nil, List.append_nil]
      exact ⟨rfl, rfl⟩
    · rw [madeOf_append, (hnone hcommits).2.1, if_pos rfl, List.nil_append]
    · rw [madeOf_append, (hnone hcommits).2.2, if_pos rfl, List.nil_append]
    · rw [← hsame] at hevent
      exact hevent
    · rw [← hsame] at hsigned
      exact hsigned

/-- Other entries of the logs are of no row. -/
theorem madeOf_append_none {α : Type} (id : ℕ) (log : List (Option ℕ × α)) (a : α) :
    madeOf id (log ++ [(none, a)]) = madeOf id log := by
  rw [madeOf_append, if_neg nofun, List.append_nil]

/-- **What a step keeps**, if it is not overtaken. -/
theorem Consistent.step (h : Consistent s) (hcond : NotOvertaken s label)
    (hstep : OutboxState.step H U signer order s label = some t) : Consistent t := by
  cases label with
  | record skipped call =>
    cases hstep
    exact h.record skipped call
  | audit event =>
    cases hstep
    exact h.of_same ⟨rfl, rfl, fun id => madeOf_append_none id _ event, fun _ => rfl⟩ h.held
  | sign signed chain =>
    cases hstep
    exact h.of_same ⟨rfl, rfl, fun _ => rfl, fun id => madeOf_append_none id _ signed⟩ h.held
  | call drain =>
    obtain ⟨-, rfl⟩ := OutboxState.step_call_eq_some hstep
    exact h.setDrain nofun
  | list drain =>
    obtain ⟨-, -, -, rfl⟩ := OutboxState.step_list_eq_some hstep
    exact h.setDrain nofun
  | read drain =>
    obtain ⟨id, queue, hrunning, -, -, rfl⟩ := OutboxState.step_read_eq_some hstep
    refine h.setDrain fun found row hheld => ⟨hrunning, ?_⟩
    obtain ⟨current, hcurrent, heq⟩ := Option.map_eq_some_iff.mp hheld
    cases heq
    exact ⟨row, (Option.filter_eq_some_iff.mp hcurrent).1, rfl⟩
  | finish drain attempt =>
    obtain ⟨id, row, db, -, hheld, hleft, rfl⟩ := OutboxState.step_finish_eq_some hstep
    have hrow := h.drainRow hheld (fun hcommits current => hcond hcommits id row current hheld) hleft
    refine hrow.setDrain ?_
    split
    · exact nofun
    · exact nofun
  | leave drain =>
    cases hstep
    exact h.setDrain nofun
  | crash =>
    cases hstep
    exact h.of_same ⟨rfl, rfl, fun _ => rfl, fun _ => rfl⟩ nofun

/-- What keeps the rows delivered exactly once is not overtaken: a row that is done would get its events
again, or be marked as failed. -/
theorem notOvertaken_of_exactlyOnce (h : Consistent s)
    (hnext : ∀ t, OutboxState.step H U signer order s label = some t → ExactlyOnce t) :
    NotOvertaken s label := by
  cases label with
  | finish drain attempt =>
    intro hcommits id row current hheld hcurrent hdone
    obtain ⟨-, event, signed, hevents, hsigned, -, -⟩ :=
      (h.once id current hcurrent).resolve_right fun hnone => hnone.1 hdone
    obtain ⟨db, hleft, hstep⟩ := OutboxState.exists_step_finish H U signer order attempt
      (h.held drain id row hheld).1 hheld
    have hafter := hnext _ hstep
    cases hleft with
    | lost _ hlost =>
      rw [hlost] at hcommits
      cases hcommits
    | failed chain text _ =>
      -- The row is not done any more, and still has its events.
      rcases hafter id (AuditDb.markFailed text current)
        ((AuditDb.get?_updated_of_some hcurrent).trans (by rw [if_pos rfl])) with hset | hset
      · cases hset.1
      · cases hevents.symm.trans hset.2.1
    | delivered chain event' signed' _ _ _ =>
      -- The row is done, with one event more.
      have htwice : madeOf id (s.db.events ++ [(some id, event')]) = [event, event'] := by
        rw [madeOf_append, hevents, if_pos rfl]
        rfl
      rcases hafter id (AuditDb.markDone attempt.processedAt current)
        ((AuditDb.get?_updated_of_some hcurrent).trans (by rw [if_pos rfl])) with hset | hset
      · obtain ⟨-, one, -, hone, -⟩ := hset
        cases hone.symm.trans htwice
      · cases hset.2.1.symm.trans htwice
  | _ => trivial

/-- **The rows of the outbox are delivered exactly once**, in every state of a run, exactly if no row
transaction is overtaken. -/
theorem always_exactlyOnce_iff (h : Consistent s) :
    Always (OutboxState.step H U signer order) ExactlyOnce s labels ↔
      runMeets (OutboxState.step H U signer order) NotOvertaken s labels :=
  always_iff_of_stronger (fun _ hs => hs.once)
    (fun _ _ hs hnext => notOvertaken_of_exactlyOnce hs hnext)
    (fun _ _ _ hs hcond hstep => hs.step hcond hstep) h

end Delivery

/-! ## A drain that is alone -/

/-- A drain reads a row while no other one holds a row. -/
def Alone (s : OutboxState) : OutboxLabel → Prop
  | .read drain => ∀ other, other ≠ drain → (s.drains other).held = none
  | _ => True

/-- One drain holds a row at most, and that row is pending. -/
structure SoleHolder (s : OutboxState) : Prop where
  one : ∀ drain other, (s.drains drain).held.isSome → (s.drains other).held.isSome → drain = other
  pending : ∀ drain id row, (s.drains drain).held = some (id, row) →
    ∀ current, s.db.rows.get? id = some current → current.status = .pending

section Alone

variable {H : Sha256} {U : Unicode} {signer : AuditSigner} {order : RowOrder}
  {s t : OutboxState} {label : OutboxLabel} {labels : List OutboxLabel} {drain : ℕ}

theorem SoleHolder.notOvertaken (h : SoleHolder s) : NotOvertaken s label := by
  cases label with
  | finish drain attempt =>
    intro _ id row current hheld hcurrent
    rw [h.pending drain id row hheld current hcurrent]
    exact nofun
  | _ => trivial

/-- A drain that lets go of its row. -/
theorem SoleHolder.release (h : SoleHolder s) {db : AuditDb} {new : DrainState} (hnew : new.held = none)
    (hdb : ∀ other id row, other ≠ drain → (s.drains other).held = some (id, row) →
      ∀ current, db.rows.get? id = some current → current.status = .pending) :
    SoleHolder (OutboxState.setDrain { s with db } drain new) := by
  constructor
  · intro first second hfirst hsecond
    rw [OutboxState.drains_setDrain] at hfirst hsecond
    split at hfirst
    · simp [hnew] at hfirst
    · split at hsecond
      · simp [hnew] at hsecond
      · exact h.one first second hfirst hsecond
  · intro other id row hheld
    rw [OutboxState.drains_setDrain] at hheld
    split at hheld
    · simp [hnew] at hheld
    next hother => exact hdb other id row hother hheld

theorem SoleHolder.step (h : SoleHolder s) (halone : Alone s label)
    (hstep : OutboxState.step H U signer order s label = some t) : SoleHolder t := by
  cases label with
  | record skipped call =>
    cases hstep
    refine ⟨h.one, fun drain id row hheld current hcurrent => ?_⟩
    have hcurrent : (s.db.rows.set (s.db.nextId + skipped) { toOutboxCall := call }).get? id =
      some current := hcurrent
    rw [Dict.get?_set] at hcurrent
    split at hcurrent
    · cases hcurrent
      rfl
    · exact h.pending drain id row hheld current hcurrent
  | audit event =>
    cases hstep
    exact ⟨h.one, h.pending⟩
  | sign signed chain =>
    cases hstep
    exact ⟨h.one, h.pending⟩
  | call drain =>
    obtain ⟨-, rfl⟩ := OutboxState.step_call_eq_some hstep
    exact h.release rfl fun other id row _ hheld => h.pending other id row hheld
  | list drain =>
    obtain ⟨-, -, -, rfl⟩ := OutboxState.step_list_eq_some hstep
    exact h.release rfl fun other id row _ hheld => h.pending other id row hheld
  | read drain =>
    obtain ⟨id, queue, -, -, -, rfl⟩ := OutboxState.step_read_eq_some hstep
    -- No other drain holds a row.
    have hnone : ∀ new other, ((s.setDrain drain new).drains other).held.isSome → other = drain := by
      intro new other hheld
      rw [OutboxState.drains_setDrain] at hheld
      by_contra hne
      rw [if_neg hne, halone other hne] at hheld
      cases hheld
    refine ⟨fun first second hfirst hsecond => ?_, fun other found row hheld current hcurrent => ?_⟩
    · rw [hnone _ first hfirst, hnone _ second hsecond]
    · obtain rfl := hnone _ other (by rw [hheld]; rfl)
      rw [OutboxState.drains_setDrain, if_pos rfl] at hheld
      obtain ⟨read, hread, heq⟩ := Option.map_eq_some_iff.mp hheld
      cases heq
      obtain ⟨hget, hpending⟩ := Option.filter_eq_some_iff.mp hread
      -- The row that is held is the one that was found pending.
      cases hget.symm.trans hcurrent
      exact of_decide_eq_true hpending
  | finish drain attempt =>
    obtain ⟨id, row, db, -, hheld, -, rfl⟩ := OutboxState.step_finish_eq_some hstep
    refine h.release ?_ fun other id' row' hother hheld' => ?_
    · split
      · rfl
      · rfl
    · -- The drain that finishes is the only one with a row.
      exact absurd (h.one other drain (by rw [hheld']; rfl) (by rw [hheld]; rfl)) hother
  | leave drain =>
    cases hstep
    exact h.release rfl fun other id row _ hheld => h.pending other id row hheld
  | crash =>
    cases hstep
    refine ⟨fun first second hfirst => ?_, fun drain id row hheld => ?_⟩
    · cases hfirst
    · cases hheld

/-- A drain that is alone is not overtaken. -/
theorem runMeets_notOvertaken (h : SoleHolder s)
    (halone : runMeets (OutboxState.step H U signer order) Alone s labels) :
    runMeets (OutboxState.step H U signer order) NotOvertaken s labels :=
  runMeets_imp SoleHolder (fun _ _ hs _ => hs.notOvertaken)
    (fun _ _ _ hs hcond hstep => hs.step hcond hstep) h halone

end Alone

/-! ## The outbox -/

/-- An empty outbox, beside what others have written into the audit tables. -/
def OutboxState.start (events : List AuditEvent) (signed : List SignedAuditEvent)
    (chain : AuditChain) : OutboxState where
  db :=
    { events := events.map fun event => (none, event)
      signed := signed.map fun s => (none, s)
      chain }

theorem madeOf_map_none {α : Type} (id : ℕ) (log : List α) :
    madeOf id (log.map fun a => (none, a)) = [] := by
  unfold madeOf
  rw [List.map_eq_nil_iff, List.filter_eq_nil_iff]
  intro entry hentry
  obtain ⟨a, -, rfl⟩ := List.mem_map.mp hentry
  simp

theorem consistent_start (events : List AuditEvent) (signed : List SignedAuditEvent)
    (chain : AuditChain) : Consistent (.start events signed chain) where
  once id row hrow := by cases hrow
  bounded id row hrow := by cases hrow
  absent id _ := ⟨madeOf_map_none id events, madeOf_map_none id signed⟩
  held drain id row hheld := by cases hheld

theorem soleHolder_start (events : List AuditEvent) (signed : List SignedAuditEvent)
    (chain : AuditChain) : SoleHolder (.start events signed chain) where
  one drain other hdrain := by cases hdrain
  pending drain id row hheld := by cases hheld

/-- **What becomes of the rows of an outbox**, whatever its writers raise and wherever it crashes. In
every state of a run each row is done with one event in each table or is not done and has none, exactly
if no row transaction commits for a row that another drain has done since it was read; so where a drain
reads its rows while no other one holds a row. A call of `drain_pending` can take a step for as long as
it has not returned, and takes no more than it has left. -/
theorem outbox_delivery (H : Sha256) (U : Unicode) (signer : AuditSigner) (order : RowOrder)
    (events : List AuditEvent) (signed : List SignedAuditEvent) (chain : AuditChain)
    (labels : List OutboxLabel) :
    (Always (OutboxState.step H U signer order) ExactlyOnce (.start events signed chain) labels ↔
      runMeets (OutboxState.step H U signer order) NotOvertaken (.start events signed chain) labels) ∧
    (runMeets (OutboxState.step H U signer order) Alone (.start events signed chain) labels →
      Always (OutboxState.step H U signer order) ExactlyOnce (.start events signed chain) labels) ∧
    ∀ drain s t later,
      ((s.drains drain).running = true → ∃ label, label.byCall drain = true ∧
        (OutboxState.step H U signer order s label).isSome = true) ∧
      ((∀ label ∈ later, label.renews drain = false) →
        runLabels (OutboxState.step H U signer order) s later = some t →
        later.countP (OutboxLabel.byCall drain) ≤ (s.drains drain).stepsLeft s.db.rows) := by
  have hexactly : Always (OutboxState.step H U signer order) ExactlyOnce (.start events signed chain)
      labels ↔ runMeets (OutboxState.step H U signer order) NotOvertaken
        (.start events signed chain) labels :=
    always_exactlyOnce_iff (consistent_start events signed chain)
  refine ⟨hexactly, fun halone => ?_, fun drain s t later => ⟨exists_byCall, countP_byCall_le⟩⟩
  exact hexactly.mpr (runMeets_notOvertaken (soleHolder_start events signed chain) halone)

/-- A transaction without faults. -/
def plainAttempt (second : Fin 60) : RowAttempt :=
  ⟨halfPastNine second, halfPastNine second, halfPastNine second, none, none, true⟩

/-- The row that a run has recorded. -/
def startedCall (second : Fin 60) : OutboxCall :=
  ⟨"system", "assessment.started", "assessment", "asm-a", [], halfPastNine second⟩

/-- The worker thread and the last flush drain the outbox at once. -/
def overlappingDrains (recorded first second : Fin 60) : List OutboxLabel :=
  [.record 0 (startedCall recorded), .call 0, .call 1, .list 0, .list 1, .read 0, .read 1,
    .finish 0 (plainAttempt first), .finish 1 (plainAttempt second)]

/-- **Both drains have read the row as pending**, and both deliver it: each table has two events of
it. -/
theorem row_delivered_twice :
    ¬Always (OutboxState.step codeDigest .ascii plainSigner stableOrder) ExactlyOnce
      (.start [] [] {}) (overlappingDrains 0 1 2) := by
  intro h
  have hrun : (runLabels (OutboxState.step codeDigest .ascii plainSigner stableOrder)
      (.start [] [] {}) (overlappingDrains 0 1 2)).isSome = true := rfl
  obtain ⟨t, ht⟩ := Option.isSome_iff_exists.mp hrun
  have hevents : (madeOf 1 t.db.events).length = 2 :=
    eq_of_runLabels (fun s => (madeOf 1 s.db.events).length) ht rfl
  have hrow : (t.db.rows.get? 1).isSome = true :=
    eq_of_runLabels (fun s => (s.db.rows.get? 1).isSome) ht rfl
  obtain ⟨row, hrow⟩ := Option.isSome_iff_exists.mp hrow
  rcases h (overlappingDrains 0 1 2) [] t rfl ht 1 row hrow with ⟨-, _, _, hone, -⟩ | ⟨-, hnone, -⟩
  · rw [hone] at hevents
    cases hevents
  · rw [hnone] at hevents
    cases hevents

end SecOpent
