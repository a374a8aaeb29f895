import Mathlib.Data.List.Perm.Subperm
import SecOpent.Audit.Chain
import SecOpent.Transition.Conditions

/-!
# The ids of audit events

`AuditChain.record` gives an event the number after the counter, and a reload sets the counter to the
number of events that were loaded. A record that raises has moved the counter, and an event whose
session was rolled back, or whose store failed, is not loaded: then an event that is loaded may have a
number above the counter, and its id is given again.

## Main definitions

* `eventId`: the id of the event with a number
* `DistinctIds`: the ids in the chain are pairwise distinct
* `AuditStore.GivesNewId`: the condition on a record
* `AuditStore.NoGap`: the condition on a reload under which no record gives an id again

## Main results

* `rows_step`, `rows_subperm`: every stored or pending row is an event of the chain, once
* `ids_distinct_iff`: the ids are always distinct exactly if every record gives a new one; they are if
  the events that are reloaded are numbered without a gap
-/

namespace SecOpent

open Python Transition

/-- The id of the event with this number. -/
def eventId (n : ℕ) : String := "evt-" ++ toString n

theorem eventId_inj {m n : ℕ} (h : eventId m = eventId n) : m = n := by
  have htext : toString m = toString n := (String.append_right_inj _).mp h
  have hdigits := congrArg String.toList htext
  exact toDigits_ten_inj (by simpa [toString, Nat.repr] using hdigits)

/-- The ids of the events in the chain. -/
def AuditChain.ids (chain : AuditChain) : List String := chain.events.map fun signed => signed.event.id

/-- All event ids in the chain are pairwise distinct. -/
def DistinctIds (store : AuditStore) : Prop := store.chain.ids.Nodup

/-! ## Records -/

section Record

variable {H : Sha256} {U : Unicode} {signer : AuditSigner} {chain chain' : AuditChain}
  {call : ChainCall} {signed : SignedAuditEvent}

/-- The call is recorded: an event is built and signed. -/
def AuditChain.Records (H : Sha256) (U : Unicode) (signer : AuditSigner) (chain : AuditChain)
    (call : ChainCall) : Prop :=
  ∃ chain' signed, chain.record H U signer call = (chain', .ok signed)

/-- A recorded event comes last, with the number after the counter. -/
theorem AuditChain.numbered_of_record (h : chain.record H U signer call = (chain', .ok signed)) :
    chain'.events = chain.events ++ [signed] ∧ signed.event.id = eventId (chain.counter + 1) ∧
      chain'.counter = chain.counter + 1 := by
  obtain ⟨hcreate, -, rfl⟩ := AuditChain.record_ok h
  obtain ⟨-, _, hevent⟩ := AuditEvent.create_ok hcreate
  refine ⟨rfl, ?_, rfl⟩
  rw [hevent]
  rfl

end Record

/-- The step is a call of `record`. -/
def AuditLabel.records : AuditLabel → Bool
  | .record .. | .own .. => true
  | _ => false

namespace AuditStore

/-- The condition on a record: if the event is built, none in the chain has the number after the
counter. -/
def GivesNewId (H : Sha256) (U : Unicode) (signer : AuditSigner) (store : AuditStore) :
    AuditLabel → Prop
  | .record index call => index < store.sessions.length → store.chain.Records H U signer call →
      eventId (store.chain.counter + 1) ∉ store.chain.ids
  | .own call _ => store.chain.Records H U signer call →
      eventId (store.chain.counter + 1) ∉ store.chain.ids
  | _ => True

/-- The condition on a reload: no stored event has a number above the number of stored events. -/
def NoGap (store : AuditStore) : AuditLabel → Prop
  | .restart => ∀ row ∈ store.committed, ∃ n ≤ store.committed.length, row.2.event.id = eventId n
  | _ => True

/-- The stored rows and those of the open sessions. -/
def rows (store : AuditStore) : List SignedAuditEvent :=
  store.committed.map Prod.snd ++ store.sessions.flatMap AuditSession.pending

/-! ## Rows -/

variable {H : Sha256} {U : Unicode} {signer : AuditSigner} {store store' : AuditStore}

/-- The pending rows after one session was replaced. -/
theorem flatMap_pending_set {sessions : List AuditSession} {index : ℕ} {session : AuditSession}
    (new : AuditSession) (hsession : sessions[index]? = some session) :
    ∃ others, (sessions.flatMap AuditSession.pending).Perm (session.pending ++ others) ∧
      ((sessions.set index new).flatMap AuditSession.pending).Perm (new.pending ++ others) := by
  obtain ⟨hlt, hget⟩ := List.getElem?_eq_some_iff.mp hsession
  refine ⟨(sessions.eraseIdx index).flatMap AuditSession.pending, ?_, ?_⟩
  · have hperm := (List.getElem_cons_eraseIdx_perm hlt).symm.flatMap_right AuditSession.pending
    rwa [hget] at hperm
  · exact (List.set_perm_cons_eraseIdx hlt new).flatMap_right AuditSession.pending

/-- The stored and pending rows after a step, against those before it: they are the same, or fewer, or
the recorded event is added. -/
theorem rows_step {label : AuditLabel} (hstep : store.step H U signer label = some store') :
    (store'.chain.events = store.chain.events ∧ store'.rows.Subperm store.rows) ∨
      (label.records = true ∧ ∃ signed, store'.chain.events = store.chain.events ++ [signed] ∧
        store'.rows.Subperm (store.rows ++ [signed])) ∨
      (store'.chain.events.Perm store'.rows ∧ store'.rows.Subperm store.rows) := by
  cases stepped_of_step hstep with
  | openSession =>
    refine .inl ⟨rfl, List.Perm.subperm ?_⟩
    simp [rows, AuditSession.pending]
  | recordRaises _ hrecord =>
    obtain rfl := AuditChain.record_error hrecord
    exact .inl ⟨rfl, List.Subperm.refl _⟩
  | @recorded index call session chain signed hsession hrecord =>
    refine .inr (.inl ⟨rfl, signed, (AuditChain.numbered_of_record hrecord).1, List.Perm.subperm ?_⟩)
    obtain ⟨others, hbefore, hafter⟩ := flatMap_pending_set
      { session with added := session.added ++ [signed] } hsession
    -- The event is the last row of its session.
    have hnew : ({ session with added := session.added ++ [signed] } : AuditSession).pending =
        session.pending ++ [signed] := by simp [AuditSession.pending]
    rw [hnew] at hafter
    refine ((hafter.append_left _).trans ?_).trans
      ((hbefore.append_left (store.committed.map Prod.snd)).append_right [signed]).symm
    rw [List.append_assoc, List.append_assoc, List.append_assoc]
    exact ((List.perm_append_comm).append_left _).append_left _
  | ownRaises hrecord =>
    obtain rfl := AuditChain.record_error hrecord
    exact .inl ⟨rfl, List.Subperm.refl _⟩
  | @ownStored call chain signed hrecord =>
    have hevents := (AuditChain.numbered_of_record hrecord).1
    refine .inr (.inl ⟨rfl, signed, hevents, List.Perm.subperm ?_⟩)
    simp only [rows, List.map_append, List.map_singleton, List.append_assoc]
    exact List.perm_append_comm.append_left _
  | @ownLost call chain signed hrecord =>
    have hevents := (AuditChain.numbered_of_record hrecord).1
    exact .inr (.inl ⟨rfl, signed, hevents, (List.sublist_append_left _ _).subperm⟩)
  | @flush index session hsession =>
    obtain ⟨others, hbefore, hafter⟩ :=
      flatMap_pending_set (session.flush store.nextSeq) hsession
    rw [AuditSession.pending_flush] at hafter
    exact .inl ⟨rfl, ((hafter.trans hbefore.symm).append_left _).subperm⟩
  | @commit index session hsession =>
    obtain ⟨others, hbefore, hafter⟩ := flatMap_pending_set {} hsession
    refine .inl ⟨rfl, List.Perm.subperm ?_⟩
    -- The rows of the session are now stored.
    have hflushed : (session.flush store.nextSeq).flushed.map Prod.snd = session.pending := by
      rw [← AuditSession.pending_flush store.nextSeq]
      simp [AuditSession.pending, AuditSession.flush]
    show ((store.committed ++ (session.flush store.nextSeq).flushed).map Prod.snd ++ _).Perm _
    rw [List.map_append, hflushed, List.append_assoc]
    exact ((hafter.append_left _).trans hbefore.symm).append_left _
  | @rollback index session hsession =>
    obtain ⟨others, hbefore, hafter⟩ := flatMap_pending_set {} hsession
    have hfewer : others.Subperm (session.pending ++ others) :=
      (List.sublist_append_right _ _).subperm
    refine .inl ⟨rfl, ?_⟩
    exact (List.Subperm.refl _).append ((hafter.subperm.trans hfewer).trans hbefore.symm.subperm)
  | restart =>
    have hloaded : store.loadAll.Perm (store.committed.map Prod.snd) :=
      (List.perm_insertionSort SeqLe store.committed).map Prod.snd
    refine .inr (.inr ⟨?_, ?_⟩)
    · simpa [rows, AuditChain.load] using hloaded
    · simpa [rows] using (List.sublist_append_left _ _).subperm

/-- **Every stored or pending row is an event of the chain, once.** -/
theorem rows_subperm {label : AuditLabel} (h : store.rows.Subperm store.chain.events)
    (hstep : store.step H U signer label = some store') :
    store'.rows.Subperm store'.chain.events := by
  rcases rows_step hstep with ⟨hevents, hrows⟩ | ⟨-, signed, hevents, hrows⟩ | ⟨hevents, -⟩
  · rw [hevents]
    exact hrows.trans h
  · rw [hevents]
    exact hrows.trans (h.append (List.Subperm.refl _))
  · exact hevents.symm.subperm

/-! ## Ids -/

theorem nodup_map_of_subperm {α β : Type} {f : α → β} {l l' : List α} (h : l.Subperm l')
    (hnodup : (l'.map f).Nodup) : (l.map f).Nodup := by
  obtain ⟨l₀, hperm, hsublist⟩ := h
  exact ((hperm.map f).nodup_iff).mp (hnodup.sublist (hsublist.map f))

/-- **One step keeps the ids distinct** exactly if it gives a new one. -/
theorem distinctIds_step_iff {label : AuditLabel} (hrows : store.rows.Subperm store.chain.events)
    (hdistinct : DistinctIds store) :
    (∀ store', store.step H U signer label = some store' → DistinctIds store') ↔
      store.GivesNewId H U signer label := by
  -- A recorded event comes last, with the number after the counter.
  have hrecorded : ∀ {call chain signed}, store.chain.record H U signer call = (chain, .ok signed) →
      ((chain.ids.Nodup) ↔ eventId (store.chain.counter + 1) ∉ store.chain.ids) := by
    intro call chain signed hrecord
    obtain ⟨hevents, hid, -⟩ := AuditChain.numbered_of_record hrecord
    rw [AuditChain.ids, hevents, List.map_append, List.map_singleton, hid, ← AuditChain.ids,
      List.nodup_append_comm, List.singleton_append, List.nodup_cons]
    exact and_iff_left hdistinct
  cases label with
  | record index call =>
    constructor
    · intro h hlt
      rintro ⟨chain, signed, hrecord⟩
      refine (hrecorded hrecord).mp (h { store with
        chain := chain
        sessions := store.sessions.set index
          { store.sessions[index] with added := store.sessions[index].added ++ [signed] } } ?_)
      simp [step, List.getElem?_eq_getElem hlt, hrecord]
    · intro hnew store' hstep
      cases stepped_of_step hstep with
      | recordRaises _ hrecord =>
        rw [DistinctIds, AuditChain.ids, AuditChain.record_error hrecord]
        exact hdistinct
      | recorded hsession hrecord =>
        have hlt := (List.getElem?_eq_some_iff.mp hsession).1
        exact (hrecorded hrecord).mpr (hnew hlt ⟨_, _, hrecord⟩)
  | own call stored =>
    constructor
    · rintro h ⟨chain, signed, hrecord⟩
      have hstep : ∃ store', store.step H U signer (.own call stored) = some store' ∧
          store'.chain = chain := by
        cases stored <;> simp [step, hrecord]
      obtain ⟨store', hstep, rfl⟩ := hstep
      exact (hrecorded hrecord).mp (h store' hstep)
    · intro hnew store' hstep
      cases stepped_of_step hstep with
      | ownRaises hrecord =>
        rw [DistinctIds, AuditChain.ids, AuditChain.record_error hrecord]
        exact hdistinct
      | ownStored hrecord => exact (hrecorded hrecord).mpr (hnew ⟨_, _, hrecord⟩)
      | ownLost hrecord => exact (hrecorded hrecord).mpr (hnew ⟨_, _, hrecord⟩)
  | openSession | flush index | commit index | rollback index | restart =>
    -- Nothing is recorded, and a reload brings back some of the events.
    refine iff_of_true (fun store' hstep => ?_) trivial
    rcases rows_step hstep with ⟨hevents, -⟩ | ⟨hrecords, -⟩ | ⟨hevents, hfewer⟩
    · rw [DistinctIds, AuditChain.ids, hevents]
      exact hdistinct
    · cases hrecords
    · -- What is loaded was in the chain before.
      exact nodup_map_of_subperm ((hevents.subperm.trans hfewer).trans hrows) hdistinct

/-- Every event in the chain has a number up to the counter. -/
def Counted (store : AuditStore) : Prop :=
  ∀ signed ∈ store.chain.events, ∃ n ≤ store.chain.counter, signed.event.id = eventId n

/-- A record numbers its event with the new counter. -/
theorem counted_of_record {call : ChainCall} {chain : AuditChain}
    {result : Except AuditError SignedAuditEvent} (h : store.Counted)
    (hrecord : store.chain.record H U signer call = (chain, result)) :
    ∀ signed ∈ chain.events, ∃ n ≤ chain.counter, signed.event.id = eventId n := by
  have hold : ∀ signed ∈ store.chain.events, ∃ n ≤ store.chain.counter + 1,
      signed.event.id = eventId n := by
    intro signed hsigned
    obtain ⟨n, hn, hid⟩ := h signed hsigned
    exact ⟨n, by omega, hid⟩
  cases result with
  | error error =>
    rw [AuditChain.record_error hrecord]
    exact hold
  | ok recorded =>
    obtain ⟨hevents, hid, hcounter⟩ := AuditChain.numbered_of_record hrecord
    rw [hevents, hcounter]
    exact List.forall_mem_append.mpr ⟨hold, List.forall_mem_singleton.mpr ⟨_, le_rfl, hid⟩⟩

/-- Reloads without a gap keep it so. -/
theorem Counted.step {label : AuditLabel} (h : store.Counted) (hgap : store.NoGap label)
    (hstep : store.step H U signer label = some store') : store'.Counted := by
  cases stepped_of_step hstep with
  | openSession | flush | commit | rollback => exact h
  | recordRaises _ hrecord | recorded _ hrecord => exact counted_of_record h hrecord
  | ownRaises hrecord | ownStored hrecord | ownLost hrecord => exact counted_of_record h hrecord
  | restart =>
    intro signed hsigned
    obtain ⟨row, hrow, rfl⟩ := List.mem_map.mp hsigned
    -- The counter is the number of the rows.
    have hlength : store.loadAll.length = store.committed.length := by
      rw [loadAll, List.length_map, (List.perm_insertionSort SeqLe _).length_eq]
    show ∃ n ≤ store.loadAll.length, _
    rw [hlength]
    exact hgap row ((List.perm_insertionSort SeqLe _).mem_iff.mp hrow)

/-- With every number up to the counter, the next one is new. -/
theorem Counted.givesNewId {label : AuditLabel} (h : store.Counted) :
    store.GivesNewId H U signer label := by
  have hnew : eventId (store.chain.counter + 1) ∉ store.chain.ids := by
    intro hmem
    obtain ⟨signed, hsigned, hid⟩ := List.mem_map.mp hmem
    obtain ⟨n, hn, hnumber⟩ := h signed hsigned
    have := eventId_inj (hnumber.symm.trans hid)
    omega
  cases label with
  | record index call => exact fun _ _ => hnew
  | own call stored => exact fun _ => hnew
  | openSession | flush index | commit index | rollback index | restart => trivial

end AuditStore

/-- **When all event ids in the chain are always distinct**: exactly in the runs in which every event
gets a number that no event in the chain has; and so in the runs in which the events that are reloaded
are always numbered without a gap. -/
theorem ids_distinct_iff (H : Sha256) (U : Unicode) (signer : AuditSigner)
    (labels : List AuditLabel) :
    (Always (AuditStore.step H U signer) DistinctIds {} labels ↔
      runMeets (AuditStore.step H U signer) (AuditStore.GivesNewId H U signer) {} labels) ∧
    (runMeets (AuditStore.step H U signer) AuditStore.NoGap {} labels →
      runMeets (AuditStore.step H U signer) (AuditStore.GivesNewId H U signer) {} labels) := by
  constructor
  · exact always_iff (fun store => store.rows.Subperm store.chain.events)
      (fun _ _ _ hrows hstep => AuditStore.rows_subperm hrows hstep)
      (fun _ _ hrows hdistinct => AuditStore.distinctIds_step_iff hrows hdistinct)
      (List.Subperm.refl _) List.nodup_nil
  · exact runMeets_imp AuditStore.Counted (fun _ _ hcounted _ => hcounted.givesNewId)
      (fun _ _ _ hcounted hgap hstep => hcounted.step hgap hstep) (by simp [AuditStore.Counted])

/-- A call whose payload names a secret. -/
def secretCall (second : Fin 60) : ChainCall :=
  { chainCallAt second with payload := [("password", .text "hunter2")] }

/-- The first call is refused, and has moved the counter: the event of the second one gets the number 2,
and after a reload so does the event of the third. -/
theorem ids_repeated :
    ∃ store, runLabels (AuditStore.step codeDigest .ascii plainSigner) {}
        [.own (secretCall 1) true, .own (chainCallAt 2) true, .restart, .own (chainCallAt 3) true] =
          some store ∧
      store.chain.ids = ["evt-2", "evt-2"] ∧ ¬DistinctIds store := by
  refine ⟨_, rfl, ?_, ?_⟩
  · decide +kernel
  · rw [DistinctIds]
    decide +kernel

end SecOpent
