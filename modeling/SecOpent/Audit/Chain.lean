import SecOpent.Audit.Events
import SecOpent.Python.Dict
import SecOpent.Transition.Runs

/-!
# The signed audit chain

`application/audit_chain.py` over `SqlAlchemySignedAuditEventStore`: `record` appends an event to the
chain in memory and hands it to a session, whose caller commits or rolls back later. A row gets its
sequence number when its session is flushed, and a restart rebuilds the chain from the committed rows
in the order of these numbers.

The reloaded chain is whole in the runs in which every event in memory is committed, or pending in
the session at hand, whenever another one is recorded.

## Main definitions

* `AuditSigner`, `SignedAuditEvent`, `AuditChain`: the chain in memory
* `AuditSession`, `AuditStore`: uncommitted rows by session, and the table
* `AuditStore.step`: `record`, `flush`, `commit`, `rollback` and a restart
* `AuditStore.Stepped`: what each step leaves
* `Continues`: the condition on one `record`, read in the state before it

## Main results

* `AuditStore.stepped_of_step`: the steps leave this and nothing else
* `InStep.step`: what is committed and what is pending are one chain
* `reloaded_verifies`: the reloaded chain passes `verify`
-/

namespace SecOpent

open Python HashChain Transition

/-! ## The chain in memory -/

/-- `AuditSigner`; a signature verifies for the text it was made for. -/
structure AuditSigner where
  sign : Str → Str
  verify : Str → Str → Bool
  verify_sign : ∀ message, verify message (sign message) = true

/-- `SignedAuditEvent`. -/
structure SignedAuditEvent where
  event : AuditEvent
  signature : Str

/-- `AuditChain`, without the redactions, which `record` and `verify` do not read. -/
structure AuditChain where
  events : List SignedAuditEvent := []
  tail : Str := genesisHash
  counter : ℕ := 0

/-- The arguments of `AuditChain.record`, and the reading of the clock. -/
structure ChainCall where
  actor : String
  action : String
  resourceType : String
  resourceId : String
  payload : List (String × Json)
  permitNonce : Option String := none
  now : DateTime

namespace AuditChain

/-- `body["permit_nonce"] = permit_nonce`. -/
def payloadOf (call : ChainCall) : List (String × Json) :=
  match call.permitNonce with
  | none => call.payload
  | some nonce => Dict.assign "permit_nonce" (.text nonce) call.payload

/-- `record`: the chain afterwards, and the event or the error. The counter moves in any case. -/
def record (H : Sha256) (U : Unicode) (signer : AuditSigner) (chain : AuditChain)
    (call : ChainCall) : AuditChain × Except AuditError SignedAuditEvent :=
  let counter := chain.counter + 1
  match AuditEvent.create H U ("evt-" ++ toString counter) call.actor call.action
      call.resourceType call.resourceId (payloadOf call) chain.tail call.now with
  | .error error => ({ chain with counter }, .error error)
  | .ok event =>
    let signed : SignedAuditEvent := ⟨event, signer.sign event.eventHash⟩
    (⟨chain.events ++ [signed], removePrefix event.eventHash sha256Tag, counter⟩, .ok signed)

/-- `verify`. -/
def verify (H : Sha256) (signer : AuditSigner) (chain : AuditChain) : Bool :=
  AuditEvent.verifyChain H (chain.events.map SignedAuditEvent.event) &&
    chain.events.all fun signed => signer.verify signed.event.eventHash signed.signature

/-- `_load_from_store`. -/
def load (loaded : List SignedAuditEvent) : AuditChain where
  events := loaded
  tail := match loaded.getLast? with
    | none => genesisHash
    | some signed => removePrefix signed.event.eventHash sha256Tag
  counter := loaded.length

/-- Every event is sealed, signed and linked to the one before it, and the tail is the hash of the
last one. -/
structure WellFormed (H : Sha256) (signer : AuditSigner) (events : List SignedAuditEvent) : Prop where
  linked : Linked (fun s : SignedAuditEvent => s.event.digest H) (fun s => s.event.previousHash)
    genesisHash events
  sealed : ∀ signed ∈ events, signed.event.Sealed H
  signed : ∀ signed ∈ events, signer.verify signed.event.eventHash signed.signature = true

/-- The hash that the next event refers to. -/
def tailOf (H : Sha256) (events : List SignedAuditEvent) : Str :=
  HashChain.tail (fun s : SignedAuditEvent => s.event.digest H) genesisHash events

end AuditChain

/-! ## The table and its sessions -/

/-- Rows that a session has added, and those among them that were flushed and so are numbered. -/
structure AuditSession where
  added : List SignedAuditEvent := []
  flushed : List (ℕ × SignedAuditEvent) := []

/-- The rows of a session, the flushed ones first. -/
def AuditSession.pending (session : AuditSession) : List SignedAuditEvent :=
  session.flushed.map Prod.snd ++ session.added

/-- Rows with their numbers, from `next` on. -/
def numbered : ℕ → List SignedAuditEvent → List (ℕ × SignedAuditEvent)
  | _, [] => []
  | next, row :: rows => (next, row) :: numbered (next + 1) rows

/-- `session.flush()`. -/
def AuditSession.flush (next : ℕ) (session : AuditSession) : AuditSession :=
  ⟨[], session.flushed ++ numbered next session.added⟩

/-- The chain in memory, the committed rows, the open sessions, and the next sequence number. -/
structure AuditStore where
  chain : AuditChain := {}
  committed : List (ℕ × SignedAuditEvent) := []
  sessions : List AuditSession := []
  nextSeq : ℕ := 1

/-- The order of sequence numbers. -/
def SeqLe (a b : ℕ × SignedAuditEvent) : Prop := a.1 ≤ b.1

instance : DecidableRel SeqLe := fun a b => inferInstanceAs (Decidable (a.1 ≤ b.1))

instance : Std.Total SeqLe := ⟨fun a b => Nat.le_total a.1 b.1⟩

instance : IsTrans (ℕ × SignedAuditEvent) SeqLe := ⟨fun _ _ _ => Nat.le_trans⟩

/-- The steps of the chain's callers. `own` is `record` without a session: the store commits in a
session of its own, or fails to. -/
inductive AuditLabel
  | openSession
  | record (index : ℕ) (call : ChainCall)
  | own (call : ChainCall) (stored : Bool)
  | flush (index : ℕ)
  | commit (index : ℕ)
  | rollback (index : ℕ)
  | restart

namespace AuditStore

/-- `load_all`. -/
def loadAll (store : AuditStore) : List SignedAuditEvent :=
  (store.committed.insertionSort SeqLe).map Prod.snd

/-- One step. -/
def step (H : Sha256) (U : Unicode) (signer : AuditSigner) (store : AuditStore) :
    AuditLabel → Option AuditStore
  | .openSession => some { store with sessions := store.sessions ++ [{}] }
  | .record index call => do
    let session ← store.sessions[index]?
    match store.chain.record H U signer call with
    | (chain, .error _) => some { store with chain }
    | (chain, .ok signed) =>
      some { store with
        chain
        sessions := store.sessions.set index { session with added := session.added ++ [signed] } }
  | .own call stored =>
    match store.chain.record H U signer call with
    | (chain, .error _) => some { store with chain }
    | (chain, .ok signed) =>
      -- The event is in memory already when the store fails.
      if stored then
        some { store with
          chain
          committed := store.committed ++ [(store.nextSeq, signed)]
          nextSeq := store.nextSeq + 1 }
      else some { store with chain }
  | .flush index => do
    let session ← store.sessions[index]?
    some { store with
      sessions := store.sessions.set index (session.flush store.nextSeq)
      nextSeq := store.nextSeq + session.added.length }
  | .commit index => do
    let session ← store.sessions[index]?
    some { store with
      committed := store.committed ++ (session.flush store.nextSeq).flushed
      sessions := store.sessions.set index {}
      nextSeq := store.nextSeq + session.added.length }
  | .rollback index => do
    let _ ← store.sessions[index]?
    some { store with sessions := store.sessions.set index {} }
  -- Memory is rebuilt from the committed rows, and open sessions are gone.
  | .restart => some { store with chain := .load store.loadAll, sessions := [] }

/-- What each step leaves. -/
inductive Stepped (H : Sha256) (U : Unicode) (signer : AuditSigner) (store : AuditStore) :
    AuditLabel → AuditStore → Prop
  | openSession :
    Stepped H U signer store .openSession { store with sessions := store.sessions ++ [{}] }
  | recordRaises {index : ℕ} {call : ChainCall} {session : AuditSession} {chain : AuditChain}
      {error : AuditError} (hsession : store.sessions[index]? = some session)
      (hrecord : store.chain.record H U signer call = (chain, .error error)) :
    Stepped H U signer store (.record index call) { store with chain }
  | recorded {index : ℕ} {call : ChainCall} {session : AuditSession} {chain : AuditChain}
      {signed : SignedAuditEvent} (hsession : store.sessions[index]? = some session)
      (hrecord : store.chain.record H U signer call = (chain, .ok signed)) :
    Stepped H U signer store (.record index call)
      { store with
        chain
        sessions := store.sessions.set index { session with added := session.added ++ [signed] } }
  | ownRaises {call : ChainCall} {stored : Bool} {chain : AuditChain} {error : AuditError}
      (hrecord : store.chain.record H U signer call = (chain, .error error)) :
    Stepped H U signer store (.own call stored) { store with chain }
  | ownStored {call : ChainCall} {chain : AuditChain} {signed : SignedAuditEvent}
      (hrecord : store.chain.record H U signer call = (chain, .ok signed)) :
    Stepped H U signer store (.own call true)
      { store with
        chain
        committed := store.committed ++ [(store.nextSeq, signed)]
        nextSeq := store.nextSeq + 1 }
  | ownLost {call : ChainCall} {chain : AuditChain} {signed : SignedAuditEvent}
      (hrecord : store.chain.record H U signer call = (chain, .ok signed)) :
    Stepped H U signer store (.own call false) { store with chain }
  | flush {index : ℕ} {session : AuditSession} (hsession : store.sessions[index]? = some session) :
    Stepped H U signer store (.flush index)
      { store with
        sessions := store.sessions.set index (session.flush store.nextSeq)
        nextSeq := store.nextSeq + session.added.length }
  | commit {index : ℕ} {session : AuditSession} (hsession : store.sessions[index]? = some session) :
    Stepped H U signer store (.commit index)
      { store with
        committed := store.committed ++ (session.flush store.nextSeq).flushed
        sessions := store.sessions.set index {}
        nextSeq := store.nextSeq + session.added.length }
  | rollback {index : ℕ} {session : AuditSession} (hsession : store.sessions[index]? = some session) :
    Stepped H U signer store (.rollback index)
      { store with sessions := store.sessions.set index {} }
  | restart :
    Stepped H U signer store .restart { store with chain := .load store.loadAll, sessions := [] }

/-- The steps and nothing else. -/
theorem stepped_of_step {H : Sha256} {U : Unicode} {signer : AuditSigner} {store store' : AuditStore}
    {label : AuditLabel} (hstep : store.step H U signer label = some store') :
    Stepped H U signer store label store' := by
  cases label with
  | openSession =>
    cases hstep
    exact .openSession
  | record index call =>
    simp only [step, Option.bind_eq_bind, Option.bind_eq_some_iff] at hstep
    obtain ⟨session, hsession, hstep⟩ := hstep
    split at hstep
    next hrecord =>
      cases hstep
      exact .recordRaises hsession hrecord
    next hrecord =>
      cases hstep
      exact .recorded hsession hrecord
  | own call stored =>
    simp only [step] at hstep
    split at hstep
    next hrecord =>
      cases hstep
      exact .ownRaises hrecord
    next hrecord =>
      cases stored with
      | true =>
        cases hstep
        exact .ownStored hrecord
      | false =>
        cases hstep
        exact .ownLost hrecord
  | flush index =>
    obtain ⟨session, hsession, hstep⟩ := Option.bind_eq_some_iff.mp hstep
    cases hstep
    exact .flush hsession
  | commit index =>
    obtain ⟨session, hsession, hstep⟩ := Option.bind_eq_some_iff.mp hstep
    cases hstep
    exact .commit hsession
  | rollback index =>
    obtain ⟨session, hsession, hstep⟩ := Option.bind_eq_some_iff.mp hstep
    cases hstep
    exact .rollback hsession
  | restart =>
    cases hstep
    exact .restart

/-- The condition on a step: an event is recorded when every event in memory is committed, or
pending in the session that the new event joins. -/
def Continues (store : AuditStore) : AuditLabel → Prop
  | .record index _ => ∀ session, store.sessions[index]? = some session →
      store.chain.events = store.loadAll ++ session.pending
  | .own _ _ => store.chain.events = store.loadAll
  | _ => True

end AuditStore

/-! ## Well-formed chains -/

namespace AuditChain

variable {H : Sha256} {U : Unicode} {signer : AuditSigner} {events : List SignedAuditEvent}
  {chain chain' : AuditChain} {signed : SignedAuditEvent} {call : ChainCall}

theorem wellFormed_nil : WellFormed H signer [] := ⟨trivial, by simp, by simp⟩

/-- A record that returns has created its event on the tail, and added it. -/
theorem record_ok (hrecord : chain.record H U signer call = (chain', .ok signed)) :
    AuditEvent.create H U ("evt-" ++ toString (chain.counter + 1)) call.actor call.action
        call.resourceType call.resourceId (payloadOf call) chain.tail call.now = .ok signed.event ∧
      signed.signature = signer.sign signed.event.eventHash ∧
      chain' = ⟨chain.events ++ [signed], removePrefix signed.event.eventHash sha256Tag,
        chain.counter + 1⟩ := by
  unfold AuditChain.record at hrecord
  dsimp only at hrecord
  split at hrecord
  · cases hrecord
  next event hcreate =>
    cases hrecord
    exact ⟨hcreate, rfl, rfl⟩

/-- A record that raises moves the counter only. -/
theorem record_error {error : AuditError}
    (hrecord : chain.record H U signer call = (chain', .error error)) :
    chain' = { chain with counter := chain.counter + 1 } := by
  unfold AuditChain.record at hrecord
  dsimp only at hrecord
  split at hrecord
  · cases hrecord
    rfl
  · cases hrecord

/-- An event that was recorded on a well-formed chain continues it. -/
theorem WellFormed.record (h : WellFormed H signer chain.events)
    (htail : chain.tail = tailOf H chain.events)
    (hrecord : chain.record H U signer call = (chain', .ok signed)) :
    WellFormed H signer chain'.events ∧ chain'.tail = tailOf H chain'.events ∧
      chain'.events = chain.events ++ [signed] := by
  obtain ⟨hcreate, hsignature, rfl⟩ := record_ok hrecord
  obtain ⟨hsealed, _, hevent⟩ := AuditEvent.create_ok hcreate
  have hprevious : signed.event.previousHash = chain.tail := by rw [hevent]
  refine ⟨⟨?_, ?_, ?_⟩, ?_, rfl⟩
  · exact linked_concat.mpr ⟨h.linked, hprevious.trans htail⟩
  · intro found hfound
    rcases List.mem_append.mp hfound with hfound | hfound
    · exact h.sealed found hfound
    · rw [List.mem_singleton.mp hfound]
      exact hsealed
  · intro found hfound
    rcases List.mem_append.mp hfound with hfound | hfound
    · exact h.signed found hfound
    · rw [List.mem_singleton.mp hfound, hsignature]
      exact signer.verify_sign _
  · rw [tailOf, tail_concat,
      show signed.event.eventHash = sha256Tag ++ signed.event.digest H from hsealed,
      removePrefix_tag]

theorem WellFormed.chained (h : WellFormed H signer events) :
    AuditEvent.Chained H (events.map SignedAuditEvent.event) := by
  refine ⟨?_, ?_⟩
  · have hmap : ∀ (root : Str) (events : List SignedAuditEvent),
        Linked (fun s : SignedAuditEvent => s.event.digest H) (fun s => s.event.previousHash) root
          events → Linked (AuditEvent.digest H) AuditEvent.previousHash root
          (events.map SignedAuditEvent.event) := by
      intro root events
      induction events generalizing root with
      | nil => exact fun _ => trivial
      | cons signed events ih => exact fun h => ⟨h.1, ih _ h.2⟩
    exact hmap _ _ h.linked
  · intro event hevent
    obtain ⟨signed, hsigned, rfl⟩ := List.mem_map.mp hevent
    exact h.sealed signed hsigned

theorem WellFormed.verify_load (h : WellFormed H signer events) :
    (load events).verify H signer = true := by
  rw [verify, Bool.and_eq_true]
  exact ⟨AuditEvent.verifyChain_iff.mpr h.chained, List.all_eq_true.mpr h.signed⟩

theorem WellFormed.tail_load (h : WellFormed H signer events) :
    (load events).tail = tailOf H events := by
  rw [tailOf, HashChain.tail]
  cases hlast : events.getLast? with
  | none => simp [load, hlast]
  | some signed =>
    have hsealed : signed.event.eventHash = sha256Tag ++ signed.event.digest H :=
      h.sealed signed (List.mem_of_getLast? hlast)
    simp [load, hlast, hsealed]

end AuditChain

/-! ## Numbered rows -/

@[simp] theorem map_snd_numbered (next : ℕ) (rows : List SignedAuditEvent) :
    (numbered next rows).map Prod.snd = rows := by
  induction rows generalizing next with
  | nil => rfl
  | cons row rows ih => simp [numbered, ih]

theorem mem_numbered {next : ℕ} {rows : List SignedAuditEvent} {row : ℕ × SignedAuditEvent}
    (h : row ∈ numbered next rows) : next ≤ row.1 ∧ row.1 < next + rows.length := by
  induction rows generalizing next with
  | nil => cases h
  | cons first rows ih =>
    rcases List.mem_cons.mp h with rfl | h
    · simp
    · have := ih h
      simp only [List.length_cons]
      omega

theorem pairwise_numbered (next : ℕ) (rows : List SignedAuditEvent) :
    (numbered next rows).Pairwise fun a b => a.1 < b.1 := by
  induction rows generalizing next with
  | nil => exact .nil
  | cons row rows ih =>
    refine .cons ?_ (ih (next + 1))
    intro other hother
    have := mem_numbered hother
    omega

/-- The rows are numbered in order, below `next`. -/
def Numbered (next : ℕ) (rows : List (ℕ × SignedAuditEvent)) : Prop :=
  (rows.Pairwise fun a b => a.1 < b.1) ∧ ∀ row ∈ rows, row.1 < next

theorem Numbered.mono {next next' : ℕ} {rows : List (ℕ × SignedAuditEvent)} (h : Numbered next rows)
    (hle : next ≤ next') : Numbered next' rows :=
  ⟨h.1, fun row hrow => (h.2 row hrow).trans_le hle⟩

theorem Numbered.append {next : ℕ} {rows : List (ℕ × SignedAuditEvent)} (h : Numbered next rows)
    (new : List SignedAuditEvent) : Numbered (next + new.length) (rows ++ numbered next new) := by
  refine ⟨List.pairwise_append.mpr ⟨h.1, pairwise_numbered next new, ?_⟩, ?_⟩
  · intro row hrow other hother
    have := h.2 row hrow
    have := mem_numbered hother
    omega
  · intro row hrow
    rcases List.mem_append.mp hrow with hrow | hrow
    · have := h.2 row hrow
      omega
    · exact (mem_numbered hrow).2

/-- Rows that are numbered in order are loaded as they stand. -/
theorem Numbered.insertionSort_eq {next : ℕ} {rows : List (ℕ × SignedAuditEvent)}
    (h : Numbered next rows) : rows.insertionSort SeqLe = rows :=
  List.Pairwise.insertionSort_eq (h.1.imp fun hlt => Nat.le_of_lt hlt)

namespace AuditSession

variable {session : AuditSession}

@[simp] theorem pending_flush (next : ℕ) : (session.flush next).pending = session.pending := by
  simp [flush, pending]

theorem flushed_eq_nil (h : session.pending = []) : session.flushed = [] ∧ session.added = [] := by
  simpa [pending] using h

end AuditSession

/-! ## The invariant -/

/-- The committed rows are a chain, numbered in order; at most one session has pending rows, and they
continue the committed ones as the chain in memory does. -/
structure InStep (H : Sha256) (signer : AuditSigner) (store : AuditStore) : Prop where
  memory : AuditChain.WellFormed H signer store.chain.events
  tail : store.chain.tail = AuditChain.tailOf H store.chain.events
  rows : AuditChain.WellFormed H signer (store.committed.map Prod.snd)
  order : Numbered store.nextSeq store.committed
  flushed : ∀ session ∈ store.sessions, Numbered store.nextSeq (store.committed ++ session.flushed)
  pending : ∀ session ∈ store.sessions, session.pending ≠ [] →
    store.chain.events = store.committed.map Prod.snd ++ session.pending
  single : ∀ (i j : ℕ) (x y : AuditSession), store.sessions[i]? = some x →
    store.sessions[j]? = some y → i ≠ j → x.pending ≠ [] → y.pending = []

namespace InStep

variable {H : Sha256} {U : Unicode} {signer : AuditSigner} {store store' : AuditStore}

theorem init : InStep H signer {} where
  memory := AuditChain.wellFormed_nil
  tail := rfl
  rows := AuditChain.wellFormed_nil
  order := ⟨.nil, by simp⟩
  flushed session h := by simp at h
  pending session h := by simp at h
  single i j x y hi := by simp at hi

theorem loadAll_eq (h : InStep H signer store) :
    store.loadAll = store.committed.map Prod.snd := by
  rw [AuditStore.loadAll, h.order.insertionSort_eq]

/-- When memory is what is committed, no session has pending rows. -/
theorem pending_eq_nil (h : InStep H signer store)
    (hmemory : store.chain.events = store.committed.map Prod.snd) {session : AuditSession}
    (hsession : session ∈ store.sessions) : session.pending = [] := by
  by_contra hne
  have hpending := h.pending session hsession hne
  rw [hmemory] at hpending
  exact hne (List.self_eq_append_right.mp hpending)

/-- A session in which nothing is pending has flushed nothing. -/
theorem numbered_of_pending_nil {next : ℕ} {rows : List (ℕ × SignedAuditEvent)}
    (h : Numbered next rows) {session : AuditSession} (hnil : session.pending = []) :
    Numbered next (rows ++ session.flushed) := by
  rw [(AuditSession.flushed_eq_nil hnil).1, List.append_nil]
  exact h

/-- The sessions after one of them was replaced by a session that has pending rows only if the old
one had some. -/
theorem single_of_set (h : InStep H signer store) {index : ℕ} {new : AuditSession}
    (hnew : ∀ old, store.sessions[index]? = some old → new.pending ≠ [] → old.pending ≠ []) :
    ∀ (i j : ℕ) (x y : AuditSession), (store.sessions.set index new)[i]? = some x →
      (store.sessions.set index new)[j]? = some y → i ≠ j → x.pending ≠ [] → y.pending = [] := by
  have hold : ∀ {i : ℕ} {x : AuditSession}, (store.sessions.set index new)[i]? = some x →
      ∃ x₀, store.sessions[i]? = some x₀ ∧ (x.pending ≠ [] → x₀.pending ≠ []) := by
    intro i x hx
    rcases getElem?_set_cases hx with ⟨rfl, rfl⟩ | ⟨-, hx⟩
    · have hlt : i < store.sessions.length := by
        simpa using (List.getElem?_eq_some_iff.mp hx).1
      have hold := List.getElem?_eq_getElem hlt
      exact ⟨_, hold, hnew _ hold⟩
    · exact ⟨x, hx, id⟩
  intro i j x y hi hj hne hx
  obtain ⟨x₀, hx₀, hxpending⟩ := hold hi
  obtain ⟨y₀, hy₀, hypending⟩ := hold hj
  by_contra hy
  exact hypending hy (h.single i j x₀ y₀ hx₀ hy₀ hne (hxpending hx))

/-- A record that raises leaves the chain and the sessions in step. -/
theorem of_record_error (h : InStep H signer store) {call : ChainCall} {chain : AuditChain}
    {error : AuditError} (hrecord : store.chain.record H U signer call = (chain, .error error)) :
    InStep H signer { store with chain := chain } := by
  obtain rfl := AuditChain.record_error hrecord
  exact ⟨h.memory, h.tail, h.rows, h.order, h.flushed, h.pending, h.single⟩

/-- An event that is recorded in the session that everything pending is in. -/
theorem of_recorded (h : InStep H signer store) {index : ℕ} {call : ChainCall}
    (hcond : store.Continues (.record index call)) {session : AuditSession} {chain : AuditChain}
    {signed : SignedAuditEvent} (hsession : store.sessions[index]? = some session)
    (hrecord : store.chain.record H U signer call = (chain, .ok signed)) :
    InStep H signer
      { store with
        chain
        sessions := store.sessions.set index
          { session with added := session.added ++ [signed] } } := by
  have hmem := List.mem_of_getElem? hsession
  have hmemory := hcond session hsession
  rw [h.loadAll_eq] at hmemory
  -- The other sessions have nothing pending.
  have hothers : ∀ (j : ℕ) (y : AuditSession), store.sessions[j]? = some y → j ≠ index →
      y.pending = [] := by
    intro j y hy hne
    by_contra hypending
    have hpending := h.pending y (List.mem_of_getElem? hy) hypending
    rw [hmemory] at hpending
    have hsame := List.append_cancel_left hpending
    exact hypending (hsame ▸ h.single j index y session hy hsession hne hypending)
  obtain ⟨hwell, htail, hevents⟩ := h.memory.record h.tail hrecord
  refine ⟨hwell, htail, h.rows, h.order, ?_, ?_, ?_⟩
  · intro x hx
    rcases mem_set_cases hx with rfl | hx
    · exact h.flushed session hmem
    · exact h.flushed x hx
  · intro x hx hpending
    obtain ⟨i, hi⟩ := List.getElem?_of_mem hx
    rcases getElem?_set_cases hi with ⟨-, rfl⟩ | ⟨hne, hi⟩
    · -- The event is last in memory, and last in its session.
      rw [hevents, hmemory]
      simp [AuditSession.pending]
    · exact absurd (hothers i x hi hne) hpending
  · intro i j x y hi hj hne hx
    rcases getElem?_set_cases hj with ⟨rfl, rfl⟩ | ⟨hjne, hj⟩
    · rcases getElem?_set_cases hi with ⟨rfl, -⟩ | ⟨hine, hi⟩
      · exact absurd rfl hne
      · exact absurd (hothers i x hi hine) hx
    · exact hothers j y hj hjne

/-- Nothing is pending where an event is recorded without a session. -/
theorem pending_of_continues_own (h : InStep H signer store) {call : ChainCall} {stored : Bool}
    (hcond : store.Continues (.own call stored)) :
    store.chain.events = store.committed.map Prod.snd ∧
      ∀ session ∈ store.sessions, session.pending = [] := by
  have hmemory : store.chain.events = store.committed.map Prod.snd := by
    rw [← h.loadAll_eq]
    exact hcond
  exact ⟨hmemory, fun session hsession => h.pending_eq_nil hmemory hsession⟩

theorem of_flush (h : InStep H signer store) {index : ℕ} {session : AuditSession}
    (hsession : store.sessions[index]? = some session) :
    InStep H signer
      { store with
        sessions := store.sessions.set index (session.flush store.nextSeq)
        nextSeq := store.nextSeq + session.added.length } := by
  have hmem := List.mem_of_getElem? hsession
  refine ⟨h.memory, h.tail, h.rows, h.order.mono (by simp), ?_, ?_, ?_⟩
  · intro x hx
    rcases mem_set_cases hx with rfl | hx
    · show Numbered _ (store.committed ++ (session.flushed ++ numbered store.nextSeq session.added))
      rw [← List.append_assoc]
      exact (h.flushed session hmem).append session.added
    · exact (h.flushed x hx).mono (by simp)
  · intro x hx hpending
    rcases mem_set_cases hx with rfl | hx
    · rw [AuditSession.pending_flush] at hpending ⊢
      exact h.pending session hmem hpending
    · exact h.pending x hx hpending
  · refine h.single_of_set fun old hold hpending => ?_
    rw [hsession] at hold
    cases hold
    simpa using hpending

theorem of_commit (h : InStep H signer store) {index : ℕ} {session : AuditSession}
    (hsession : store.sessions[index]? = some session) :
    InStep H signer
      { store with
        committed := store.committed ++ (session.flush store.nextSeq).flushed
        sessions := store.sessions.set index {}
        nextSeq := store.nextSeq + session.added.length } := by
  have hmem := List.mem_of_getElem? hsession
  have hrows : (store.committed ++ (session.flush store.nextSeq).flushed).map Prod.snd =
      store.committed.map Prod.snd ++ session.pending := by
    rw [List.map_append, ← AuditSession.pending_flush store.nextSeq]
    simp [AuditSession.pending, AuditSession.flush]
  have horder : Numbered (store.nextSeq + session.added.length)
      (store.committed ++ (session.flush store.nextSeq).flushed) := by
    show Numbered _ (store.committed ++ (session.flushed ++ numbered store.nextSeq session.added))
    rw [← List.append_assoc]
    exact (h.flushed session hmem).append session.added
  refine ⟨h.memory, h.tail, ?_, horder, ?_, ?_, ?_⟩
  · rw [hrows]
    by_cases hpending : session.pending = []
    · rw [hpending, List.append_nil]
      exact h.rows
    · -- With its rows the committed chain is the one in memory.
      rw [← h.pending session hmem hpending]
      exact h.memory
  · intro x hx
    obtain ⟨i, hi⟩ := List.getElem?_of_mem hx
    rcases getElem?_set_cases hi with ⟨-, rfl⟩ | ⟨hne, hi⟩
    · exact numbered_of_pending_nil horder rfl
    · by_cases hpending : session.pending = []
      · -- Nothing was committed.
        obtain ⟨hflushed, hadded⟩ := AuditSession.flushed_eq_nil hpending
        have hsame : (session.flush store.nextSeq).flushed = [] := by
          simp [AuditSession.flush, hflushed, hadded, numbered]
        rw [hsame, List.append_nil]
        exact (h.flushed x (List.mem_of_getElem? hi)).mono (by simp)
      · -- The other sessions have nothing that could clash with the new numbers.
        exact numbered_of_pending_nil horder
          (h.single index i session x hsession hi (Ne.symm hne) hpending)
  · intro x hx hxpending
    obtain ⟨i, hi⟩ := List.getElem?_of_mem hx
    rcases getElem?_set_cases hi with ⟨-, rfl⟩ | ⟨hne, hi⟩
    · exact absurd rfl hxpending
    · by_cases hpending : session.pending = []
      · rw [hrows, hpending, List.append_nil]
        exact h.pending x (List.mem_of_getElem? hi) hxpending
      · exact absurd (h.single index i session x hsession hi (Ne.symm hne) hpending) hxpending
  · exact h.single_of_set fun old _ hpending => absurd rfl hpending

/-- **What is committed and what is pending stay one chain.** -/
theorem step (h : InStep H signer store) {l : AuditLabel} (hcond : store.Continues l)
    (hstep : store.step H U signer l = some store') : InStep H signer store' := by
  cases AuditStore.stepped_of_step hstep with
  | openSession =>
    refine ⟨h.memory, h.tail, h.rows, h.order, ?_, ?_, ?_⟩
    · intro x hx
      rcases List.mem_append.mp hx with hx | hx
      · exact h.flushed x hx
      · rw [List.mem_singleton.mp hx]
        exact numbered_of_pending_nil h.order rfl
    · intro x hx hpending
      rcases List.mem_append.mp hx with hx | hx
      · exact h.pending x hx hpending
      · rw [List.mem_singleton.mp hx] at hpending
        exact absurd rfl hpending
    · intro i j x y hi hj hne hx
      rcases getElem?_append_cases hj with hj | ⟨hy, -⟩
      · rcases getElem?_append_cases hi with hi | ⟨hx', -⟩
        · exact h.single i j x y hi hj hne hx
        · rw [List.mem_singleton.mp hx'] at hx
          exact absurd rfl hx
      · rw [List.mem_singleton.mp hy]
        rfl
  | recordRaises _ hrecord => exact h.of_record_error hrecord
  | recorded hsession hrecord => exact h.of_recorded hcond hsession hrecord
  | ownRaises hrecord => exact h.of_record_error hrecord
  | @ownStored call chain signed hrecord =>
    obtain ⟨hmemory, hnil⟩ := h.pending_of_continues_own hcond
    obtain ⟨hwell, htail, hevents⟩ := h.memory.record h.tail hrecord
    have horder : Numbered (store.nextSeq + 1) (store.committed ++ [(store.nextSeq, signed)]) :=
      h.order.append [signed]
    refine ⟨hwell, htail, ?_, horder, ?_, ?_, h.single⟩
    · rw [List.map_append, List.map_singleton, ← hmemory, ← hevents]
      exact hwell
    · exact fun session hsession => numbered_of_pending_nil horder (hnil session hsession)
    · exact fun session hsession hpending => absurd (hnil session hsession) hpending
  | ownLost hrecord =>
    -- The commit failed: the event stays in memory only, and no session has rows that follow it.
    obtain ⟨-, hnil⟩ := h.pending_of_continues_own hcond
    obtain ⟨hwell, htail, -⟩ := h.memory.record h.tail hrecord
    exact ⟨hwell, htail, h.rows, h.order, h.flushed,
      fun session hsession hpending => absurd (hnil session hsession) hpending, h.single⟩
  | flush hsession => exact h.of_flush hsession
  | commit hsession => exact h.of_commit hsession
  | rollback =>
    refine ⟨h.memory, h.tail, h.rows, h.order, ?_, ?_,
      h.single_of_set fun old _ hpending => absurd rfl hpending⟩
    · intro x hx
      rcases mem_set_cases hx with rfl | hx
      · exact numbered_of_pending_nil h.order rfl
      · exact h.flushed x hx
    · intro x hx hpending
      rcases mem_set_cases hx with rfl | hx
      · exact absurd rfl hpending
      · exact h.pending x hx hpending
  | restart =>
    have hload : store.loadAll = store.committed.map Prod.snd := h.loadAll_eq
    refine ⟨?_, ?_, h.rows, h.order, by simp, by simp, by simp⟩
    · show AuditChain.WellFormed H signer store.loadAll
      rw [hload]
      exact h.rows
    · rw [hload]
      exact h.rows.tail_load

end InStep

/-- **The reloaded chain passes `verify`**, in every run that records an event only when all events in
memory are committed or pending in the session at hand: every committed event refers to the
committed event before it. -/
theorem reloaded_verifies {H : Sha256} {U : Unicode} {signer : AuditSigner} {store : AuditStore}
    (h : Reaches (AuditStore.step H U signer) AuditStore.Continues {} store) :
    (AuditChain.load store.loadAll).verify H signer = true ∧
      AuditEvent.Chained H (store.loadAll.map SignedAuditEvent.event) := by
  have hinv : InStep H signer store :=
    h.invariant InStep.init fun _ _ _ hinv hcond hstep => hinv.step hcond hstep
  rw [hinv.loadAll_eq]
  exact ⟨hinv.rows.verify_load, hinv.rows.chained⟩

/-! ## A rollback -/

/-- A signature that is the signed text. -/
def plainSigner : AuditSigner := ⟨id, fun message signature => message == signature, by simp⟩

/-- A call at the given second. -/
def chainCallAt (second : Fin 60) : ChainCall where
  actor := "system"
  action := "assessment.started"
  resourceType := "assessment"
  resourceId := "asm-a"
  payload := []
  now := halfPastNine second

/-- The first event is rolled back with its session; the second one, which refers to it, is
committed, and the chain that is reloaded does not verify. -/
theorem rolledBack_referenced :
    ∃ store, runLabels (AuditStore.step codeDigest .ascii plainSigner) {}
        [.openSession, .record 0 (chainCallAt 1), .rollback 0, .record 0 (chainCallAt 2), .commit 0,
          .restart] = some store ∧
      store.chain.events.length = 1 ∧ store.chain.verify codeDigest plainSigner = false := by
  refine ⟨_, rfl, rfl, ?_⟩
  decide +kernel

/-- One event is committed before the next one is recorded. -/
theorem reloaded_verifies_committed :
    ∃ store, Reaches (AuditStore.step codeDigest .ascii plainSigner) AuditStore.Continues {} store ∧
      store.loadAll.length = 2 ∧
      (AuditChain.load store.loadAll).verify codeDigest plainSigner = true ∧
      AuditEvent.Chained codeDigest (store.loadAll.map SignedAuditEvent.event) := by
  have hfirst : Reaches (AuditStore.step codeDigest .ascii plainSigner) AuditStore.Continues {} _ :=
    .tail .refl (l := .own (chainCallAt 1) true) rfl rfl
  have hopen := hfirst.tail (l := .openSession) (by simp only [AuditStore.Continues]) rfl
  have hsecond := hopen.tail (l := .record 0 (chainCallAt 2)) (by
    simp only [AuditStore.Continues]
    intro session hsession
    cases hsession
    rfl) rfl
  have hcommit := hsecond.tail (l := .commit 0) (by simp only [AuditStore.Continues]) rfl
  exact ⟨_, hcommit, rfl, reloaded_verifies hcommit⟩

end SecOpent
