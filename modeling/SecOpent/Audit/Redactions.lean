import Mathlib.Data.String.Basic
import SecOpent.Audit.Chain
import SecOpent.Python.OrderedRows
import SecOpent.Transition.Conditions

/-!
# Redactions

`redact_pii` and `export` of `application/audit_chain.py`: the keys to mask are kept for each event, the
set of a later redaction in place of the earlier one, and are put together again from the redaction
events of a reloaded chain, where the last one of an event counts.

## Main definitions

* `RedactedStore`: the chain and its store, with the redactions in memory
* `RedactedStore.step`: the steps of the chain, and `redact_pii`
* `RedactedStore.exported`
* `NeverPlain`: no payload key that was redacted is exported in plaintext
* `RedactedStore.Keeps`: the condition on a redaction and on a reload

## Main results

* `Masking.neverPlain`: what is masked is not exported
* `redaction_kept_iff`: when nothing that was redacted is exported again
-/

namespace SecOpent

open Python Transition

/-! ## The chain with its redactions -/

/-- `str` of a JSON value. -/
structure PyStr where
  str : Json → String
  str_text : ∀ text, str (.text text) = text

/-- `[REDACTED:gdpr]`. -/
def redactionMarker : Json := .text "[REDACTED:gdpr]"

/-- What the chain takes from an event when it is reloaded: the event and the keys that it redacts. -/
def redactionOf (P : PyStr) (event : AuditEvent) : Option (String × Finset String) :=
  if event.action = "gdpr.redacted" then
    match Dict.lookup "redacted_event_id" event.payload, Dict.lookup "keys" event.payload with
    | some (.text redacted), some (.list keys) => some (redacted, (keys.map P.str).toFinset)
    | _, _ => none
  else none

/-- The redactions that are derived from loaded events. -/
def redactionsOf (P : PyStr) (events : List SignedAuditEvent) : Dict String (Finset String) :=
  events.foldl (fun redactions signed =>
    match redactionOf P signed.event with
    | some (redacted, keys) => redactions.set redacted keys
    | none => redactions) .empty

/-- The chain and its store, the redactions in memory, and the payload keys that were redacted, each
with the id of its event. -/
structure RedactedStore where
  store : AuditStore := {}
  redactions : Dict String (Finset String) := .empty
  made : List (String × String) := []

/-- A step of the chain, or `redact_pii` within a session or without one. -/
inductive RedactLabel
  | chain (label : AuditLabel)
  | redact (index : ℕ) (redacted : String) (keys : Finset String) (actor : String) (now : DateTime)
  | redactOwn (redacted : String) (keys : Finset String) (actor : String) (now : DateTime)
      (stored : Bool)

/-- The call of `record` in `redact_pii`. -/
def redactCall (redacted : String) (keys : Finset String) (actor : String) (now : DateTime) :
    ChainCall where
  actor := actor
  action := "gdpr.redacted"
  resourceType := "audit_event"
  resourceId := redacted
  payload :=
    [("redacted_event_id", .text redacted), ("keys", .list ((sorted keys).map .text))]
  now := now

namespace RedactedStore

/-- The payload keys of an event in the chain that a redaction names. -/
def redactedKeys (s : RedactedStore) (redacted : String) (keys : Finset String) :
    List (String × String) :=
  (s.store.chain.events.filter fun signed => signed.event.id = redacted).flatMap fun signed =>
    (signed.event.payload.filter fun field => field.1 ∈ keys).map fun field => (redacted, field.1)

/-- One step. A redaction counts as made when `redact_pii` returns. -/
def step (H : Sha256) (U : Unicode) (signer : AuditSigner) (P : PyStr) (s : RedactedStore) :
    RedactLabel → Option RedactedStore
  | .chain .restart => do
    let store ← s.store.step H U signer .restart
    some { s with store, redactions := redactionsOf P store.chain.events }
  | .chain label => do
    let store ← s.store.step H U signer label
    some { s with store }
  | .redact index redacted keys actor now => do
    let call := redactCall redacted keys actor now
    let store ← s.store.step H U signer (.record index call)
    some
      { store := store
        redactions := s.redactions.set redacted keys
        made :=
          match (s.store.chain.record H U signer call).2 with
          | .ok _ => s.made ++ s.redactedKeys redacted keys
          | .error _ => s.made }
  | .redactOwn redacted keys actor now stored => do
    let call := redactCall redacted keys actor now
    let store ← s.store.step H U signer (.own call stored)
    some
      { store := store
        redactions := s.redactions.set redacted keys
        made :=
          match (s.store.chain.record H U signer call).2, stored with
          | .ok _, true => s.made ++ s.redactedKeys redacted keys
          | _, _ => s.made }

/-- `export`. -/
def exported (s : RedactedStore) (redacted : Bool) : List AuditEvent :=
  s.store.chain.events.map fun signed =>
    if redacted then
      match s.redactions.get? signed.event.id with
      | some keys =>
        { signed.event with
          payload := signed.event.payload.map fun field =>
            (field.1, if field.1 ∈ keys then redactionMarker else field.2) }
      | none => signed.event
    else signed.event

end RedactedStore

/-- **No payload key that was redacted is exported in plaintext.** -/
def NeverPlain (s : RedactedStore) : Prop :=
  ∀ pair ∈ s.made, ∀ event ∈ s.exported true, event.id = pair.1 →
    ∀ value, (pair.2, value) ∈ event.payload → value = redactionMarker

/-- Every payload key that was redacted is in the set of its event. -/
def Masking (s : RedactedStore) : Prop :=
  ∀ pair ∈ s.made, ∃ keys, s.redactions.get? pair.1 = some keys ∧ pair.2 ∈ keys

/-- What is masked is not exported. -/
theorem Masking.neverPlain {s : RedactedStore} (h : Masking s) : NeverPlain s := by
  intro pair hpair event hevent hid value hvalue
  obtain ⟨keys, hkeys, hmem⟩ := h pair hpair
  obtain ⟨signed, -, rfl⟩ := List.mem_map.mp hevent
  have hsigned : signed.event.id = pair.1 := by
    rw [← hid]
    simp only [if_true]
    split <;> rfl
  simp only [if_true, hsigned, hkeys] at hvalue
  obtain ⟨field, -, hfield⟩ := List.mem_map.mp hvalue
  obtain ⟨hkey, hmasked⟩ := Prod.mk.inj hfield
  rw [← hmasked, if_pos (hkey ▸ hmem)]

/-! ## The chain after a step -/

section Chain

variable {H : Sha256} {U : Unicode} {signer : AuditSigner} {store store' : AuditStore}
  {chain : AuditChain} {call : ChainCall} {signed : SignedAuditEvent}

/-- The chain in memory after a step. -/
def AuditStore.chainAfter (H : Sha256) (U : Unicode) (signer : AuditSigner) (store : AuditStore) :
    AuditLabel → AuditChain
  | .record _ call => (store.chain.record H U signer call).1
  | .own call _ => (store.chain.record H U signer call).1
  | .restart => .load store.loadAll
  | _ => store.chain

theorem chain_of_step {label : AuditLabel} (h : store.step H U signer label = some store') :
    store'.chain = store.chainAfter H U signer label := by
  cases AuditStore.stepped_of_step h with
  | openSession | flush | commit | rollback | restart => rfl
  | recordRaises _ hrecord | recorded _ hrecord => rw [AuditStore.chainAfter, hrecord]
  | ownRaises hrecord | ownStored hrecord | ownLost hrecord => rw [AuditStore.chainAfter, hrecord]

/-- A recorded event has the action and the payload of its call. -/
theorem event_of_record (h : store.chain.record H U signer call = (chain, .ok signed)) :
    chain.events = store.chain.events ++ [signed] ∧ signed.event.action = call.action ∧
      signed.event.payload = AuditChain.payloadOf call := by
  obtain ⟨hcreate, -, rfl⟩ := AuditChain.record_ok h
  obtain ⟨-, _, hevent⟩ := AuditEvent.create_ok hcreate
  refine ⟨rfl, ?_, ?_⟩
  · rw [hevent]
  · rw [hevent]

end Chain

/-! ## Redactions in memory -/

namespace RedactedStore

/-- The condition on a redaction and on a reload: a redaction names every payload key that was redacted
in its event before, and the last stored redaction of an event names every payload key that was
redacted in it. -/
def Keeps (P : PyStr) (s : RedactedStore) : RedactLabel → Prop
  | .chain .restart => ∀ pair ∈ s.made, ∃ keys,
      (redactionsOf P s.store.loadAll).get? pair.1 = some keys ∧ pair.2 ∈ keys
  | .chain _ => True
  | .redact index redacted keys _ _ => index < s.store.sessions.length →
      ∀ pair ∈ s.made, pair.1 = redacted → pair.2 ∈ keys
  | .redactOwn redacted keys _ _ _ => ∀ pair ∈ s.made, pair.1 = redacted → pair.2 ∈ keys

/-- A condition under which the stored redactions name everything: a reload finds all events stored, in
their order, and events of the action of a redaction are recorded by `redact_pii` only. -/
def Stored (s : RedactedStore) : RedactLabel → Prop
  | .chain .restart => s.store.chain.events = s.store.loadAll
  | .chain (.record _ call) => call.action ≠ "gdpr.redacted"
  | .chain (.own call _) => call.action ≠ "gdpr.redacted"
  | .chain _ => True
  | .redact _ redacted keys _ _ => ∀ pair ∈ s.made, pair.1 = redacted → pair.2 ∈ keys
  | .redactOwn redacted keys _ _ _ => ∀ pair ∈ s.made, pair.1 = redacted → pair.2 ∈ keys

variable {H : Sha256} {U : Unicode} {signer : AuditSigner} {P : PyStr} {s s' : RedactedStore}
  {redacted : String} {keys : Finset String} {actor : String} {now : DateTime}

theorem mem_redactedKeys {pair : String × String} (h : pair ∈ s.redactedKeys redacted keys) :
    pair.1 = redacted ∧ pair.2 ∈ keys := by
  obtain ⟨signed, -, h⟩ := List.mem_flatMap.mp h
  obtain ⟨field, hfield, rfl⟩ := List.mem_map.mp h
  exact ⟨rfl, of_decide_eq_true (List.mem_filter.mp hfield).2⟩

/-- The redactions of an event after its keys were set. -/
theorem masking_set_iff {made new : List (String × String)}
    {redactions : Dict String (Finset String)}
    (hnew : new = made ∨ new = made ++ s.redactedKeys redacted keys)
    (hmasking : ∀ pair ∈ made, ∃ keys, redactions.get? pair.1 = some keys ∧ pair.2 ∈ keys) :
    (∀ pair ∈ new, ∃ found, (redactions.set redacted keys).get? pair.1 = some found ∧
      pair.2 ∈ found) ↔ ∀ pair ∈ made, pair.1 = redacted → pair.2 ∈ keys := by
  have hold : ∀ pair ∈ made, (∃ found, (redactions.set redacted keys).get? pair.1 = some found ∧
      pair.2 ∈ found) ↔ (pair.1 = redacted → pair.2 ∈ keys) := by
    intro pair hpair
    rw [Dict.get?_set]
    by_cases hid : pair.1 = redacted
    · simp [hid]
    · simpa [hid] using hmasking pair hpair
  have hadded : ∀ pair ∈ s.redactedKeys redacted keys,
      ∃ found, (redactions.set redacted keys).get? pair.1 = some found ∧ pair.2 ∈ found := by
    intro pair hpair
    obtain ⟨hid, hkey⟩ := mem_redactedKeys hpair
    exact ⟨keys, by rw [hid, Dict.get?_set, if_pos rfl], hkey⟩
  constructor
  · -- The pairs that were made before stay among those that count.
    intro h pair hpair
    refine (hold pair hpair).mp (h pair ?_)
    rcases hnew with rfl | rfl
    · exact hpair
    · exact List.mem_append_left _ hpair
  · intro h pair hpair
    rcases hnew with rfl | rfl
    · exact (hold pair hpair).mpr (h pair hpair)
    · rcases List.mem_append.mp hpair with hpair | hpair
      · exact (hold pair hpair).mpr (h pair hpair)
      · exact hadded pair hpair

/-- Only a reload touches the redactions in memory. -/
theorem step_chain {label : AuditLabel} (hstep : s.step H U signer P (.chain label) = some s')
    (hlabel : label ≠ .restart) :
    ∃ store, s.store.step H U signer label = some store ∧ s' = { s with store } := by
  cases label with
  | restart => exact absurd rfl hlabel
  | openSession =>
    cases hstep
    exact ⟨_, rfl, rfl⟩
  | record | own | flush | commit | rollback =>
    obtain ⟨store, hstore, hstep⟩ := Option.bind_eq_some_iff.mp hstep
    exact ⟨store, hstore, (Option.some.inj hstep).symm⟩

/-- What a redaction leaves; its keys are made when its event was recorded. -/
theorem step_redact {label : RedactLabel} {inner : AuditLabel}
    (hlabel : (∃ index, label = .redact index redacted keys actor now ∧
        inner = .record index (redactCall redacted keys actor now)) ∨
      ∃ stored, label = .redactOwn redacted keys actor now stored ∧
        inner = .own (redactCall redacted keys actor now) stored)
    (hstep : s.step H U signer P label = some s') :
    s.store.step H U signer inner = some s'.store ∧
      s'.redactions = s.redactions.set redacted keys ∧
      (s'.made = s.made ∨ s'.made = s.made ++ s.redactedKeys redacted keys ∧
        ∃ chain signed, s.store.chain.record H U signer (redactCall redacted keys actor now) =
          (chain, .ok signed)) := by
  rcases hlabel with ⟨index, rfl, rfl⟩ | ⟨stored, rfl, rfl⟩
  · obtain ⟨store, hstore, hstep⟩ := Option.bind_eq_some_iff.mp hstep
    cases hstep
    refine ⟨hstore, rfl, ?_⟩
    rcases hrecord : s.store.chain.record H U signer (redactCall redacted keys actor now) with
      ⟨chain, error | signed⟩
    · exact .inl rfl
    · exact .inr ⟨rfl, chain, signed, rfl⟩
  · obtain ⟨store, hstore, hstep⟩ := Option.bind_eq_some_iff.mp hstep
    cases hstep
    refine ⟨hstore, rfl, ?_⟩
    rcases hrecord : s.store.chain.record H U signer (redactCall redacted keys actor now) with
      ⟨chain, error | signed⟩
    · exact .inl rfl
    · cases stored with
      | false => exact .inl rfl
      | true => exact .inr ⟨rfl, chain, signed, rfl⟩

/-- A redaction in an open session is always carried out. -/
theorem exists_step_redact {index : ℕ} (hlt : index < s.store.sessions.length) :
    ∃ s', s.step H U signer P (.redact index redacted keys actor now) = some s' := by
  simp only [step, AuditStore.step, List.getElem?_eq_getElem hlt, Option.bind_eq_bind,
    Option.bind_some]
  split <;> exact ⟨_, rfl⟩

theorem exists_step_redactOwn {stored : Bool} :
    ∃ s', s.step H U signer P (.redactOwn redacted keys actor now stored) = some s' := by
  simp only [step, AuditStore.step, Option.bind_eq_bind]
  split
  · exact ⟨_, rfl⟩
  · split <;> exact ⟨_, rfl⟩

/-- **One step keeps what is masked** exactly if it meets the condition. -/
theorem masking_step_iff {label : RedactLabel} (hmasking : Masking s) :
    (∀ s', s.step H U signer P label = some s' → Masking s') ↔ s.Keeps P label := by
  cases label with
  | chain label =>
    cases label with
    | restart =>
      constructor
      · exact fun h => h _ rfl
      · intro h s' hstep
        cases hstep
        exact h
    | openSession | record | own | flush | commit | rollback =>
      refine iff_of_true (fun s' hstep => ?_) trivial
      obtain ⟨store, -, rfl⟩ := step_chain hstep nofun
      exact hmasking
  | redact index redacted keys actor now =>
    constructor
    · intro h hlt
      obtain ⟨s', hstep⟩ :
          ∃ s', s.step H U signer P (.redact index redacted keys actor now) = some s' :=
        exists_step_redact hlt
      obtain ⟨-, hredactions, hmade⟩ := step_redact (.inl ⟨index, rfl, rfl⟩) hstep
      have hmasked := h s' hstep
      rw [Masking, hredactions] at hmasked
      exact (masking_set_iff (hmade.imp_right And.left) hmasking).mp hmasked
    · intro h s' hstep
      obtain ⟨hstore, hredactions, hmade⟩ := step_redact (.inl ⟨index, rfl, rfl⟩) hstep
      have hlt : index < s.store.sessions.length := by
        obtain ⟨session, hsession, -⟩ := Option.bind_eq_some_iff.mp hstore
        exact (List.getElem?_eq_some_iff.mp hsession).1
      rw [Masking, hredactions]
      exact (masking_set_iff (hmade.imp_right And.left) hmasking).mpr (h hlt)
  | redactOwn redacted keys actor now stored =>
    constructor
    · intro h
      obtain ⟨s', hstep⟩ :
          ∃ s', s.step H U signer P (.redactOwn redacted keys actor now stored) = some s' :=
        exists_step_redactOwn
      obtain ⟨-, hredactions, hmade⟩ := step_redact (.inr ⟨stored, rfl, rfl⟩) hstep
      have hmasked := h s' hstep
      rw [Masking, hredactions] at hmasked
      exact (masking_set_iff (hmade.imp_right And.left) hmasking).mp hmasked
    · intro h s' hstep
      obtain ⟨-, hredactions, hmade⟩ := step_redact (.inr ⟨stored, rfl, rfl⟩) hstep
      rw [Masking, hredactions]
      exact (masking_set_iff (hmade.imp_right And.left) hmasking).mpr h

/-! ## Redactions in the chain -/

/-- The redaction events of the chain name every payload key that was redacted, the last one of each
event. -/
def Derived (P : PyStr) (s : RedactedStore) : Prop :=
  ∀ pair ∈ s.made, ∃ keys,
    (redactionsOf P s.store.chain.events).get? pair.1 = some keys ∧ pair.2 ∈ keys

theorem redactionsOf_concat (events : List SignedAuditEvent) (signed : SignedAuditEvent) :
    redactionsOf P (events ++ [signed]) =
      match redactionOf P signed.event with
      | some (redacted, keys) => (redactionsOf P events).set redacted keys
      | none => redactionsOf P events := by
  rw [redactionsOf, List.foldl_append]
  rfl

/-- The event of `redact_pii` is read as the redaction that it is. -/
theorem redactionOf_redactCall {event : AuditEvent} (haction : event.action = "gdpr.redacted")
    (hpayload : event.payload = AuditChain.payloadOf (redactCall redacted keys actor now)) :
    redactionOf P event = some (redacted, keys) := by
  have htexts : ((sorted keys).map (P.str ∘ Json.text)).toFinset = keys := by
    have hstr : P.str ∘ Json.text = id := funext P.str_text
    rw [hstr, List.map_id, sorted_toFinset]
  rw [redactionOf, if_pos haction, hpayload]
  simp [AuditChain.payloadOf, redactCall, Dict.lookup, htexts]

/-- A redaction that names what was redacted before keeps the chain up to date. -/
theorem derived_of_redact {inner : AuditLabel}
    (hinner : (∃ index, inner = .record index (redactCall redacted keys actor now)) ∨
      ∃ stored, inner = .own (redactCall redacted keys actor now) stored)
    (hstore : s.store.step H U signer inner = some s'.store)
    (hmade : s'.made = s.made ∨ s'.made = s.made ++ s.redactedKeys redacted keys ∧
      ∃ chain signed, s.store.chain.record H U signer (redactCall redacted keys actor now) =
        (chain, .ok signed))
    (hnames : ∀ pair ∈ s.made, pair.1 = redacted → pair.2 ∈ keys) (h : s.Derived P) :
    s'.Derived P := by
  have hchain : s'.store.chain =
      (s.store.chain.record H U signer (redactCall redacted keys actor now)).1 := by
    have hstep := chain_of_step hstore
    rcases hinner with ⟨index, rfl⟩ | ⟨stored, rfl⟩ <;> exact hstep
  rcases hrecord : s.store.chain.record H U signer (redactCall redacted keys actor now) with
    ⟨chain, error | signed⟩
  · -- The call raised: nothing was recorded, and nothing counts as redacted.
    have hsame : s'.made = s.made := by
      rcases hmade with hsame | ⟨-, _, _, hok⟩
      · exact hsame
      · rw [hrecord] at hok
        cases hok
    rw [Derived, hsame, hchain, hrecord, AuditChain.record_error hrecord]
    exact h
  · -- The recorded event is now the last redaction of the event that it names.
    obtain ⟨hevents, haction, hpayload⟩ := event_of_record hrecord
    rw [Derived, hchain, hrecord, hevents, redactionsOf_concat,
      redactionOf_redactCall haction hpayload]
    exact (masking_set_iff (hmade.imp_right And.left) h).mpr hnames

/-- The chain stays up to date in the runs in which reloads find everything stored. -/
theorem Derived.step {label : RedactLabel} (h : s.Derived P) (hstored : s.Stored label)
    (hstep : s.step H U signer P label = some s') : s'.Derived P := by
  -- An event that is not a redaction changes nothing.
  have hother : ∀ call : ChainCall, call.action ≠ "gdpr.redacted" →
      redactionsOf P (s.store.chain.record H U signer call).1.events =
        redactionsOf P s.store.chain.events := by
    intro call haction
    rcases hrecord : s.store.chain.record H U signer call with ⟨chain, error | signed⟩
    · rw [AuditChain.record_error hrecord]
    · obtain ⟨hevents, hsame, -⟩ := event_of_record hrecord
      rw [hevents, redactionsOf_concat, redactionOf, if_neg (hsame ▸ haction)]
  cases label with
  | chain label =>
    cases label with
    | restart =>
      -- Memory is read from the rows, which are the events that were in memory.
      cases hstep
      show ∀ pair ∈ s.made, ∃ keys, (redactionsOf P s.store.loadAll).get? pair.1 = some keys ∧ _
      rw [← show s.store.chain.events = s.store.loadAll from hstored]
      exact h
    | record _ call | own call _ =>
      obtain ⟨store, hstore, rfl⟩ := RedactedStore.step_chain hstep nofun
      rw [Derived, chain_of_step hstore, AuditStore.chainAfter, hother call hstored]
      exact h
    | openSession | flush | commit | rollback =>
      obtain ⟨store, hstore, rfl⟩ := RedactedStore.step_chain hstep nofun
      rw [Derived, chain_of_step hstore]
      exact h
  | redact index redacted keys actor now =>
    obtain ⟨hstore, -, hmade⟩ := step_redact (.inl ⟨index, rfl, rfl⟩) hstep
    exact derived_of_redact (.inl ⟨index, rfl⟩) hstore hmade hstored h
  | redactOwn redacted keys actor now stored =>
    obtain ⟨hstore, -, hmade⟩ := step_redact (.inr ⟨stored, rfl, rfl⟩) hstep
    exact derived_of_redact (.inr ⟨stored, rfl⟩) hstore hmade hstored h

theorem Stored.keeps {label : RedactLabel} (h : s.Derived P) (hstored : s.Stored label) :
    s.Keeps P label := by
  cases label with
  | chain label =>
    cases label with
    | restart =>
      show ∀ pair ∈ s.made, ∃ keys, (redactionsOf P s.store.loadAll).get? pair.1 = some keys ∧ _
      rw [← show s.store.chain.events = s.store.loadAll from hstored]
      exact h
    | openSession | record | own | flush | commit | rollback => trivial
  | redact => exact fun _ => hstored
  | redactOwn => exact hstored

end RedactedStore

/-- **When nothing that was redacted is exported again.** Every payload key that was redacted stays
masked exactly in the runs in which each redaction names the keys that were redacted in its event
before, and each reload finds them all in the last stored redaction of their event; this second part
holds when each reload finds all events stored in their order. What is masked is not exported. -/
theorem redaction_kept_iff (H : Sha256) (U : Unicode) (signer : AuditSigner) (P : PyStr)
    (labels : List RedactLabel) :
    (runMeets (RedactedStore.step H U signer P) (RedactedStore.Keeps P) {} labels →
      Always (RedactedStore.step H U signer P) NeverPlain {} labels) ∧
    (runMeets (RedactedStore.step H U signer P) (RedactedStore.Keeps P) {} labels ↔
      Always (RedactedStore.step H U signer P) Masking {} labels) ∧
    (runMeets (RedactedStore.step H U signer P) RedactedStore.Stored {} labels →
      runMeets (RedactedStore.step H U signer P) (RedactedStore.Keeps P) {} labels) := by
  have hexact : Always (RedactedStore.step H U signer P) Masking {} labels ↔
      runMeets (RedactedStore.step H U signer P) (RedactedStore.Keeps P) {} labels :=
    always_iff (fun _ => True) (fun _ _ _ _ _ => trivial)
      (fun _ _ _ hmasking => RedactedStore.masking_step_iff hmasking) trivial (by simp [Masking])
  refine ⟨fun h => ?_, hexact.symm, ?_⟩
  · intro before after s hlabels hs
    exact (hexact.mpr h before after s hlabels hs).neverPlain
  · exact runMeets_imp (RedactedStore.Derived P) (fun _ _ h hstored => hstored.keeps h)
      (fun _ _ _ h hstored hstep => h.step hstored hstep) (by simp [RedactedStore.Derived])

/-- `str` of a text, and nothing else. -/
def plainStr : PyStr where
  str value :=
    match value with
    | .text text => text
    | _ => ""
  str_text _ := rfl

/-- A call whose payload has a name and a mail address. -/
def personCall (second : Fin 60) : ChainCall :=
  { chainCallAt second with payload := [("name", .text "Ann"), ("mail", .text "ann@example.org")] }

/-- The texts that are exported, with the ids of their events and their keys. -/
def RedactedStore.exportedTexts (s : RedactedStore) : List (String × String × String) :=
  (s.exported true).flatMap fun event => event.payload.filterMap fun field =>
    match field.2 with
    | .text text => some (event.id, field.1, text)
    | _ => none

theorem exists_event_of_exportedTexts {s : RedactedStore} {id key text : String}
    (h : (id, key, text) ∈ s.exportedTexts) :
    ∃ event ∈ s.exported true, event.id = id ∧ (key, .text text) ∈ event.payload := by
  obtain ⟨event, hevent, h⟩ := List.mem_flatMap.mp h
  obtain ⟨⟨field, value⟩, hfield, h⟩ := List.mem_filterMap.mp h
  cases value <;> cases h
  exact ⟨event, hevent, rfl, hfield⟩

/-- A person is recorded, and the name and the mail address are redacted one after the other. -/
def redactTwice (recorded first second : Fin 60) : List RedactLabel :=
  [.chain (.own (personCall recorded) true),
    .redactOwn "evt-1" {"name"} "dpo" (halfPastNine first) true,
    .redactOwn "evt-1" {"mail"} "dpo" (halfPastNine second) true]

/-- The name is redacted, then the mail address, and the name is exported again. -/
theorem redaction_lost :
    ∃ s, runLabels (RedactedStore.step codeDigest .ascii plainSigner plainStr) {}
          (redactTwice 1 2 3) = some s ∧
      ("evt-1", "name") ∈ s.made ∧ ("evt-1", "name", "Ann") ∈ s.exportedTexts ∧ ¬NeverPlain s := by
  have hsome : (runLabels (RedactedStore.step codeDigest .ascii plainSigner plainStr) {}
      (redactTwice 1 2 3)).isSome = true := rfl
  obtain ⟨s, hs⟩ := Option.isSome_iff_exists.mp hsome
  have hmade : s.made = [("evt-1", "name"), ("evt-1", "mail")] :=
    eq_of_runLabels RedactedStore.made hs (by decide +kernel)
  have htexts : ("evt-1", "name", "Ann") ∈ s.exportedTexts :=
    of_decide_eq_true (eq_of_runLabels
      (fun s => decide (("evt-1", "name", "Ann") ∈ s.exportedTexts)) hs (by decide +kernel))
  have hmem : ("evt-1", "name") ∈ s.made := by simp [hmade]
  refine ⟨s, hs, hmem, htexts, fun hplain => ?_⟩
  obtain ⟨event, hevent, hid, hname⟩ := exists_event_of_exportedTexts htexts
  have hmarker := hplain _ hmem event hevent hid _ hname
  simp [redactionMarker] at hmarker

end SecOpent
