import SecOpent.HashChain.Linked
import SecOpent.Python.DateTime
import SecOpent.Python.Json

/-!
# Audit events

`domain/audit/models.py` on `domain/common/canonical.py`: an audit event carries the hash of the
event before it, and its own hash is the digest of the canonical JSON of all its other fields.

## Main definitions

* `Sha256`: the digest of a text
* `AuditEvent`, `AuditEvent.create`, `AuditEvent.verifyChain`
* `AuditEvent.SameFields`: two events agree in every hashed field

## Main results

* `verifyChain_iff`: a list passes the check exactly if it is linked and every hash is the event's own
* `dumps_body_inj`: the canonical JSON of an event binds every hashed field
* `verifyChain_tail_determines`: the last hash determines the whole list
-/

namespace SecOpent

open Python HashChain

/-! ## Digests -/

/-- `hashlib.sha256(text.encode("utf-8")).hexdigest()`. -/
structure Sha256 where
  hexdigest : Str → Str
  hex : ∀ text, ∀ c ∈ hexdigest text, c.isDigit = true ∨ c ∈ ['a', 'b', 'c', 'd', 'e', 'f']
  ne_nil : ∀ text, hexdigest text ≠ []

/-- `str.removeprefix`. -/
def removePrefix (s pre : Str) : Str := if startsWith s pre then s.drop pre.length else s

/-- The prefix of a full digest. -/
def sha256Tag : Str := "sha256:".toList

/-- `GENESIS_HASH`. -/
def genesisHash : Str := List.replicate 64 '0'

@[simp] theorem removePrefix_tag (s : Str) : removePrefix (sha256Tag ++ s) sha256Tag = s := by
  have hpre : startsWith (sha256Tag ++ s) sha256Tag = true :=
    List.isPrefixOf_iff_prefix.mpr (List.prefix_append _ _)
  rw [removePrefix, if_pos hpre, List.drop_left]

/-- A bare digest has no prefix to remove. -/
@[simp] theorem removePrefix_hexdigest (H : Sha256) (text : Str) :
    removePrefix (H.hexdigest text) sha256Tag = H.hexdigest text := by
  unfold removePrefix
  rw [if_neg]
  intro hpre
  obtain ⟨rest, hrest⟩ := List.isPrefixOf_iff_prefix.mp hpre
  have hmem : 's' ∈ H.hexdigest text := by
    rw [← hrest]
    exact List.mem_append_left rest (by decide)
  rcases H.hex text 's' hmem with h | h
  · exact absurd h (by decide)
  · exact absurd h (by decide)

@[simp] theorem removePrefix_genesisHash : removePrefix genesisHash sha256Tag = genesisHash := by
  decide

/-! ## Events -/

/-- `AuditEvent`. -/
structure AuditEvent where
  id : String
  actor : String
  action : String
  resourceType : String
  resourceId : String
  payload : List (String × Json)
  previousHash : Str
  eventHash : Str
  occurredAt : DateTime

/-- `DomainValidationError`, with its message. -/
inductive AuditError
  | validation (message : String)
  deriving DecidableEq

/-- `_SECRET_KEYS`. -/
def secretKeys : List String := ["password", "secret", "token", "authorization", "api_key", "cookie"]

/-- `_check_no_secret`: the first key of the payload that names a secret. -/
def checkNoSecret (U : Unicode) (payload : List (String × Json)) : Except AuditError Unit :=
  match payload.find? fun field => String.ofList (lower U field.1.toList) ∈ secretKeys with
  | some field =>
    .error (.validation ("secret key '" ++ field.1 ++ "' must not appear in audit payload"))
  | none => .ok ()

namespace AuditEvent

/-- The body that is hashed. -/
def body (event : AuditEvent) : Json :=
  .object
    [("id", .text event.id), ("actor", .text event.actor), ("action", .text event.action),
      ("resource_type", .text event.resourceType), ("resource_id", .text event.resourceId),
      ("payload", .object event.payload),
      ("previous_hash", .text (String.ofList event.previousHash)),
      ("occurred_at", .text (String.ofList event.occurredAt.isoformat))]

/-- The bare digest of an event. -/
def digest (H : Sha256) (event : AuditEvent) : Str := H.hexdigest event.body.dumps

/-- `create`; `now` is the reading of the clock. -/
def create (H : Sha256) (U : Unicode) (eventId actor action resourceType resourceId : String)
    (payload : List (String × Json)) (previousHash : Str) (now : DateTime) :
    Except AuditError AuditEvent :=
  if [eventId, actor, action, resourceType, resourceId].any String.isEmpty then
    .error (.validation "audit event fields must not be empty")
  else
    match checkNoSecret U payload with
    | .error error => .error error
    | .ok _ =>
      let event : AuditEvent :=
        ⟨eventId, actor, action, resourceType, resourceId, payload, previousHash, [], now⟩
      .ok { event with eventHash := sha256Tag ++ event.digest H }

/-- The loop of `verify_chain`. -/
def verifyFrom (H : Sha256) : Str → List AuditEvent → Bool
  | _, [] => true
  | previous, event :: events =>
    event.previousHash == removePrefix previous sha256Tag &&
      sha256Tag ++ event.digest H == event.eventHash &&
      verifyFrom H (removePrefix event.eventHash sha256Tag) events

/-- `verify_chain`. -/
def verifyChain (H : Sha256) (events : List AuditEvent) : Bool := verifyFrom H genesisHash events

/-- The event's hash is its own. -/
def Sealed (H : Sha256) (event : AuditEvent) : Prop := event.eventHash = sha256Tag ++ event.digest H

/-- The events are linked by their bare digests. -/
def Chained (H : Sha256) (events : List AuditEvent) : Prop :=
  Linked (digest H) previousHash genesisHash events ∧ ∀ event ∈ events, event.Sealed H

/-! ## The check -/

variable {H : Sha256} {events : List AuditEvent} {event : AuditEvent}

theorem verifyFrom_iff {previous : Str} (hprevious : removePrefix previous sha256Tag = previous) :
    verifyFrom H previous events = true ↔
      Linked (digest H) previousHash previous events ∧ ∀ event ∈ events, event.Sealed H := by
  induction events generalizing previous with
  | nil => simp [verifyFrom, Linked]
  | cons event events ih =>
    simp only [verifyFrom, Bool.and_eq_true, beq_iff_eq, hprevious, Linked, List.mem_cons,
      forall_eq_or_imp]
    constructor
    · rintro ⟨⟨hlink, hseal⟩, hrest⟩
      rw [← hseal, removePrefix_tag, ih (by simp [digest])] at hrest
      exact ⟨⟨hlink, hrest.1⟩, hseal.symm, hrest.2⟩
    · rintro ⟨⟨hlink, hrest⟩, hseal, hsealed⟩
      refine ⟨⟨hlink, hseal.symm⟩, ?_⟩
      rw [show event.eventHash = sha256Tag ++ event.digest H from hseal, removePrefix_tag,
        ih (by simp [digest])]
      exact ⟨hrest, hsealed⟩

/-- **A list passes the check exactly if it is linked and every hash is the event's own.** -/
theorem verifyChain_iff : verifyChain H events = true ↔ Chained H events :=
  verifyFrom_iff removePrefix_genesisHash

/-- A created event has the fields that it was given, and a hash of its own. -/
theorem create_ok {U : Unicode} {eventId actor action resourceType resourceId : String}
    {payload : List (String × Json)} {previousHash : Str} {now : DateTime}
    (h : create H U eventId actor action resourceType resourceId payload previousHash now =
      .ok event) :
    event.Sealed H ∧ ∃ eventHash, event =
      ⟨eventId, actor, action, resourceType, resourceId, payload, previousHash, eventHash, now⟩ := by
  unfold create at h
  split at h
  · cases h
  · split at h
    · cases h
    · cases h
      exact ⟨rfl, _, rfl⟩

/-! ## What the hash binds -/

/-- The two events agree in every hashed field; the payloads up to the order of their keys. -/
structure SameFields (a b : AuditEvent) : Prop where
  id : a.id = b.id
  actor : a.actor = b.actor
  action : a.action = b.action
  resourceType : a.resourceType = b.resourceType
  resourceId : a.resourceId = b.resourceId
  payload : (Json.object a.payload).canonical = (Json.object b.payload).canonical
  previousHash : a.previousHash = b.previousHash
  occurredAt : a.occurredAt = b.occurredAt

/-- **The canonical JSON of an event binds every hashed field.** -/
theorem dumps_body_inj {a b : AuditEvent} (h : a.body.dumps = b.body.dumps) : SameFields a b := by
  have hperm := Json.perm_of_canonical_eq (Json.dumps_inj h)
  simp only [Json.canonicalFields, Json.canonical] at hperm
  -- The keys are distinct, so each member of `a` is the member of `b` with the same key.
  have hid := (hperm.mem_iff (a := ("id", .text a.id))).mp (by simp)
  have hactor := (hperm.mem_iff (a := ("actor", .text a.actor))).mp (by simp)
  have haction := (hperm.mem_iff (a := ("action", .text a.action))).mp (by simp)
  have htype := (hperm.mem_iff (a := ("resource_type", .text a.resourceType))).mp (by simp)
  have hresource := (hperm.mem_iff (a := ("resource_id", .text a.resourceId))).mp (by simp)
  have hpayload := (hperm.mem_iff (a := ("payload", (Json.object a.payload).canonical))).mp
    (by simp [Json.canonical])
  have hprevious := (hperm.mem_iff
    (a := ("previous_hash", .text (String.ofList a.previousHash)))).mp (by simp)
  have hoccurred := (hperm.mem_iff
    (a := ("occurred_at", .text (String.ofList a.occurredAt.isoformat)))).mp (by simp)
  simp only [List.mem_cons, Prod.mk.injEq, String.reduceEq, false_and, true_and, or_false, false_or,
    Json.text.injEq, List.not_mem_nil] at hid hactor haction htype hresource
  simp only [List.mem_cons, Prod.mk.injEq, String.reduceEq, false_and, true_and, or_false, false_or,
    Json.text.injEq, List.not_mem_nil, String.ofList_inj] at hpayload hprevious hoccurred
  exact ⟨hid, hactor, haction, htype, hresource, by rw [hpayload, Json.canonical], hprevious,
    DateTime.isoformat_inj hoccurred⟩

/-- **The last hash determines the whole list**: under an injective digest that never yields the
genesis value, two lists that pass the check and end in the same hash agree event by event in every
hashed field. -/
theorem verifyChain_tail_determines {H : Sha256} (hinj : Function.Injective H.hexdigest)
    (hgenesis : ∀ event : AuditEvent, event.digest H ≠ genesisHash) {xs ys : List AuditEvent}
    (hxs : verifyChain H xs = true) (hys : verifyChain H ys = true) {a b : AuditEvent}
    (ha : xs.getLast? = some a) (hb : ys.getLast? = some b) (hsame : a.eventHash = b.eventHash) :
    List.Forall₂ SameFields xs ys := by
  obtain ⟨hlinked, hsealed⟩ := verifyChain_iff.mp hxs
  obtain ⟨hlinked', hsealed'⟩ := verifyChain_iff.mp hys
  refine Linked.forall₂_of_tail_eq ?_ hgenesis hlinked hlinked' ?_
  · intro x y hdigest
    have hfields := dumps_body_inj (hinj hdigest)
    exact ⟨hfields, hfields.previousHash⟩
  · have hdigest : a.digest H = b.digest H := by
      rw [hsealed a (List.mem_of_getLast? ha), hsealed' b (List.mem_of_getLast? hb)] at hsame
      exact List.append_cancel_left hsame
    simp [tail, ha, hb, hdigest]

end AuditEvent

/-! ## A digest for examples -/

/-- The code points of a text, with ten digits each. -/
def codeText : Str → Str
  | [] => []
  | c :: s => pad 10 c.toNat ++ codeText s

theorem codeText_inj {s t : Str} (h : codeText s = codeText t) : s = t := by
  induction s generalizing t with
  | nil =>
    cases t with
    | nil => rfl
    | cons d t =>
      have hlen := congrArg List.length h
      simp only [codeText, List.length_append, length_pad, List.length_nil] at hlen
      omega
  | cons c s ih =>
    cases t with
    | nil =>
      have hlen := congrArg List.length h
      simp only [codeText, List.length_append, length_pad, List.length_nil] at hlen
      omega
    | cons d t =>
      obtain ⟨hcode, hrest⟩ := List.append_inj h (by simp)
      have hvalid : ∀ c : Char, c.toNat < 10 ^ 10 := fun c =>
        c.val.toNat_lt.trans (by norm_num)
      have hcd : c = d := Char.toNat_inj.mp (pad_inj (hvalid c) (hvalid d) hcode)
      rw [hcd, ih hrest]

theorem isDigit_of_mem_codeText {s : Str} {c : Char} (h : c ∈ codeText s) : c.isDigit = true := by
  induction s with
  | nil => cases h
  | cons d s ih =>
    rcases List.mem_append.mp h with h | h
    · exact mem_pad_isDigit h
    · exact ih h

/-- The code of the text after a letter: an injective digest that is never the genesis value. -/
def codeDigest : Sha256 where
  hexdigest text := 'f' :: codeText text
  hex text c h := by
    rcases List.mem_cons.mp h with rfl | h
    · exact .inr (by decide)
    · exact .inl (isDigit_of_mem_codeText h)
  ne_nil text := by simp

theorem injective_codeDigest : Function.Injective codeDigest.hexdigest :=
  fun _ _ h => codeText_inj (List.cons.inj h).2

/-- The payload of an event that names two keys, in either order. -/
def twoKeys (swapped : Bool) : List (String × Json) :=
  if swapped then [("b", .int 2), ("a", .int 1)] else [("a", .int 1), ("b", .int 2)]

/-- A reading of the clock. -/
def halfPastNine (second : Fin 60) : DateTime := ⟨2026, 8, 13, 9, 30, second, 0⟩

/-- The first of these readings. -/
def firstReading : DateTime := halfPastNine 0

/-- A first event, sealed by the digest. -/
def firstEvent (swapped : Bool) : AuditEvent :=
  let event : AuditEvent := ⟨"evt-1", "system", "assessment.started", "assessment", "asm-a",
    twoKeys swapped, genesisHash, [], halfPastNine 0⟩
  { event with eventHash := sha256Tag ++ event.digest codeDigest }

theorem AuditEvent.verifyChain_tail_determines_swapped :
    (firstEvent false).eventHash = (firstEvent true).eventHash ∧
      List.Forall₂ SameFields [firstEvent false] [firstEvent true] := by
  have hsealed : ∀ swapped, (firstEvent swapped).Sealed codeDigest := fun swapped => rfl
  have hverify : ∀ swapped, verifyChain codeDigest [firstEvent swapped] = true := by
    intro swapped
    refine verifyChain_iff.mpr ⟨⟨rfl, trivial⟩, ?_⟩
    intro event hevent
    rw [List.mem_singleton.mp hevent]
    exact hsealed swapped
  have hgenesis : ∀ event : AuditEvent, event.digest codeDigest ≠ genesisHash := by
    intro event h
    cases (List.cons.inj h).1
  -- The order of the keys is gone in the canonical form.
  have hcanonical : (firstEvent false).body.canonical = (firstEvent true).body.canonical := rfl
  have hsame : (firstEvent false).eventHash = (firstEvent true).eventHash := by
    rw [hsealed false, hsealed true, digest, digest, Json.dumps, Json.dumps, hcanonical]
  exact ⟨hsame,
    verifyChain_tail_determines injective_codeDigest hgenesis (hverify false) (hverify true) rfl rfl
      hsame⟩

end SecOpent
