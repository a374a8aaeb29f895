import Mathlib.Data.List.Destutter
import SecOpent.Assessments.Lifecycle
import SecOpent.Common.Canonical

/-!
# The event stream and the client that reads it

`interfaces/api/sse.py`, the endpoint of `interfaces/api/main.py` that streams the status of an
assessment, and the `EventSource` of `interfaces/web/src/lib/sse.ts`. The stream polls a snapshot, puts
its events into a bounded queue if the snapshot is another than the last one that was sent, and writes
what is in the queue as frames. The client reads the text character by character, whatever the pieces
that the network cuts it into, and hands on the data of a frame at the empty line that ends it.

Events are JSON values; a poll of the snapshot may raise, which ends the stream.

## Main definitions

* `sseFrame`, `stateSignature`, `Stream.tick`, `Stream.emitted`: the generator
* `EventSource.receive`: the client
* `polled`, `Stream.sentEvents`: the snapshots that are looked at, and the events to send
* `statusEvents`, `stopsAt`: the endpoint of an assessment

## Main results

* `receive_frame`: a frame is received as the text of its event
* `receive_emitted`: what the client receives, whatever the pieces
* `received_statuses`: a connected client sees every status that is polled, and last the final one
-/

namespace SecOpent

open Python Transition

/-! ## The generator -/

/-- What a frame starts with. -/
def frameStart : Str := ['d', 'a', 't', 'a', ':', ' ']

/-- `sse_frame`. -/
def sseFrame (payload : JsonValue) : Str :=
  frameStart ++ (payload.json.write .default ++ ['\n', '\n'])

/-- The payload whose digest is the signature of a snapshot. -/
def snapshotPayload (events : List JsonValue) : JsonValue where
  json := .object [("events", .list (events.map JsonValue.json))]
  distinct := by
    refine ⟨by simp, ?_, trivial⟩
    refine Json.distinctKeysItems_iff.mpr (List.forall_mem_map.mpr fun event _ => ?_)
    exact event.distinct

/-- `state_signature`. -/
def stateSignature (H : Sha256) (events : List JsonValue) : Str :=
  canonicalDigest H (snapshotPayload events)

/-- The arguments of `event_stream`. -/
structure StreamOptions where
  queueSize : ℕ := 64
  maxIterations : Option ℕ := some 3600
  stopWhen : List JsonValue → Bool := fun _ => false

/-- What a tick finds: whether the client is gone, and what is polled, unless the poll raises. -/
structure Tick (α : Type) where
  disconnected : Bool
  found : Option α

/-- What is made of what is polled. -/
def Tick.map {α β : Type} (f : α → β) (tick : Tick α) : Tick β := ⟨tick.disconnected, tick.found.map f⟩

/-- The variables of the generator. -/
structure Stream where
  queue : List JsonValue := []
  lastSignature : Str := []
  iterations : ℕ := 0

/-- `queue.put_nowait` of one event after another, until the queue is full. -/
def putAll (queueSize : ℕ) : List JsonValue → List JsonValue → List JsonValue
  | queue, [] => queue
  | queue, event :: events =>
    if queueSize ≤ queue.length then queue else putAll queueSize (queue ++ [event]) events

namespace Stream

/-- `event_stream` up to its first tick: `ValueError` without room in the queue. -/
def start (options : StreamOptions) : Option Stream :=
  if options.queueSize < 1 then none else some {}

/-- One round of the loop: the frames of the tick, and the generator after it unless it ends. -/
def tick (H : Sha256) (options : StreamOptions) (stream : Stream) (poll : Tick (List JsonValue)) :
    List Str × Option Stream :=
  if options.maxIterations.any (· ≤ stream.iterations) then ([], none)
  else if poll.disconnected then ([], none)
  else
    match poll.found with
    | none => ([], none)
    | some events =>
      let signature := stateSignature H events
      let queue :=
        if signature ≠ stream.lastSignature then putAll options.queueSize stream.queue events
        else stream.queue
      -- The queue is emptied before the next tick.
      (queue.map sseFrame,
        if options.stopWhen events then none
        else some {
          queue := []
          lastSignature := signature
          iterations := stream.iterations + 1 })

/-- The frames of a generator over some ticks. -/
def emitted (H : Sha256) (options : StreamOptions) :
    Option Stream → List (Tick (List JsonValue)) → List Str
  | none, _ => []
  | some _, [] => []
  | some stream, poll :: ticks =>
    (stream.tick H options poll).1 ++ emitted H options (stream.tick H options poll).2 ticks

end Stream

/-! ## The client -/

/-- The buffers of an `EventSource`. -/
structure EventSource where
  line : Str := []
  /-- The last character was a carriage return, and a line feed after it ends no other line. -/
  afterReturn : Bool := false
  data : Str := []
  eventType : Str := []
  deriving DecidableEq

namespace EventSource

/-- The name and the value of a field: one space after the colon is not of the value. -/
def field (line : Str) : Str × Str :=
  match line.dropWhile (· ≠ ':') with
  | [] => (line, [])
  | _ :: ' ' :: value => (line.takeWhile (· ≠ ':'), value)
  | _ :: value => (line.takeWhile (· ≠ ':'), value)

/-- The end of a line: an empty line hands on the data for `onmessage`, and other lines are fields. -/
def endLine (source : EventSource) : EventSource × Option Str :=
  if source.line = [] then
    ({ source with data := [], eventType := [] },
      if source.data ≠ [] ∧ source.eventType ∈ [[], ['m', 'e', 's', 's', 'a', 'g', 'e']] then
        some source.data.dropLast
      else none)
  else
    let (name, value) := field source.line
    if name = ['d', 'a', 't', 'a'] then
      ({ source with line := [], data := source.data ++ (value ++ ['\n']) }, none)
    else if name = ['e', 'v', 'e', 'n', 't'] then ({ source with line := [], eventType := value }, none)
    -- Comments, identifiers, retry times and unknown fields.
    else ({ source with line := [] }, none)

/-- One character. -/
def feed (source : EventSource) (c : Char) : EventSource × Option Str :=
  if source.afterReturn ∧ c = '\n' then ({ source with afterReturn := false }, none)
  else if c = '\n' ∨ c = '\r' then endLine { source with afterReturn := c = '\r' }
  else ({ source with afterReturn := false, line := source.line ++ [c] }, none)

/-- A text, and the data handed on for it. -/
def receive : EventSource → Str → EventSource × List Str
  | source, [] => (source, [])
  | source, c :: s =>
    ((receive (source.feed c).1 s).1, (source.feed c).2.toList ++ (receive (source.feed c).1 s).2)

/-- The pieces of a text, and the data handed on for them. -/
def receivePieces : EventSource → List Str → EventSource × List Str
  | source, [] => (source, [])
  | source, piece :: pieces =>
    ((receivePieces (source.receive piece).1 pieces).1,
      (source.receive piece).2 ++ (receivePieces (source.receive piece).1 pieces).2)

theorem receive_append (source : EventSource) (s t : Str) :
    source.receive (s ++ t) =
      (((source.receive s).1.receive t).1,
        (source.receive s).2 ++ ((source.receive s).1.receive t).2) := by
  induction s generalizing source with
  | nil => rfl
  | cons c s ih => rw [List.cons_append, receive, receive, ih, List.append_assoc]

/-- **The pieces do not matter.** -/
theorem receivePieces_eq (source : EventSource) (pieces : List Str) :
    source.receivePieces pieces = source.receive pieces.flatten := by
  induction pieces generalizing source with
  | nil => rfl
  | cons piece pieces ih => rw [receivePieces, List.flatten_cons, receive_append, ih]

/-- The characters of a line are kept for its end. -/
theorem receive_line (source : EventSource) (hreturn : source.afterReturn = false) {s : Str}
    (hs : Uncontrolled s) : source.receive s = ({ source with line := source.line ++ s }, []) := by
  induction s generalizing source with
  | nil => rw [List.append_nil, receive]
  | cons c s ih =>
    have hc := hs c List.mem_cons_self
    have hend : ¬(c = '\n' ∨ c = '\r') := by
      rintro (rfl | rfl) <;> exact absurd hc (by decide)
    have hfeed : source.feed c =
        ({ source with afterReturn := false, line := source.line ++ [c] }, none) := by
      rw [feed, if_neg (by simp [hreturn]), if_neg hend]
    rw [receive, hfeed]
    dsimp only
    rw [ih _ rfl fun d hd => hs d (List.mem_cons_of_mem _ hd), List.append_assoc]
    simp only [Option.toList_none, List.nil_append, List.singleton_append, hreturn]

theorem field_frameStart (text : Str) : field (frameStart ++ text) = (['d', 'a', 't', 'a'], text) := by
  simp [field, frameStart]

/-- **A frame is received as the text of its event.** -/
theorem receive_frame (payload : JsonValue) :
    receive {} (sseFrame payload) = ({}, [payload.json.write .default]) := by
  have htext := uncontrolled_write .default payload.json
  have hline := receive_line {} rfl ((uncontrolled_of_all (s := frameStart) (by decide)).append htext)
  -- The first line feed ends the line of the data, and the second one the frame.
  have hdata : feed { line := frameStart ++ payload.json.write .default } '\n' =
      ({ data := payload.json.write .default ++ ['\n'] }, none) := by
    rw [feed, if_neg (by simp), if_pos (Or.inl rfl), endLine, if_neg (by simp [frameStart])]
    dsimp only
    rw [field_frameStart]
    dsimp only
    rw [if_pos rfl]
    simp
  have hdispatch : feed { data := payload.json.write .default ++ ['\n'] } '\n' =
      ({}, some (payload.json.write .default)) := by
    rw [feed, if_neg (by simp), if_pos (Or.inl rfl), endLine, if_pos rfl]
    simp
  rw [sseFrame, ← List.append_assoc, receive_append, hline]
  simp only [List.nil_append, receive, hdata, hdispatch, Option.toList_none, Option.toList_some,
    List.append_nil]

theorem receive_frames (payloads : List JsonValue) :
    receive {} (payloads.map sseFrame).flatten =
      ({}, payloads.map fun payload => payload.json.write .default) := by
  induction payloads with
  | nil => rfl
  | cons payload payloads ih =>
    rw [List.map_cons, List.flatten_cons, receive_append, receive_frame, ih]
    rfl

/-- What is handed on for the start of a text is handed on for the text. -/
theorem receive_prefix (source : EventSource) {s t : Str} (h : s <+: t) :
    (source.receive s).2 <+: (source.receive t).2 := by
  obtain ⟨rest, rfl⟩ := h
  rw [receive_append]
  exact List.prefix_append _ _

end EventSource

/-! ## What the client receives -/

section Polls

variable {α β : Type}

/-- What a tick looks at: nothing beyond the limit, without the client and where the poll raises. -/
def Tick.looked (limit : Option ℕ) (rounds : ℕ) (tick : Tick α) : Option α :=
  if limit.any (· ≤ rounds) ∨ tick.disconnected then none else tick.found

theorem Tick.looked_map (f : α → β) (limit : Option ℕ) (rounds : ℕ) (tick : Tick α) :
    (tick.map f).looked limit rounds = (tick.looked limit rounds).map f := by
  rw [looked, looked, Tick.map]
  split <;> rfl

/-- What is looked at, from the given number of rounds on: up to the first tick that looks at nothing, and
to the first snapshot at which the stream stops. -/
def polled (stop : α → Bool) (limit : Option ℕ) : ℕ → List (Tick α) → List α
  | _, [] => []
  | rounds, tick :: ticks =>
    match tick.looked limit rounds with
    | none => []
    | some found => found :: if stop found then [] else polled stop limit (rounds + 1) ticks

theorem polled_map (f : α → β) (stop : β → Bool) (limit : Option ℕ) (rounds : ℕ) (ticks : List (Tick α)) :
    polled stop limit rounds (ticks.map (Tick.map f)) =
      (polled (fun found => stop (f found)) limit rounds ticks).map f := by
  induction ticks generalizing rounds with
  | nil => rfl
  | cons tick ticks ih =>
    rw [List.map_cons, polled, polled, ih, Tick.looked_map]
    cases tick.looked limit rounds with
    | none => rfl
    | some found =>
      dsimp only [Option.map_some]
      split_ifs <;> rfl

/-- The first value is kept. -/
theorem destutter'_eq_cons (R : α → α → Prop) [DecidableRel R] (a : α) (l : List α) :
    l.destutter' R a = a :: (l.destutter' R a).tail := by
  induction l with
  | nil => rw [List.destutter'_nil, List.tail_cons]
  | cons b l ih =>
    by_cases hab : R a b
    · rw [List.destutter'_cons_pos _ hab, List.tail_cons]
    · rw [List.destutter'_cons_neg _ hab]
      exact ih

end Polls

/-- The snapshots have another canonical text. -/
def Changed (before after : List JsonValue) : Prop :=
  canonicalJson (snapshotPayload before) ≠ canonicalJson (snapshotPayload after)

instance : DecidableRel Changed := fun before after =>
  inferInstanceAs (Decidable (canonicalJson (snapshotPayload before) ≠ canonicalJson (snapshotPayload after)))

theorem stateSignature_ne_iff {H : Sha256} (hinjective : Function.Injective H.hexdigest)
    {before after : List JsonValue} :
    stateSignature H after ≠ stateSignature H before ↔ Changed before after := by
  rw [Changed, ne_comm, ne_eq, ne_eq, not_iff_not, stateSignature, stateSignature, canonicalDigest,
    canonicalDigest, List.append_cancel_left_eq, hinjective.eq_iff]

theorem putAll_eq (queueSize : ℕ) (queue events : List JsonValue) :
    putAll queueSize queue events = queue ++ events.take (queueSize - queue.length) := by
  induction events generalizing queue with
  | nil => rw [putAll, List.take_nil, List.append_nil]
  | cons event events ih =>
    rw [putAll]
    split_ifs with hfull
    · rw [Nat.sub_eq_zero_of_le hfull, List.take_zero, List.append_nil]
    · obtain ⟨room, hroom⟩ : ∃ room, queueSize - queue.length = room + 1 :=
        ⟨queueSize - queue.length - 1, by omega⟩
      rw [ih, List.length_append, List.length_singleton, hroom, List.take_succ_cons,
        show queueSize - (queue.length + 1) = room by omega, List.append_assoc]
      rfl

namespace Stream

variable {H : Sha256} {options : StreamOptions}

/-- A tick that looks at nothing ends the stream, and otherwise the events that it looks at are sent if they
are others than before. -/
theorem emitted_cons {stream : Stream} (hqueue : stream.queue = []) (poll : Tick (List JsonValue))
    (ticks : List (Tick (List JsonValue))) :
    emitted H options (some stream) (poll :: ticks) =
      match poll.looked options.maxIterations stream.iterations with
      | none => []
      | some events =>
        (if stateSignature H events ≠ stream.lastSignature then events.take options.queueSize
          else []).map sseFrame ++
          if options.stopWhen events then []
          else emitted H options (some ⟨[], stateSignature H events, stream.iterations + 1⟩) ticks := by
  have hnone : emitted H options none ticks = [] := by cases ticks <;> rfl
  rw [emitted, tick, Tick.looked]
  by_cases hlimit : options.maxIterations.any (· ≤ stream.iterations)
  · rw [if_pos hlimit, if_pos (Or.inl hlimit)]
    exact hnone
  · rw [if_neg hlimit]
    by_cases hgone : poll.disconnected
    · rw [if_pos hgone, if_pos (Or.inr hgone)]
      exact hnone
    · rw [if_neg hgone, if_neg (not_or.mpr ⟨hlimit, hgone⟩)]
      cases poll.found with
      | none => exact hnone
      | some events =>
        simp only [hqueue, putAll_eq, List.nil_append, List.length_nil, Nat.sub_zero]
        split_ifs <;> simp only [hnone]

/-- **The frames after a snapshot that was sent** are those of the snapshots that differ from the last
one sent before them, as far as there is room for their events. -/
theorem emitted_eq (hinjective : Function.Injective H.hexdigest) {last : List JsonValue} (rounds : ℕ)
    (ticks : List (Tick (List JsonValue))) :
    emitted H options (some ⟨[], stateSignature H last, rounds⟩) ticks =
      (((polled options.stopWhen options.maxIterations rounds ticks).destutter' Changed last).tail.flatMap
        (List.take options.queueSize)).map sseFrame := by
  induction ticks generalizing last rounds with
  | nil =>
    rw [polled, List.destutter'_nil]
    rfl
  | cons poll ticks ih =>
    rw [emitted_cons rfl, polled]
    cases poll.looked options.maxIterations rounds with
    | none =>
      rw [List.destutter'_nil]
      rfl
    | some events =>
      dsimp only
      by_cases hchanged : Changed last events
      · rw [if_pos ((stateSignature_ne_iff hinjective).mpr hchanged),
          List.destutter'_cons_pos _ hchanged, List.tail_cons, destutter'_eq_cons,
          List.flatMap_cons, List.map_append]
        congr 1
        split_ifs
        · rw [List.destutter'_nil]
          rfl
        · exact ih (rounds + 1)
      · -- An unchanged snapshot has the signature of the last one that was sent.
        have hsame : stateSignature H events = stateSignature H last := by
          by_contra hne
          exact hchanged ((stateSignature_ne_iff hinjective).mp hne)
        rw [if_neg (not_not.mpr hsame), List.destutter'_cons_neg _ hchanged, hsame]
        split_ifs
        · rw [List.destutter'_nil]
          rfl
        · exact ih (rounds + 1)

/-- The events to send: the first ones of every snapshot that differs from the last one sent before it, as
far as there is room in the queue. -/
def sentEvents (options : StreamOptions) (ticks : List (Tick (List JsonValue))) : List JsonValue :=
  ((polled options.stopWhen options.maxIterations 0 ticks).destutter Changed).flatMap
    (List.take options.queueSize)

/-- The frames from the start on: the first snapshot is sent. -/
theorem emitted_start (hinjective : Function.Injective H.hexdigest)
    (ticks : List (Tick (List JsonValue))) :
    emitted H options (start options) ticks = (sentEvents options ticks).map sseFrame := by
  rw [sentEvents]
  by_cases hsize : options.queueSize < 1
  · -- Without room in the queue nothing is sent.
    have hnone : ∀ sent : List (List JsonValue), sent.flatMap (List.take options.queueSize) = [] := by
      intro sent
      rw [Nat.lt_one_iff.mp hsize]
      simp
    rw [start, if_pos hsize, hnone]
    cases ticks <;> rfl
  · rw [start, if_neg hsize]
    cases ticks with
    | nil => rfl
    | cons poll ticks =>
      rw [emitted_cons rfl, polled]
      cases poll.looked options.maxIterations 0 with
      | none => rfl
      | some events =>
        have hsigned : stateSignature H events ≠ [] :=
          List.append_ne_nil_of_left_ne_nil (List.cons_ne_nil _ _) _
        dsimp only
        rw [if_pos hsigned, List.destutter_cons', destutter'_eq_cons, List.flatMap_cons, List.map_append]
        congr 1
        split_ifs
        · rw [List.destutter'_nil]
          rfl
        · exact emitted_eq hinjective 1 ticks

end Stream

/-- **What the client receives**, whatever the pieces that the network cuts the stream into: the texts of
the events that are to be sent, in their order. Of a stream that breaks off it receives a start of them. -/
theorem receive_emitted {H : Sha256} (hinjective : Function.Injective H.hexdigest)
    (options : StreamOptions) (ticks : List (Tick (List JsonValue))) {pieces : List Str}
    (hpieces : pieces.flatten <+: (Stream.emitted H options (Stream.start options) ticks).flatten) :
    (EventSource.receivePieces {} pieces).2 <+:
        (Stream.sentEvents options ticks).map (fun event => event.json.write .default) ∧
      (pieces.flatten = (Stream.emitted H options (Stream.start options) ticks).flatten →
        (EventSource.receivePieces {} pieces).2 =
          (Stream.sentEvents options ticks).map fun event => event.json.write .default) := by
  have hall : (EventSource.receive {}
      (Stream.emitted H options (Stream.start options) ticks).flatten).2 =
        (Stream.sentEvents options ticks).map fun event => event.json.write .default := by
    rw [Stream.emitted_start hinjective, EventSource.receive_frames]
  rw [EventSource.receivePieces_eq, ← hall]
  refine ⟨EventSource.receive_prefix {} hpieces, fun heq => ?_⟩
  rw [heq]

/-- Three polls, the second one like the first: the queue has room for one event, and the network cuts
the text in a frame. -/
theorem receive_emitted_pieces :
    ∃ text : Str, (EventSource.receivePieces {} [text.take 9, text.drop 9]).2 =
      ["\x7b\"n\": 1\x7d".toList, "\x7b\"n\": 2\x7d".toList] := by
  let event : ℤ → JsonValue := fun n => ⟨.object [("n", .int n)], ⟨by simp, trivial, trivial⟩⟩
  let ticks : List (Tick (List JsonValue)) :=
    [⟨false, some [event 1, event 3]⟩, ⟨false, some [event 1, event 3]⟩, ⟨false, some [event 2]⟩]
  let options : StreamOptions := { queueSize := 1 }
  let text := (Stream.emitted codeDigest options (Stream.start options) ticks).flatten
  have hpieces : [text.take 9, text.drop 9].flatten = text := by simp
  have hprefix : [text.take 9, text.drop 9].flatten <+: text := by rw [hpieces]
  have hreceived := (receive_emitted injective_codeDigest options ticks hprefix).2 hpieces
  refine ⟨text, hreceived.trans ?_⟩
  decide +kernel

/-! ## The endpoint of an assessment -/

/-- `_TERMINAL_ASSESSMENT_STATUSES`. -/
def terminalStatuses : List String := ["completed", "partial", "failed", "cancelled", "rejected"]

/-- The status in a snapshot of an assessment. -/
def statusOf (assessmentId : String) (repo : Repositories) : String :=
  match repo.assessments.get? assessmentId with
  | none => "not_found"
  | some assessment => assessment.status.value

/-- The event of a status. -/
def statusEvent (assessmentId status : String) : JsonValue where
  json := .object [("assessment_id", .text assessmentId), ("status", .text status)]
  distinct := ⟨by simp, trivial, trivial, trivial⟩

/-- `snapshot` of `assessment_events`. -/
def statusEvents (assessmentId : String) (repo : Repositories) : List JsonValue :=
  [statusEvent assessmentId (statusOf assessmentId repo)]

/-- A status after which the stream stops. -/
def stopsAtStatus (status : String) : Bool := status == "not_found" || status ∈ terminalStatuses

/-- `stop_when` of `assessment_events`, on objects with a text as their status. -/
def stopsAt : List JsonValue → Bool
  | [] => false
  | event :: _ =>
    match event.json with
    | .object fields =>
      match Dict.lookup "status" fields with
      | some (.text status) => stopsAtStatus status
      | _ => false
    | _ => false

/-- `assessment_events`. -/
def statusOptions : StreamOptions := { stopWhen := stopsAt }

/-- What the client of an assessment receives. -/
def receivedStatuses (H : Sha256) (assessmentId : String) (ticks : List (Tick Repositories)) : List Str :=
  (EventSource.receive {} (Stream.emitted H statusOptions (Stream.start statusOptions)
    (ticks.map (Tick.map (statusEvents assessmentId)))).flatten).2

/-- The statuses that are polled. -/
def polledStatuses (assessmentId : String) (ticks : List (Tick Repositories)) : List String :=
  (polled (fun repo => stopsAtStatus (statusOf assessmentId repo)) statusOptions.maxIterations 0
    ticks).map (statusOf assessmentId)

theorem changed_statusEvent {assessmentId status status' : String} :
    Changed [statusEvent assessmentId status] [statusEvent assessmentId status'] ↔
      status ≠ status' := by
  rw [Changed, ne_eq, canonicalJson_eq_iff, ne_eq, not_iff_not]
  constructor
  · intro h
    have hcanonical := h.canonical_eq (snapshotPayload _).distinct
    simpa [snapshotPayload, statusEvent, Json.canonical, Json.canonicalItems, Json.canonicalFields,
      List.insertionSort, List.orderedInsert, KeyLe] using hcanonical
  · rintro rfl
    exact (canonicalJson_eq_iff _ _).mp rfl

/-- The statuses that are received are those that are polled, once for each change. -/
theorem receivedStatuses_eq {H : Sha256} (hinjective : Function.Injective H.hexdigest)
    (assessmentId : String) (ticks : List (Tick Repositories)) :
    receivedStatuses H assessmentId ticks = ((polledStatuses assessmentId ticks).destutter (· ≠ ·)).map
      fun status => (statusEvent assessmentId status).json.write .default := by
  rw [receivedStatuses, Stream.emitted_start hinjective, EventSource.receive_frames, Stream.sentEvents,
    polled_map]
  have hstatuses : (polled (fun repo => stopsAt (statusEvents assessmentId repo))
      statusOptions.maxIterations 0 ticks).map (statusEvents assessmentId) =
        (polledStatuses assessmentId ticks).map fun status => [statusEvent assessmentId status] := by
    rw [polledStatuses, List.map_map]
    rfl
  rw [show statusOptions.stopWhen = stopsAt from rfl, hstatuses,
    ← List.map_destutter (R := (· ≠ ·)) fun status _ status' _ => changed_statusEvent.symm,
    List.flatMap_map]
  have hsingle : ∀ statuses : List String,
      (statuses.flatMap fun status =>
        List.take statusOptions.queueSize [statusEvent assessmentId status]) =
          statuses.map (statusEvent assessmentId) := by
    intro statuses
    exact List.flatMap_pure_eq_map _ _
  rw [hsingle, List.map_map]
  rfl

/-- The last value is kept, or one that is equal to it. -/
theorem getLast?_destutter (l : List String) : (l.destutter (· ≠ ·)).getLast? = l.getLast? := by
  have hkept : ∀ (l : List String) (a : String),
      (l.destutter' (· ≠ ·) a).getLast? = (a :: l).getLast? := by
    intro l
    induction l with
    | nil =>
      intro a
      rw [List.destutter'_nil]
    | cons b l ih =>
      intro a
      by_cases hab : a ≠ b
      · have hhead := destutter'_eq_cons (· ≠ ·) b l
        rw [List.destutter'_cons_pos _ hab, List.getLast?_cons_cons, ← ih b, hhead,
          List.getLast?_cons_cons]
      · obtain rfl := not_not.mp hab
        rw [List.destutter'_cons_neg _ hab, ih a, List.getLast?_cons_cons]
  cases l with
  | nil => rfl
  | cons a l =>
    rw [List.destutter_cons']
    exact hkept l a

theorem stopsAtStatus_iff (status : AssessmentStatus) :
    stopsAtStatus status.value = true ↔ status.isTerminal = true := by
  cases status <;> decide

section Final

variable {U : Unicode} {D : CanonicalDigest} {service : AssessmentService} {repo repo' : Repositories}
  {assessmentId : String}

/-- There is a row for the assessment. -/
def AssessmentExists (assessmentId : String) (repo : Repositories) : Prop :=
  ∃ row, repo.assessments.get? assessmentId = some row

/-- An assessment is not removed. -/
theorem assessment_kept (h : OperationSequence U D service repo repo')
    (hrow : AssessmentExists assessmentId repo) : AssessmentExists assessmentId repo' := by
  refine h.invariant hrow ?_
  rintro repo₁ call repo₂ ⟨row, hsome⟩ hfresh hstep
  obtain ⟨row', hrow', -⟩ := row_after hfresh hsome
  cases hstep
  exact ⟨row', hrow'⟩

/-- The stream stops at an assessment in a terminal status only. -/
theorem stops_iff (hrow : AssessmentExists assessmentId repo) :
    stopsAtStatus (statusOf assessmentId repo) = true ↔
      ∃ row, repo.assessments.get? assessmentId = some row ∧ row.status.isTerminal = true := by
  obtain ⟨row, hsome⟩ := hrow
  rw [statusOf, hsome]
  dsimp only
  rw [stopsAtStatus_iff]
  constructor
  · exact fun h => ⟨row, rfl, h⟩
  · rintro ⟨row', heq, h⟩
    rwa [Option.some.inj heq]

/-- The polls of a connected client, up to the first one at which the stream stops. -/
theorem polled_connected {α : Type} {stop : α → Bool} {limit rounds : ℕ} {founds : List α}
    (hlimit : rounds + founds.length ≤ limit) (hstop : ∃ found ∈ founds, stop found = true)
    (ticks : List (Tick α)) :
    ∃ before last after, founds = before ++ last :: after ∧ stop last = true ∧
      (∀ found ∈ before, stop found = false) ∧
      polled stop (some limit) rounds (founds.map (fun found => ⟨false, some found⟩) ++ ticks) =
        before ++ [last] := by
  induction founds generalizing rounds with
  | nil =>
    obtain ⟨found, hfound, -⟩ := hstop
    cases hfound
  | cons first founds ih =>
    rw [List.length_cons] at hlimit
    have hlooked : (⟨false, some first⟩ : Tick α).looked (some limit) rounds = some first := by
      have hrounds : ¬ limit ≤ rounds := by omega
      simp [Tick.looked, hrounds]
    have hpolled : polled stop (some limit) rounds
        ((first :: founds).map (fun found => ⟨false, some found⟩) ++ ticks) =
          first :: if stop first then [] else
            polled stop (some limit) (rounds + 1) (founds.map (fun found => ⟨false, some found⟩) ++ ticks) := by
      rw [List.map_cons, List.cons_append, polled, hlooked]
    cases hfirst : stop first with
    | true =>
      refine ⟨[], first, founds, rfl, hfirst, by simp, ?_⟩
      rw [hpolled, hfirst, if_pos rfl]
      rfl
    | false =>
      have hmore : ∃ found ∈ founds, stop found = true := by
        obtain ⟨found, hfound, htrue⟩ := hstop
        rcases List.mem_cons.mp hfound with rfl | hfound
        · rw [hfirst] at htrue
          cases htrue
        · exact ⟨found, hfound, htrue⟩
      obtain ⟨before, last, after, rfl, hlast, hbefore, hrest⟩ :=
        ih (show rounds + 1 + founds.length ≤ limit by omega) hmore
      refine ⟨first :: before, last, after, rfl, hlast, ?_, ?_⟩
      · exact List.forall_mem_cons.mpr ⟨hfirst, hbefore⟩
      · rw [hpolled, hfirst, if_neg Bool.false_ne_true, hrest]
        rfl

theorem statusOf_eq {status : AssessmentStatus} (h : AssessmentHas assessmentId status repo) :
    statusOf assessmentId repo = status.value := by
  obtain ⟨row, hrow, rfl⟩ := h
  rw [statusOf, hrow]

theorem loads_statusEvent {depth : ℕ} (hdepth : 1 ≤ depth) (status : String) :
    JsonDecoder.loads depth ((statusEvent assessmentId status).json.write .default) =
      .ok (statusEvent assessmentId status).json.decoded := by
  have hwritable : (statusEvent assessmentId status).json.Writable := ⟨trivial, trivial, trivial⟩
  exact JsonDecoder.loads_written .default hwritable hdepth

/-- **A connected client sees every status that is polled**, once for each change, up to the first
terminal one, and the stream ends there: the assessment keeps that status from then on. -/
theorem received_statuses {H : Sha256} (hinjective : Function.Injective H.hexdigest)
    {repos : List Repositories} (hruns : repos.Pairwise (OperationSequence U D service))
    (hlimit : repos.length ≤ 3600) (hexists : ∀ repo ∈ repos.head?, AssessmentExists assessmentId repo)
    {status : AssessmentStatus} (hterminal : status.isTerminal = true)
    (hfinal : ∃ repo ∈ repos, AssessmentHas assessmentId status repo) (rest : List (Tick Repositories))
    {depth : ℕ} (hdepth : 1 ≤ depth) :
    ∃ seen last unseen, repos = seen ++ last :: unseen ∧
      (∀ repo ∈ seen, ∀ row, repo.assessments.get? assessmentId = some row →
        row.status.isTerminal = false) ∧
      (receivedStatuses H assessmentId (repos.map (fun repo => ⟨false, some repo⟩) ++ rest)).map
          (JsonDecoder.loads depth) =
        (((seen ++ [last]).map (statusOf assessmentId)).destutter (· ≠ ·)).map
          (fun shown => .ok (statusEvent assessmentId shown).json.decoded) ∧
      (((seen ++ [last]).map (statusOf assessmentId)).destutter (· ≠ ·)).getLast? = some status.value ∧
      ∀ later, OperationSequence U D service last later → AssessmentHas assessmentId status later := by
  -- The assessment is there at every poll, as it is at the first one.
  have hall : ∀ repo ∈ repos, AssessmentExists assessmentId repo := by
    cases repos with
    | nil => simp
    | cons first repos =>
      have hfirst := hexists first rfl
      refine List.forall_mem_cons.mpr ⟨hfirst, fun repo hrepo => ?_⟩
      exact assessment_kept (List.rel_of_pairwise_cons hruns hrepo) hfirst
  obtain ⟨final, hmem, row, hrow, rfl⟩ := hfinal
  have hstop : ∃ repo ∈ repos, stopsAtStatus (statusOf assessmentId repo) = true :=
    ⟨final, hmem, (stops_iff (hall final hmem)).mpr ⟨row, hrow, hterminal⟩⟩
  obtain ⟨seen, last, unseen, rfl, hlast, hseen, hpolled⟩ :=
    polled_connected (show 0 + repos.length ≤ 3600 by omega) hstop rest
  obtain ⟨lastRow, hlastRow, hlastTerminal⟩ :=
    (stops_iff (hall last (List.mem_append_right _ List.mem_cons_self))).mp hlast
  -- The final status is the one at which the stream stops: a terminal status is kept.
  have hstatus : lastRow.status = row.status := by
    rcases List.mem_append.mp hmem with hbefore | hafter
    · have hfalse := hseen final hbefore
      rw [(stops_iff (hall final hmem)).mpr ⟨row, hrow, hterminal⟩] at hfalse
      cases hfalse
    · rcases List.mem_cons.mp hafter with rfl | hafter
      · rw [hlastRow] at hrow
        rw [Option.some.inj hrow]
      · have hrun := List.rel_of_pairwise_cons (List.pairwise_append.mp hruns).2.1 hafter
        obtain ⟨row', hrow', hkept⟩ := terminal_kept hrun hlastRow hlastTerminal
        rw [hrow] at hrow'
        rw [← hkept, Option.some.inj hrow']
  have hhas : AssessmentHas assessmentId row.status last := ⟨lastRow, hlastRow, hstatus⟩
  refine ⟨seen, last, unseen, rfl, ?_, ?_, ?_, ?_⟩
  · intro repo hrepo seenRow hseenRow
    have hfalse := hseen repo hrepo
    by_contra htrue
    rw [(stops_iff (hall repo (List.mem_append_left _ hrepo))).mpr
      ⟨seenRow, hseenRow, Bool.eq_true_of_not_eq_false htrue⟩] at hfalse
    cases hfalse
  · have hstatuses : polledStatuses assessmentId
        ((seen ++ last :: unseen).map (fun repo => ⟨false, some repo⟩) ++ rest) =
          (seen ++ [last]).map (statusOf assessmentId) := by
      rw [polledStatuses, ← hpolled]
      rfl
    rw [receivedStatuses_eq hinjective, hstatuses, List.map_map]
    exact List.map_congr_left fun shown _ => loads_statusEvent hdepth shown
  · rw [getLast?_destutter, List.map_append, List.map_singleton, List.getLast?_concat, statusOf_eq hhas]
  · intro later hlater
    obtain ⟨row', hrow', hkept⟩ := terminal_kept hlater hlastRow hlastTerminal
    exact ⟨row', hrow', hkept.trans hstatus⟩

end Final

/-- An assessment that is polled while it runs and after its completion. -/
theorem received_statuses_completed :
    ∃ repos seen last unseen, repos.length = 2 ∧ repos = seen ++ last :: unseen ∧
      (receivedStatuses codeDigest "asm-1" (repos.map (fun repo => ⟨false, some repo⟩) ++ [])).map
          (JsonDecoder.loads 1) =
        (((seen ++ [last]).map (statusOf "asm-1")).destutter (· ≠ ·)).map
          (fun shown => .ok (statusEvent "asm-1" shown).json.decoded) ∧
      (((seen ++ [last]).map (statusOf "asm-1")).destutter (· ≠ ·)).getLast? = some "completed" := by
  let step := afterCall .ascii sampleDigest {}
  let running := (runLabels step {} (completedRun.take 6)).getD {}
  let completed := (perform .ascii sampleDigest {} (.complete "asm-1") running).2
  have hfresh : (ServiceCall.complete "asm-1").TokenFresh running := trivial
  have hsequence : OperationSequence .ascii sampleDigest {} running completed := .tail .refl hfresh rfl
  have hruns : [running, completed].Pairwise (OperationSequence .ascii sampleDigest {}) := by
    refine .cons (fun repo hrepo => ?_) (List.pairwise_singleton _ _)
    rw [List.mem_singleton.mp hrepo]
    exact hsequence
  have hexists : ∀ repo ∈ [running, completed].head?, AssessmentExists "asm-1" repo := by
    rintro repo ⟨⟩
    exact Option.isSome_iff_exists.mp (by decide +kernel)
  have hcompleted : (completed.assessments.get? "asm-1").map Assessment.status = some .completed := by
    decide +kernel
  obtain ⟨row, hrow, hstatus⟩ := Option.map_eq_some_iff.mp hcompleted
  obtain ⟨seen, last, unseen, hsplit, -, hreceived, hlast, -⟩ :=
    received_statuses injective_codeDigest hruns (by simp) hexists rfl
      ⟨completed, by simp, row, hrow, hstatus⟩ [] (le_refl 1)
  exact ⟨_, seen, last, unseen, rfl, hsplit, hreceived, hlast⟩

end SecOpent
