import SecOpent.Execution.Permits
import SecOpent.ReasoningLoop.Actions

/-!
# The permit gate of the reasoning loop

`application/reasoning_loop/permit_gate.py` on `infrastructure/permits/permit_signer.py`: the gate
signs a permit with a fresh nonce for an action in its context, and the scope digest of the permit is
the digest of both. The gate can check later that a permit is one that it issued for the action; the
verifier alone asks for the signature, the expiry, the nonces that it is told of and the worker.

## Main definitions

* `LoopPermit`, `PermitKey`: a permit with its capabilities, and the key pair
* `PermitKey.issue`, `PermitKey.verify`
* `PermitGate.check`, `PermitGate.verify`
* `Issuance`: a permit together with what it was issued for
* `PermitGate.after`: the gate after a call of `check`

## Main results

* `verify_some`: the verifier is the one of `Permits.lean`
* `issued_after`: the permits that calls leave in the gate
* `verify_after_iff`: when a permit is accepted after any calls
-/

namespace SecOpent

open Python

/-! ## Permits -/

/-- `ExecutionPermit` with its capabilities; its budget, 0 for a loop, is left out. -/
structure LoopPermit extends ExecutionPermit where
  capabilities : List String
  deriving DecidableEq

/-- `ExecutionPermit.__post_init__`. -/
def LoopPermit.validate (permit : LoopPermit) : Except String Unit :=
  if permit.jobId = "" then .error "ExecutionPermit.job_id must be non-empty"
  else if permit.workerId = "" then .error "ExecutionPermit.worker_id must be non-empty"
  else if permit.nonce = "" then .error "ExecutionPermit.nonce must be non-empty"
  else if permit.expiresAt ≤ permit.issuedAt then
    .error "ExecutionPermit.expires_at must be after issued_at"
  else .ok ()

/-- The Ed25519 keys of a deployment: the signature of the signing payload of a permit, and whether
the signature of a permit verifies. -/
structure PermitKey where
  sign : LoopPermit → String
  verifies : LoopPermit → Bool
  verifies_sign : ∀ permit : LoopPermit,
    verifies { permit with signature := sign permit } = true

namespace PermitKey

variable (key : PermitKey)

/-- `PermitSigner.issue`. -/
def issue (permit : LoopPermit) : LoopPermit := { permit with signature := key.sign permit }

/-- `PermitVerifier.verify`. -/
def verify (permit : LoopPermit) (now : Time) (usedNonces : List String)
    (expectedWorker : Option String) : Except PermitError Unit :=
  if !key.verifies permit then .error .signatureInvalid
  else if permit.expiresAt ≤ now then .error .expired
  else if permit.nonce ∈ usedNonces then .error .replayed
  else if expectedWorker.any (permit.workerId != ·) then .error .workerMismatch
  else .ok ()

/-- The key on permits with these capabilities. -/
def restrict (capabilities : List String) : PermitSignature where
  sign permit := key.sign ⟨permit, capabilities⟩
  verifies permit := key.verifies ⟨permit, capabilities⟩

/-- With a worker to expect, the verifier is the one that guards the adapters. -/
theorem verify_some (permit : LoopPermit) (now : Time) (usedNonces : List String) (worker : String) :
    key.verify permit now usedNonces (some worker) =
      (key.restrict permit.capabilities).verify permit.toExecutionPermit now usedNonces worker := by
  simp [verify, PermitSignature.verify, restrict]

end PermitKey

/-! ## The gate -/

/-- `_LOOP_WORKER_ID`. -/
def loopWorkerId : String := "reasoning-loop"

variable (H : Sha256) (key : PermitKey)

/-- `_loop_job_id`. -/
def loopJobId (context : LoopContext) : String :=
  "loop-" ++ String.ofList ((context.contextHash H).take 12)

/-- `_request_digest`. -/
def requestDigest (action : ProposeAction) (context : LoopContext) : String :=
  let body : Json :=
    .object
      [("action", action.modelDump),
        ("context_hash", .text (String.ofList (context.contextHash H)))]
  String.ofList (sha256Tag ++ H.hexdigest body.dumps)

/-- The permit that `check` builds, before it is signed. -/
def loopPermit (ttl : Time) (now : Time) (nonce : String) (action : ProposeAction)
    (context : LoopContext) : LoopPermit where
  jobId := loopJobId H context
  workerId := loopWorkerId
  scopeDigest := requestDigest H action context
  planDigest := String.ofList (sha256Tag ++ context.contextHash H)
  capabilities := [action.capability]
  issuedAt := now
  expiresAt := now + ttl
  nonce := nonce

/-- `PermitGateImpl`: the life of a permit, in seconds, and the permits that were issued by their
ids. -/
structure PermitGate where
  ttlSeconds : ℤ
  issued : Dict String LoopPermit := .empty

/-- The id of a permit. -/
def permitIdOf (nonce : String) : String := "permit-" ++ String.ofList (nonce.toList.take 8)

namespace PermitGate

variable (gate : PermitGate)

/-- `check`, with the token that `secrets` gives it. -/
def check (now : Time) (nonce : String) (action : ProposeAction) (context : LoopContext) :
    Except String (GateVerdict × PermitGate) := do
  let permit := loopPermit H (gate.ttlSeconds * 1000000) now nonce action context
  permit.validate
  let verdict : GateVerdict :=
    { passed := true
      reason := "permit_signed"
      permitId := some (permitIdOf nonce)
      permitTtlSeconds := some gate.ttlSeconds }
  pure (verdict, { gate with issued := gate.issued.set (permitIdOf nonce) (key.issue permit) })

/-- `verify`: any error of the verifier is a refusal. -/
def verify (now : Time) (permitId : String) (action : ProposeAction) (context : LoopContext) : Bool :=
  match gate.issued.get? permitId with
  | none => false
  | some permit =>
    if requestDigest H action context != permit.scopeDigest then false
    else (key.verify permit now [] none).isOk

end PermitGate

/-! ## Issued permits -/

/-- What a permit was issued for: the action in its context, for how long and with which nonce. -/
structure Issuance where
  action : ProposeAction
  context : LoopContext
  ttl : Time
  issuedAt : Time
  nonce : String
  ttl_pos : 0 < ttl
  nonce_ne : nonce ≠ ""

/-- The signed permit. -/
def Issuance.permit (issuance : Issuance) : LoopPermit :=
  key.issue (loopPermit H issuance.ttl issuance.issuedAt issuance.nonce issuance.action
    issuance.context)

/-- A call of `check`, with the time and the token that it is given. -/
structure PermitCheck where
  now : Time
  nonce : String
  action : ProposeAction
  context : LoopContext

/-- The signed permit of a call. -/
def PermitCheck.permit (ttlSeconds : ℤ) (call : PermitCheck) : LoopPermit :=
  key.issue (loopPermit H (ttlSeconds * 1000000) call.now call.nonce call.action call.context)

/-- The call issues a permit with this id. -/
def PermitCheck.Issues (permitId : String) (call : PermitCheck) : Bool :=
  call.nonce != "" && permitIdOf call.nonce == permitId

/-- The gate after a call; one that raises issues nothing. -/
def PermitGate.after (gate : PermitGate) (call : PermitCheck) : PermitGate :=
  match gate.check H key call.now call.nonce call.action call.context with
  | .ok (_, gate') => gate'
  | .error _ => gate

section Gate

variable {H} {key} {gate : PermitGate} {now : Time} {nonce permitId : String} {action : ProposeAction}
  {context : LoopContext} {call : PermitCheck} {ttlSeconds : ℤ}

theorem validate_loopPermit (ttl : Time) :
    (loopPermit H ttl now nonce action context).validate = .ok () ↔ nonce ≠ "" ∧ 0 < ttl := by
  have hjob : (loopPermit H ttl now nonce action context).jobId ≠ "" := by
    intro h
    have hlength := congrArg String.length h
    simp [loopPermit, loopJobId] at hlength
  have hworker : (loopPermit H ttl now nonce action context).workerId ≠ "" := by
    simp [loopPermit, loopWorkerId]
  rw [LoopPermit.validate, if_neg hjob, if_neg hworker]
  by_cases hnonce : nonce = ""
  · simp [loopPermit, hnonce]
  · by_cases httl : 0 < ttl
    · have hexpires : ¬now + ttl ≤ now := not_le.mpr (lt_add_of_pos_right now httl)
      simp [loopPermit, hnonce, httl, hexpires]
    · have hexpires : now + ttl ≤ now := add_le_of_nonpos_right (not_lt.mp httl)
      simp [loopPermit, hnonce, httl, hexpires]

/-- The gate issues a permit under its id, unless the life of a permit is not positive. -/
theorem after_eq : gate.after H key call =
    if call.nonce ≠ "" ∧ 0 < gate.ttlSeconds then
      { gate with issued := gate.issued.set (permitIdOf call.nonce) (call.permit H key gate.ttlSeconds) }
    else gate := by
  have hpositive : 0 < gate.ttlSeconds * 1000000 ↔ 0 < gate.ttlSeconds := by omega
  have hvalid := @validate_loopPermit H call.now call.nonce call.action call.context
    (gate.ttlSeconds * 1000000)
  rw [hpositive] at hvalid
  rw [PermitGate.after, PermitGate.check]
  cases hresult : (loopPermit H (gate.ttlSeconds * 1000000) call.now call.nonce call.action
      call.context).validate with
  | error error =>
    rw [hresult] at hvalid
    rw [if_neg fun h => absurd (hvalid.mpr h) (by simp)]
    rfl
  | ok value =>
    rw [hresult] at hvalid
    rw [if_pos (hvalid.mp rfl)]
    rfl

/-- Under an id there is the permit of the last call that issued one. -/
theorem issued_after (calls : List PermitCheck) :
    (calls.foldl (PermitGate.after H key) { ttlSeconds }).ttlSeconds = ttlSeconds ∧
      (calls.foldl (PermitGate.after H key) { ttlSeconds }).issued.get? permitId =
        if 0 < ttlSeconds then
          (calls.reverse.find? (PermitCheck.Issues permitId)).map (PermitCheck.permit H key ttlSeconds)
        else none := by
  induction calls using List.reverseRecOn with
  | nil => simp
  | append_singleton calls last ih =>
    obtain ⟨httl, hissued⟩ := ih
    rw [List.foldl_concat, List.reverse_concat, List.find?_cons, after_eq, httl]
    by_cases hlast : last.nonce ≠ "" ∧ 0 < ttlSeconds
    · rw [if_pos hlast, if_pos hlast.2]
      rw [if_pos hlast.2] at hissued
      refine ⟨rfl, ?_⟩
      rw [Dict.get?_set]
      by_cases hid : permitId = permitIdOf last.nonce
      · rw [if_pos hid, show last.Issues permitId = true by simp [PermitCheck.Issues, hid, hlast.1]]
        rfl
      · rw [if_neg hid, hissued, show last.Issues permitId = false by
          simp [PermitCheck.Issues, Ne.symm hid]]
    · rw [if_neg hlast]
      refine ⟨httl, hissued.trans ?_⟩
      by_cases hpositive : 0 < ttlSeconds
      · -- A call without a token raises.
        have hnonce : last.nonce = "" := not_not.mp fun hne => hlast ⟨hne, hpositive⟩
        rw [if_pos hpositive, if_pos hpositive, show last.Issues permitId = false by
          simp [PermitCheck.Issues, hnonce]]
      · rw [if_neg hpositive, if_neg hpositive]

/-- The gate accepts a permit for the action and context with its digest, until it expires. -/
theorem verify_permit (h : gate.issued.get? permitId = some (call.permit H key ttlSeconds)) :
    gate.verify H key now permitId action context = true ↔
      requestDigest H action context = requestDigest H call.action call.context ∧
        now < call.now + ttlSeconds * 1000000 := by
  have hscope : (call.permit H key ttlSeconds).scopeDigest = requestDigest H call.action call.context := rfl
  have hexpires : (call.permit H key ttlSeconds).expiresAt = call.now + ttlSeconds * 1000000 := rfl
  have hsigned : key.verifies (call.permit H key ttlSeconds) = true := key.verifies_sign _
  have hverify : (key.verify (call.permit H key ttlSeconds) now [] none).isOk = true ↔
      now < call.now + ttlSeconds * 1000000 := by
    rw [PermitKey.verify, hsigned, hexpires]
    by_cases hexpired : call.now + ttlSeconds * 1000000 ≤ now
    · simp [hexpired, Except.isOk, Except.toBool]
    · simp [hexpired, Except.isOk, Except.toBool, not_le.mp hexpired]
  simp only [PermitGate.verify, h, hscope]
  by_cases hdigest : requestDigest H action context = requestDigest H call.action call.context
  · simp [hdigest, hverify]
  · simp [hdigest]

/-- **A permit is good for what was issued last under its id**: after any calls of `check`, some of which
raise, `verify` accepts an id for an action and a context exactly if the last call that issued a permit
with this id did so for the same digest, and less than the life of a permit ago. -/
theorem verify_after_iff (calls : List PermitCheck) :
    (calls.foldl (PermitGate.after H key) { ttlSeconds }).verify H key now permitId action context = true ↔
      0 < ttlSeconds ∧ ∃ call, calls.reverse.find? (PermitCheck.Issues permitId) = some call ∧
        requestDigest H action context = requestDigest H call.action call.context ∧
        now < call.now + ttlSeconds * 1000000 := by
  have hissued := (@issued_after H key permitId ttlSeconds calls).2
  by_cases httl : 0 < ttlSeconds
  · rw [if_pos httl] at hissued
    cases hfind : calls.reverse.find? (PermitCheck.Issues permitId) with
    | none =>
      rw [hfind] at hissued
      simp [PermitGate.verify, hissued]
    | some call =>
      rw [hfind] at hissued
      rw [verify_permit hissued]
      simp [httl]
  · rw [if_neg httl] at hissued
    simp [PermitGate.verify, hissued, httl]

end Gate

end SecOpent
