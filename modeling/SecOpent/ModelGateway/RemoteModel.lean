import Mathlib.Algebra.Order.Field.Rat
import SecOpent.Python.Json
import SecOpent.Scope.Snapshot

/-!
# Governed model calls

`application/remote_model.py`: a prompt is classified, redacted and measured, and goes to the remote
backend if the caller prefers it and the limits allow it, or else to the local one. One counter and one
list of times serve the calls of both backends, over the whole life of the gateway.

## Main definitions

* `RemoteModelGateway`, `GatewayState`: the gateway, and what it keeps between calls
* `RemoteModelGateway.call`: a call, with what it sends, records and returns

## Main results

* `call_cases`: what a call sends, and what it leaves behind
-/

namespace SecOpent

namespace RemoteModel

open Python

/-! ## Calls -/

/-- `DataClassification`. -/
inductive DataClassification
  | publicData
  | internal
  | sensitive
  | restricted
  | secret
  deriving DecidableEq, Repr

/-- `ModelBudget`. -/
structure ModelBudget where
  dailyTokenBudget : ℤ := 500000
  rateLimitPerMin : ℤ := 10
  promptSizeCap : ℤ := 32000

/-- What a call raises; `raised` is what the redactor, a backend or the audit raises. -/
inductive CallError
  | secretNeverSent (message : String)
  | restrictedDenied (message : String)
  | promptTooLarge (message : String)
  | zeroDivision
  | raised (error : String)
  deriving DecidableEq, Repr

/-- The backends, under the names of `ModelResponse.backend`. -/
inductive BackendName
  | localModel
  | remoteModel
  deriving DecidableEq, Repr

/-- The alert of a call. -/
inductive Alert
  | budget80Warn
  | budget100Degrade
  deriving DecidableEq, Repr

/-- `ModelResponse`. -/
structure ModelResponse where
  text : Str
  backend : BackendName
  degraded : Bool
  redacted : Bool
  alert : Option Alert

/-- The arguments of a call, and what the backends and the audit answer to it. -/
structure ModelCall where
  prompt : Str
  classification : DataClassification
  now : Time
  preferRemote : Bool := false
  answer : BackendName → Except String Str
  recorded : Except String Unit := .ok ()

/-- The event `model.call`. -/
structure ModelCallEvent where
  classification : DataClassification
  backend : BackendName
  redacted : Bool
  degraded : Bool
  alert : Option Alert
  tokens : ℕ

/-- `RemoteModelGateway`: the redactor and the budget, and whether there is a remote backend and an
audit. -/
structure RemoteModelGateway where
  redact : Str → Except String Str
  remote : Bool
  budget : ModelBudget := {}
  audit : Bool := false

/-- `_tokens_used` and `_request_times`. -/
structure GatewayState where
  tokensUsed : ℤ := 0
  requestTimes : List Time := []

/-- What a call does: what it sends to a backend and records, the state that it leaves, and what it
returns. -/
structure CallOutcome where
  state : GatewayState
  sent : Option (BackendName × Str)
  events : List ModelCallEvent
  result : Except CallError ModelResponse

/-- `_estimate_tokens`. -/
def estimateTokens (text : Str) : ℕ := max 1 (text.length / 4)

/-- `timedelta(minutes=1)`. -/
def minute : Time := 60000000

/-- `ratio` and the alert: the division raises when the budget is zero. -/
def alertOf (projected budget : ℤ) : Except CallError (Option Alert) :=
  if budget = 0 then .error .zeroDivision
  else
    let ratio : ℚ := projected / budget
    .ok (if ratio ≥ 1 then some .budget100Degrade
      else if ratio ≥ 4 / 5 then some .budget80Warn
      else none)

/-- The state after a call that a backend answered. -/
def GatewayState.account (s : GatewayState) (now : Time) (estimate : ℕ) : GatewayState :=
  ⟨s.tokensUsed + estimate, s.requestTimes ++ [now]⟩

namespace RemoteModelGateway

variable (g : RemoteModelGateway) (s : GatewayState)

/-- The text that is sent, and whether it was redacted. -/
def redacted (c : ModelCall) : Except String (Str × Bool) :=
  if c.classification = .sensitive then (g.redact c.prompt).map fun text => (text, true)
  else .ok (c.prompt, false)

/-- Classification, redaction and the size cap. -/
def prepare (c : ModelCall) : Except CallError (Str × Bool) :=
  if c.classification = .secret then
    .error (.secretNeverSent "secret data must never be sent to a model")
  else if c.classification = .restricted then
    .error (.restrictedDenied "restricted data is default-deny for model access")
  else
    match g.redacted c with
    | .error error => .error (.raised error)
    | .ok (text, redacted) =>
      if g.budget.promptSizeCap < text.length then
        .error (.promptTooLarge ("prompt length " ++ String.ofList (intRepr text.length) ++
          " exceeds cap " ++ String.ofList (intRepr g.budget.promptSizeCap)))
      else .ok (text, redacted)

/-- `recent` of `_rate_exceeded`. -/
def recent (now : Time) : List Time := s.requestTimes.filter fun t => now - minute ≤ t

/-- `_rate_exceeded`. -/
def rateExceeded (now : Time) : Bool := g.budget.rateLimitPerMin ≤ (recent s now).length

/-- The tokens of the call would go over the budget. -/
def overBudget (estimate : ℕ) : Bool := g.budget.dailyTokenBudget < s.tokensUsed + estimate

/-- The call is to go to the remote backend, and there is one. -/
def wantsRemote (c : ModelCall) : Bool := c.preferRemote && g.remote

/-- `degraded`. -/
def degraded (c : ModelCall) (estimate : ℕ) : Bool :=
  g.wantsRemote c && (g.rateExceeded s c.now || g.overBudget s estimate)

/-- The backend that the call goes to. -/
def backend (c : ModelCall) (estimate : ℕ) : BackendName :=
  if g.wantsRemote c && !g.degraded s c estimate then .remoteModel else .localModel

/-- The part of `call` after the text is known: the alert, the backend, the accounting and the
audit. -/
def complete (c : ModelCall) (text : Str) (redacted : Bool) : CallOutcome :=
  let estimate := estimateTokens text
  let backend := g.backend s c estimate
  match alertOf (s.tokensUsed + estimate) g.budget.dailyTokenBudget with
  | .error error => ⟨s, none, [], .error error⟩
  | .ok alert =>
    match c.answer backend with
    | .error error => ⟨s, some (backend, text), [], .error (.raised error)⟩
    | .ok result =>
      let response := ⟨result, backend, g.degraded s c estimate, redacted, alert⟩
      let event := ⟨c.classification, backend, redacted, g.degraded s c estimate, alert, estimate⟩
      -- The audit comes after the accounting.
      match g.audit, c.recorded with
      | true, .ok () =>
        ⟨s.account c.now estimate, some (backend, text), [event], .ok response⟩
      | true, .error error =>
        ⟨s.account c.now estimate, some (backend, text), [], .error (.raised error)⟩
      | false, _ => ⟨s.account c.now estimate, some (backend, text), [], .ok response⟩

/-- `call`. -/
def call (c : ModelCall) : CallOutcome :=
  match g.prepare c with
  | .error error => ⟨s, none, [], .error error⟩
  | .ok (text, redacted) => g.complete s c text redacted

end RemoteModelGateway

/-! ## What a call sends -/

section Spec

variable {g : RemoteModelGateway} {s : GatewayState} {c : ModelCall}

/-- **A call** sends nothing and leaves the state, as no text is let through or the budget is zero; or
it sends a text that was let through, and counts it if the backend answers. -/
theorem call_cases (g : RemoteModelGateway) (s : GatewayState) (c : ModelCall) :
    ((g.call s c).sent = none ∧ (g.call s c).state = s ∧
        ((∃ error, g.prepare c = .error error) ∨ g.budget.dailyTokenBudget = 0)) ∨
      ∃ text redacted, g.prepare c = .ok (text, redacted) ∧
        (g.call s c).sent = some (g.backend s c (estimateTokens text), text) ∧
        (g.call s c).state =
          if (c.answer (g.backend s c (estimateTokens text))).isOk then
            s.account c.now (estimateTokens text)
          else s := by
  unfold RemoteModelGateway.call
  cases hprepare : g.prepare c with
  | error error => exact .inl ⟨rfl, rfl, .inl ⟨error, rfl⟩⟩
  | ok prepared =>
    obtain ⟨text, redacted⟩ := prepared
    simp only [RemoteModelGateway.complete]
    cases halert : alertOf (s.tokensUsed + estimateTokens text) g.budget.dailyTokenBudget with
    | error error =>
      refine .inl ⟨rfl, rfl, .inr ?_⟩
      by_contra hbudget
      rw [alertOf, if_neg hbudget] at halert
      cases halert
    | ok alert =>
      refine .inr ⟨text, redacted, rfl, ?_⟩
      cases c.answer (g.backend s c (estimateTokens text)) with
      | error error => exact ⟨rfl, rfl⟩
      | ok result =>
        cases g.audit with
        | false => exact ⟨rfl, rfl⟩
        | true =>
          cases c.recorded with
          | error error => exact ⟨rfl, rfl⟩
          | ok => exact ⟨rfl, rfl⟩

end Spec

end RemoteModel

end SecOpent
