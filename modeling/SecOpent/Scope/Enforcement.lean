import Mathlib.Data.Finset.Basic
import SecOpent.Scope.Snapshot

/-!
# Scope enforcement before a scan

The two checks made on a target before a tool may contact it: `EgressGuard`
(`infrastructure/egress/egress_guard.py`) and `ScopeEnforcer` (`application/scope_enforcer.py`).
Both split the target into a host and a port, resolve the host, and ask the scope about every
resolved address.

## Main definitions

* `splitTarget`: the host and the port of a target
* `EgressGuard.check`, `ScopeEnforcer.check`

## Main results

* `EgressGuard.check_allowed_iff`, `ScopeEnforcer.check_allowed_iff`: what an allowed target
  passed
-/

namespace SecOpent

open Python

/-- `RiskClass`. -/
inductive RiskClass
  | passive | low | active | intrusive | destructive
  deriving DecidableEq, Repr

/-- `RiskClass.value`. -/
def RiskClass.value : RiskClass → String
  | .passive => "passive"
  | .low => "low"
  | .active => "active"
  | .intrusive => "intrusive"
  | .destructive => "destructive"

/-- `RiskClass(value)`, which raises on any other text. -/
def RiskClass.ofValue? (text : String) : Option RiskClass :=
  [.passive, .low, .active, .intrusive, .destructive].find? fun risk => risk.value == text

theorem RiskClass.ofValue?_value (risk : RiskClass) : RiskClass.ofValue? risk.value = some risk := by
  cases risk <;> decide

theorem RiskClass.value_inj {risk risk' : RiskClass} : risk.value = risk'.value ↔ risk = risk' := by
  constructor
  · intro h
    have hread := RiskClass.ofValue?_value risk
    rw [h, RiskClass.ofValue?_value] at hread
    exact (Option.some.inj hread).symm
  · rintro rfl
    rfl

/-- `PolicyDecision`. -/
structure PolicyDecision where
  allowed : Bool
  reason : String
  deriving DecidableEq, Repr

/-- A decision that denies. -/
def deny (reason : String) : PolicyDecision := ⟨false, reason⟩

/-- `DnsResolver`: the current addresses of a host name. -/
abbrev DnsResolver := Str → List Str

variable (U : Unicode)

/-- `_is_ip`. -/
def isIp (host : Str) : Bool := (ipAddress host).isSome

/-- `_split_target`, the same in both modules: a URL by its host and port, anything else at its
last colon when an integer follows it. -/
def splitTarget (target : Str) : Except PyError (Str × Option ℤ) :=
  if isHttp target then do
    let parsed ← orValueError (urlsplit U target)
    let host := (parsed.hostname U).getD []
    let port ← orValueError parsed.port
    -- `parsed.port or default`: port 0 is falsy.
    let default : ℤ := if parsed.scheme == "https".toList then 443 else 80
    match port with
    | some (n + 1) => pure (host, some (n + 1 : ℤ))
    | _ => pure (host, some default)
  else if ':' ∈ target then
    match int U (rpartition ':' target).2 with
    | some port => pure ((rpartition ':' target).1, some port)
    | none => pure (target, none)
  else pure (target, none)

/-- The addresses a host stands for: itself, or what the resolver answers. -/
def resolveHost (dns : DnsResolver) (host : Str) : List Str :=
  if isIp host then [host] else dns host

/-! ## `EgressGuard` -/

/-- `EgressGuard`: a resolver and the networks that are blocked whatever the scope says. -/
structure EgressGuard where
  dns : DnsResolver
  blocked : List IpNetwork

/-- `DEFAULT_BLOCKED_CIDRS`. -/
def defaultBlockedCidrs : List Str := ["169.254.0.0/16".toList, "127.0.0.0/8".toList]

namespace EgressGuard

/-- `EgressGuard(dns_resolver)`, with the default blocked networks. -/
def ofResolver (dns : DnsResolver) : EgressGuard :=
  ⟨dns, defaultBlockedCidrs.filterMap ipNetwork⟩

variable (guard : EgressGuard)

/-- `is_blocked_destination`: a text that is no address is blocked. -/
def isBlockedDestination (ip : Str) : Bool :=
  match ipAddress ip with
  | none => true
  | some address => guard.blocked.any fun network => network.contains address

/-- The loop of `check` over the resolved addresses: the first denial, if any. -/
def firstDenial (scope : ScopeSnapshot) : List Str → Except PyError (Option PolicyDecision)
  | [] => pure none
  | ip :: rest =>
    if guard.isBlockedDestination ip then pure (some (deny "BLOCKED_DESTINATION"))
    else do
      if ← scope.includesIp U ip then firstDenial scope rest
      else pure (some (deny "OUT_OF_SCOPE"))

/-- `EgressGuard.check`. -/
def check (target : Str) (scope : ScopeSnapshot) : Except PyError PolicyDecision := do
  let (host, port) ← splitTarget U target
  if host.isEmpty then pure (deny "INVALID_TARGET")
  else
    let resolved := resolveHost guard.dns host
    if resolved.isEmpty then pure (deny "DNS_RESOLUTION_FAILED")
    else
      match ← guard.firstDenial U scope resolved with
      | some decision => pure decision
      | none =>
        match port with
        | none => pure ⟨true, "ALLOWED"⟩
        | some n => do
          if ← scope.includesPort n then pure ⟨true, "ALLOWED"⟩
          else pure (deny "PORT_NOT_ALLOWED")

end EgressGuard

/-! ## `ScopeEnforcer` -/

/-- `EnforcementContext`. The clock enters through `hour`, the hour of `now`. -/
structure EnforcementContext where
  risk : RiskClass
  approvedRisks : Finset RiskClass
  approved : Bool
  budgetRemaining : ℚ
  hour : ℕ
  timeWindow : Option (ℕ × ℕ) := none
  permitValid : Bool := true

/-- `is_loopback or is_link_local or is_unspecified or is_multicast`. -/
def isBlockedAddress : IpAddress → Bool
  | .v4 ip =>
    ip &&& netmask 32 8 == 0x7f000000#32 || ip &&& netmask 32 16 == 0xa9fe0000#32 || ip == 0 ||
      ip &&& netmask 32 4 == 0xe0000000#32
  | .v6 ip _ =>
    ip == 1 || ip &&& netmask 128 10 == (0xfe80#128 <<< 112) || ip == 0 ||
      ip &&& netmask 128 8 == (0xff00#128 <<< 112)

/-- `_is_blocked_ip`: a text that is no address raises. -/
def isBlockedIp (ip : Str) : Except PyError Bool := do
  let address ← orValueError (ipAddress ip)
  pure (isBlockedAddress address)

/-- `ScopeEnforcer`. -/
structure ScopeEnforcer where
  dns : DnsResolver

namespace ScopeEnforcer

variable (enforcer : ScopeEnforcer)

/-- Step 5: the first resolved address that is blocked or out of scope. -/
def firstDenial (scope : ScopeSnapshot) : List Str → Except PyError (Option PolicyDecision)
  | [] => pure none
  | ip :: rest => do
    if ← isBlockedIp ip then pure (some (deny "REBINDING_BLOCKED"))
    else if ← scope.includesIp U ip then firstDenial scope rest
    else pure (some (deny "RESOLVED_IP_OUT_OF_SCOPE"))

/-- Steps 7 to 10: window, risk, approval, budget and permit. -/
def contextDecision (context : EnforcementContext) : PolicyDecision :=
  if context.timeWindow.any fun w => !(w.1 ≤ context.hour && context.hour < w.2) then
    deny "OUTSIDE_TIME_WINDOW"
  else if context.risk = .destructive then deny "DESTRUCTIVE_DENIED"
  else if context.risk ∉ context.approvedRisks then deny "RISK_NOT_APPROVED"
  else if !context.approved then deny "NOT_APPROVED"
  else if context.budgetRemaining ≤ 0 then deny "BUDGET_EXHAUSTED"
  else if !context.permitValid then deny "PERMIT_INVALID"
  else ⟨true, "ALLOWED"⟩

/-- `ScopeEnforcer.check`. -/
def check (target : Str) (scope : ScopeSnapshot) (context : EnforcementContext) :
    Except PyError PolicyDecision := do
  let (host, port) ← splitTarget U target
  if host.isEmpty then pure (deny "INVALID_TARGET")
  else if ← scope.excludesHost U host then pure (deny "EXPLICIT_DENY")
  else if !(← scope.includesHost U host) then pure (deny "NOT_INCLUDED")
  else
    let resolved := resolveHost enforcer.dns host
    if resolved.isEmpty then pure (deny "DNS_RESOLUTION_FAILED")
    else
      match ← firstDenial U scope resolved with
      | some decision => pure decision
      | none =>
        match port with
        | none => pure (contextDecision context)
        | some n => do
          if ← scope.includesPort n then pure (contextDecision context)
          else pure (deny "PORT_NOT_ALLOWED")

end ScopeEnforcer

/-! ## What an allowed target passed -/

/-- The check returned a decision that allows the target. -/
def Allowed (result : Except PyError PolicyDecision) : Prop :=
  ∃ decision, result = .ok decision ∧ decision.allowed = true

@[simp] theorem not_allowed_error (e : PyError) : ¬Allowed (.error e) := by
  rintro ⟨_, h, _⟩
  cases h

@[simp] theorem allowed_ok (d : PolicyDecision) : Allowed (.ok d) ↔ d.allowed = true := by
  simp [Allowed]

@[simp] theorem deny_allowed (reason : String) : (deny reason).allowed = false := rfl

theorem allowed_bind {α : Type} {x : Except PyError α} {f : α → Except PyError PolicyDecision} :
    Allowed (x >>= f) ↔ ∃ a, x = .ok a ∧ Allowed (f a) := by
  cases x with
  | error e => simp [bind, Except.bind]
  | ok a => simp [bind, Except.bind]

namespace EgressGuard

theorem firstDenial_eq_none_iff {guard : EgressGuard} {scope : ScopeSnapshot} {ips : List Str} :
    guard.firstDenial U scope ips = .ok none ↔
      ∀ ip ∈ ips, guard.isBlockedDestination ip = false ∧ scope.includesIp U ip = .ok true := by
  induction ips with
  | nil => simp [firstDenial, pure, Except.pure]
  | cons ip rest ih =>
    rw [firstDenial, List.forall_mem_cons, ← ih]
    cases hb : guard.isBlockedDestination ip with
    | true => simp [pure, Except.pure]
    | false =>
      rcases hi : scope.includesIp U ip with e | _ | _ <;>
        simp [bind, Except.bind, pure, Except.pure]

theorem firstDenial_denies {guard : EgressGuard} {scope : ScopeSnapshot} {ips : List Str}
    {d : PolicyDecision} (h : guard.firstDenial U scope ips = .ok (some d)) :
    d.allowed = false := by
  induction ips with
  | nil => simp [firstDenial, pure, Except.pure] at h
  | cons ip rest ih =>
    rw [firstDenial] at h
    cases hb : guard.isBlockedDestination ip with
    | true =>
      simp only [hb, if_true, pure, Except.pure, Except.ok.injEq, Option.some.injEq] at h
      rw [← h, deny_allowed]
    | false =>
      rcases hi : scope.includesIp U ip with e | _ | _
      · simp [hb, hi, bind, Except.bind] at h
      · simp only [hb, hi, bind, Except.bind, pure, Except.pure, Except.ok.injEq,
          Option.some.injEq, Bool.false_eq_true, if_false] at h
        rw [← h, deny_allowed]
      · simp only [hb, hi, bind, Except.bind, Bool.false_eq_true, if_false, if_true] at h
        exact ih h

/-- What an allowed target passed: its host resolves, every address it resolves to is in scope and
not blocked, and so is its port. -/
theorem check_allowed_iff {guard : EgressGuard} {target : Str} {scope : ScopeSnapshot} :
    Allowed (guard.check U target scope) ↔
      ∃ host port, splitTarget U target = .ok (host, port) ∧ host ≠ [] ∧
        resolveHost guard.dns host ≠ [] ∧
        (∀ ip ∈ resolveHost guard.dns host,
          guard.isBlockedDestination ip = false ∧ scope.includesIp U ip = .ok true) ∧
        ∀ n, port = some n → scope.includesPort n = .ok true := by
  rw [check, allowed_bind, Prod.exists]
  refine exists_congr fun host => exists_congr fun port => and_congr_right fun _ => ?_
  rw [← firstDenial_eq_none_iff U]
  cases host with
  | nil => simp [pure, Except.pure]
  | cons c cs =>
    cases hres : resolveHost guard.dns (c :: cs) with
    | nil => simp [hres, pure, Except.pure]
    | cons ip rest =>
      rcases hd : guard.firstDenial U scope (ip :: rest) with e | _ | d
      · simp [hres, hd, allowed_bind]
      · cases port with
        | none => simp [hres, hd, allowed_bind, pure, Except.pure]
        | some n =>
          rcases hp : scope.includesPort n with e | _ | _ <;>
            simp [hres, hd, hp, allowed_bind, pure, Except.pure]
      · simp [hres, hd, allowed_bind, pure, Except.pure, firstDenial_denies U hd]

end EgressGuard

namespace ScopeEnforcer

theorem firstDenial_eq_none_iff {scope : ScopeSnapshot} {ips : List Str} :
    firstDenial U scope ips = .ok none ↔
      ∀ ip ∈ ips, isBlockedIp ip = .ok false ∧ scope.includesIp U ip = .ok true := by
  induction ips with
  | nil => simp [firstDenial, pure, Except.pure]
  | cons ip rest ih =>
    rw [firstDenial, List.forall_mem_cons, ← ih]
    rcases hb : isBlockedIp ip with e | _ | _
    · simp [bind, Except.bind]
    · rcases hi : scope.includesIp U ip with e | _ | _ <;>
        simp [bind, Except.bind, pure, Except.pure]
    · simp [bind, Except.bind, pure, Except.pure]

theorem firstDenial_denies {scope : ScopeSnapshot} {ips : List Str} {d : PolicyDecision}
    (h : firstDenial U scope ips = .ok (some d)) : d.allowed = false := by
  induction ips with
  | nil => simp [firstDenial, pure, Except.pure] at h
  | cons ip rest ih =>
    rw [firstDenial] at h
    rcases hb : isBlockedIp ip with e | _ | _
    · simp [hb, bind, Except.bind] at h
    · rcases hi : scope.includesIp U ip with e | _ | _
      · simp [hb, hi, bind, Except.bind] at h
      · simp only [hb, hi, bind, Except.bind, pure, Except.pure, Except.ok.injEq,
          Option.some.injEq, Bool.false_eq_true, if_false] at h
        rw [← h, deny_allowed]
      · simp only [hb, hi, bind, Except.bind, Bool.false_eq_true, if_false, if_true] at h
        exact ih h
    · simp only [hb, bind, Except.bind, if_true, pure, Except.pure, Except.ok.injEq,
        Option.some.injEq] at h
      rw [← h, deny_allowed]

/-- What an allowed target passed: its host is included and not excluded, every address it
resolves to is in scope and not blocked, and so is its port; and the context allows it. -/
theorem check_allowed_iff {enforcer : ScopeEnforcer} {target : Str} {scope : ScopeSnapshot}
    {context : EnforcementContext} :
    Allowed (enforcer.check U target scope context) ↔
      ∃ host port, splitTarget U target = .ok (host, port) ∧ host ≠ [] ∧
        scope.excludesHost U host = .ok false ∧ scope.includesHost U host = .ok true ∧
        resolveHost enforcer.dns host ≠ [] ∧
        (∀ ip ∈ resolveHost enforcer.dns host,
          isBlockedIp ip = .ok false ∧ scope.includesIp U ip = .ok true) ∧
        (∀ n, port = some n → scope.includesPort n = .ok true) ∧
        (contextDecision context).allowed = true := by
  rw [check, allowed_bind, Prod.exists]
  refine exists_congr fun host => exists_congr fun port => and_congr_right fun _ => ?_
  rw [← firstDenial_eq_none_iff U]
  cases host with
  | nil => simp [pure, Except.pure]
  | cons c cs =>
    simp only [List.isEmpty_cons, Bool.false_eq_true, if_false, ne_eq, reduceCtorEq,
      not_false_eq_true, true_and, allowed_bind]
    -- One split for each step of the check, in its order.
    rcases hx : scope.excludesHost U (c :: cs) with e | _ | _
    · simp
    · rcases hi : scope.includesHost U (c :: cs) with e | _ | _
      · simp [allowed_bind]
      · simp [allowed_bind, pure, Except.pure]
      · cases hres : resolveHost enforcer.dns (c :: cs) with
        | nil => simp [allowed_bind, pure, Except.pure]
        | cons ip rest =>
          rcases hd : firstDenial U scope (ip :: rest) with e | _ | d
          · simp [allowed_bind]
          · cases port with
            | none => simp [allowed_bind, pure, Except.pure]
            | some n =>
              rcases hp : scope.includesPort n with e | _ | _ <;>
                simp [hp, allowed_bind, pure, Except.pure]
          · simp [allowed_bind, pure, Except.pure, firstDenial_denies U hd]
    · simp [pure, Except.pure]

end ScopeEnforcer

end SecOpent
