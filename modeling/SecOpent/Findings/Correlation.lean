import Mathlib.Data.List.Dedup
import SecOpent.Oracle.Verification

/-!
# Observations and findings

`domain/findings` and `application/finding_correlation.py`: the facts a tool reports, and the
findings they are merged into. Observations with the same fingerprint, whatever tool reported
them, become one finding.

## Main definitions

* `Observation`, `Finding`
* `correlate`: the findings of a list of observations
-/

namespace SecOpent

open Python

/-- `Severity`, in the order of `_SEVERITY_RANK`. -/
inductive Severity
  | info | low | medium | high | critical
  deriving DecidableEq, Repr

/-- `_SEVERITY_RANK`. -/
def Severity.rank : Severity → ℕ
  | .info => 0
  | .low => 1
  | .medium => 2
  | .high => 3
  | .critical => 4

/-- `Observation`, with the fields that correlation reads. -/
structure Observation where
  externalId : String
  assetIdentity : String
  title : String
  severity : Severity
  cwe : List String := []
  cve : List String := []
  owasp : List String := []
  deriving DecidableEq

/-- `FindingStatus`. -/
inductive FindingStatus
  | draft | candidate | validated | reported | closed | falsePositive
  deriving DecidableEq, Repr

/-- `Finding`. -/
structure Finding where
  id : String
  fingerprint : String
  title : String
  asset : String
  severity : Severity
  cwe : List String
  cve : List String
  owasp : List String
  observationIds : List String
  evidenceIds : List String := []
  status : FindingStatus := .draft
  assessmentId : String := ""
  oracleVerdict : VerificationStatus := .pending
  deriving DecidableEq

/-- The digest of a finding's identity: asset, sorted CWE, sorted CVE. -/
abbrev FingerprintDigest := String → List String → List String → String

/-- `sorted` on texts: by code points. -/
def sortedTexts (items : List String) : List String := items.mergeSort fun a b => decide (a ≤ b)

variable (digest : FingerprintDigest)

/-- `observation_fingerprint`. -/
def observationFingerprint (observation : Observation) : String :=
  digest observation.assetIdentity (sortedTexts observation.cwe) (sortedTexts observation.cve)

/-- `groups.setdefault(fingerprint, []).append(observation)`, in insertion order. -/
def insertGroup (fingerprint : String) (observation : Observation) :
    List (String × List Observation) → List (String × List Observation)
  | [] => [(fingerprint, [observation])]
  | (key, group) :: groups =>
    if key = fingerprint then (key, group ++ [observation]) :: groups
    else (key, group) :: insertGroup fingerprint observation groups

/-- The groups of `correlate`. -/
def groupByFingerprint (observations : List Observation) : List (String × List Observation) :=
  observations.foldl (fun groups o => insertGroup (observationFingerprint digest o) o groups) []

/-- `_max_severity`: Python's `max` keeps the first of equals. -/
def maxSeverity (first : Severity) (observations : List Observation) : Severity :=
  observations.foldl (fun best o => if best.rank < o.severity.rank then o.severity else best) first

/-- `id=f"finding:{fingerprint.removeprefix('sha256:')[:16]}"`. -/
def findingId (fingerprint : String) : String :=
  let text := fingerprint.toList
  let bare := if startsWith text "sha256:".toList then text.drop 7 else text
  "finding:" ++ String.ofList (bare.take 16)

/-- The finding of one group. -/
def findingOfGroup (fingerprint : String) (first : Observation) (group : List Observation) :
    Finding where
  id := findingId fingerprint
  fingerprint := fingerprint
  title := first.title
  asset := first.assetIdentity
  severity := maxSeverity first.severity group
  cwe := sortedTexts (group.flatMap Observation.cwe).dedup
  cve := sortedTexts (group.flatMap Observation.cve).dedup
  owasp := sortedTexts (group.flatMap Observation.owasp).dedup
  observationIds := group.map Observation.externalId
  status := .candidate

/-- `FindingCorrelation.correlate`. -/
def correlate (observations : List Observation) : List Finding :=
  (groupByFingerprint digest observations).filterMap fun entry =>
    entry.2.head?.map fun first => findingOfGroup entry.1 first entry.2

end SecOpent
